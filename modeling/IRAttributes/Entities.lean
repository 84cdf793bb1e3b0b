import IRAttributes.Workspace

/-!
Functions, their arguments, calls and invokes, as a caller holds them: the
number of a context and a handle in it. Two of them are the same if both agree.
The attributes of an argument are those of its function at one parameter, and
nothing else can be reached through it.
-/
namespace IRAttributes

structure Function where
  context : Nat
  handle : Handle
  deriving DecidableEq

structure Call where
  context : Nat
  handle : Handle
  deriving DecidableEq

structure Invoke where
  context : Nat
  handle : Handle
  deriving DecidableEq

structure Argument where
  function : Function
  position : UInt32
  deriving DecidableEq

namespace Workspace

def contextAt (w : Workspace) (number : Nat) : Context := (context number).get w

/-- A context as a store that is part of the workspace. -/
def contextStore (number : Nat) : Store Workspace Handle :=
  Context.store.within (context number)

def recorderStore (number : Nat) : Store Workspace UInt32 :=
  Recorder.recording.within (recorder number)

def addFunction (number : Nat) (name : String) (parameterCount : UInt32) :
    Step Workspace Function := do
  return ⟨number, ← (Context.addFunction name parameterCount).within (context number)⟩

/-- The callee is looked for in the context that the call is built in. -/
def buildCall (number : Nat) (callee : Function) : Action Workspace Call := do
  return ⟨number, ← Action.within (context number) (Context.buildCall callee.handle)⟩

def buildInvoke (number : Nat) (callee : Function) : Action Workspace Invoke := do
  return ⟨number, ← Action.within (context number) (Context.buildInvoke callee.handle)⟩

def removeEntity (number : Nat) (h : Handle) : Step Workspace Bool :=
  (Context.remove h).within (context number)

/-- The function a call site was built for, while it exists. -/
def callee? (w : Workspace) (number : Nat) (h : Handle) : Option Function :=
  ((w.contextAt number).callee? h).bind fun callee =>
    if (w.contextAt number).contains callee then some ⟨number, callee⟩ else none

end Workspace

namespace Function

def attributes (f : Function) : AttributeSet Workspace :=
  (Workspace.contextStore f.context).attributeSet f.handle

def name? (f : Function) (w : Workspace) : Option String :=
  (w.contextAt f.context).functionName? f.handle

def parameterCount (f : Function) (w : Workspace) : Except Error UInt32 :=
  (w.contextAt f.context).parameterCount f.handle

def argument? (f : Function) (position : UInt32) (w : Workspace) : Option Argument :=
  match f.parameterCount w with
  | .ok count => if position < count then some ⟨f, position⟩ else none
  | .error _ => none

/-- The first arguments of a function in order, at most `limit` of them. -/
def firstArguments (f : Function) (limit : Nat) (w : Workspace) : List Argument :=
  let count := match f.parameterCount w with
    | .ok count => count.toNat
    | .error _ => 0
  (List.range (min limit count)).map fun position => ⟨f, position.toUInt32⟩

def delete (f : Function) : Step Workspace Bool := Workspace.removeEntity f.context f.handle

end Function

namespace Call

def attributes (c : Call) : AttributeSet Workspace :=
  (Workspace.contextStore c.context).attributeSet c.handle

def callee? (c : Call) (w : Workspace) : Option Function := w.callee? c.context c.handle

end Call

namespace Invoke

def attributes (i : Invoke) : AttributeSet Workspace :=
  (Workspace.contextStore i.context).attributeSet i.handle

def callee? (i : Invoke) (w : Workspace) : Option Function := w.callee? i.context i.handle

end Invoke

namespace Argument

def index (a : Argument) : Index := .parameter a.position

def attributes (a : Argument) : AttributeSet Workspace := a.function.attributes.restrict a.index

/-- The alignment of an argument is kept by its function. -/
def setAlignment (a : Argument) (alignment : UInt64) : Action Workspace Argument := do
  let v ← Action.ofExcept (Attribute.ofPayload .alignment alignment)
  a.function.attributes.add a.index v
  return a

end Argument

end IRAttributes
