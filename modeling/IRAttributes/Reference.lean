import IRAttributes.Entities

/-!
References to the sets and collections of a workspace. Whatever carries
attributes is reached through one of these. What a place holds can be looked
at without any request being reported or noted, and without a collection being
created.
-/
namespace IRAttributes

inductive SetRef
  | function (f : Function)
  | call (c : Call)
  | invoke (i : Invoke)
  | argument (a : Argument)
  /-- All attributes of an entity, given by its handle alone. -/
  | entity (context : Nat) (h : Handle)
  | recorded (recorder : Nat) (entity : UInt32)
  | owned (number : Nat)
  deriving DecidableEq

inductive CollectionRef
  | view (context : Nat) (v : View Handle)
  | recordedView (recorder : Nat) (v : View UInt32)
  | owned (number : Nat)
  /-- What an owned set keeps at an index. -/
  | ownedAt (set : Nat) (index : Index)
  deriving DecidableEq

structure Contents where
  count : Nat
  attributes : List Attribute
  deriving DecidableEq

namespace CollectionRef

def collection : CollectionRef → Collection Workspace
  | .view context v => v.collection (Workspace.contextStore context)
  | .recordedView recorder v => v.collection (Workspace.recorderStore recorder)
  | .owned number => OwnedCollection.collection.within (Workspace.ownedCollection number)
  | .ownedAt number index => (OwnedSet.collection index).within (Workspace.ownedSet number)

/-- False for an index of an owned set that was never accessed. -/
def accessed (w : Workspace) : CollectionRef → Bool
  | .ownedAt number index => (((Workspace.ownedSet number).get w).get? index).isSome
  | _ => true

def contents? (r : CollectionRef) (w : Workspace) : Option Contents :=
  if r.accessed w then
    some ⟨r.collection.size.peek w, r.collection.attributes.peek w⟩
  else none

end CollectionRef

namespace SetRef

def attributes : SetRef → AttributeSet Workspace
  | .function f => f.attributes
  | .call c => c.attributes
  | .invoke i => i.attributes
  | .argument a => a.attributes
  | .entity context h => (Workspace.contextStore context).attributeSet h
  | .recorded recorder e => (Workspace.recorderStore recorder).attributeSet e
  | .owned number => OwnedSet.attributeSet.within (Workspace.ownedSet number)

/-- Where the set keeps its attributes at an index; an argument keeps all of
them with its function. -/
def place (index : Index) : SetRef → CollectionRef
  | .function f => .view f.context ⟨f.handle, index⟩
  | .call c => .view c.context ⟨c.handle, index⟩
  | .invoke i => .view i.context ⟨i.handle, index⟩
  | .argument a => .view a.function.context ⟨a.function.handle, index⟩
  | .entity context h => .view context ⟨h, index⟩
  | .recorded recorder e => .recordedView recorder ⟨e, index⟩
  | .owned number => .ownedAt number index

/-- A lasting reference to the collection at an index, if the set grants access to it now. -/
def collectionAt (r : SetRef) (index : Index) : Action Workspace CollectionRef := do
  let _ ← r.attributes.collectionAt index
  return r.place index
end SetRef

namespace Workspace

def getSet (w : Workspace) (number : Nat) : OwnedSet := (ownedSet number).get w

def getCollection (w : Workspace) (number : Nat) : OwnedCollection := (ownedCollection number).get w

/-- Merges one owned set into another, which may be the same. -/
def merge (source target : Nat) : Action Workspace Unit := do
  let s ← Action.read fun w => w.getSet source
  Action.within (ownedSet target) (OwnedSet.mergeFrom s)

/-- Applies an owned set as it is at the start, so a set may be applied to itself. -/
def apply (source : Nat) (target : SetRef) : Action Workspace Unit := do
  let s ← Action.read fun w => w.getSet source
  s.applyTo target.attributes

end Workspace

end IRAttributes
