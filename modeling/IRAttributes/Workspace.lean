import IRAttributes.Context
import IRAttributes.OpenStore
import IRAttributes.OwnedSet

/-!
Everything that holds attributes at one time: any number of contexts, recorded
stores, owned sets and owned collections, each known by its number. An
operation on one of them is an operation on the workspace that leaves the
others alone.
-/
namespace IRAttributes

structure Workspace where
  contexts : List Context
  recorders : List Recorder
  sets : List OwnedSet
  collections : List OwnedCollection

namespace Workspace

/-- A workspace with empty contexts, and one recorded store for each parameter count. -/
def ofCounts (contexts : Nat) (parameterCounts : List (Option UInt32)) : Workspace :=
  ⟨List.replicate contexts .empty, parameterCounts.map Recorder.empty, [], []⟩

def context (number : Nat) : Component Workspace Context where
  get w := (w.contexts[number]?).getD .empty
  put c w := { w with contexts := w.contexts.set number c }

def recorder (number : Nat) : Component Workspace Recorder where
  get w := (w.recorders[number]?).getD (.empty none)
  put r w := { w with recorders := w.recorders.set number r }

def ownedSet (number : Nat) : Component Workspace OwnedSet where
  get w := (w.sets[number]?).getD .empty
  put s w := { w with sets := w.sets.set number s }

def ownedCollection (number : Nat) : Component Workspace OwnedCollection where
  get w := (w.collections[number]?).getD (.empty .function)
  put c w := { w with collections := w.collections.set number c }

/-- The number of a set that is added to the workspace. -/
def addSet (s : OwnedSet) : Step Workspace Nat := ⟨fun w =>
  ⟨w.sets.length, { w with sets := w.sets ++ [s] }, []⟩⟩

def addCollection (c : OwnedCollection) : Step Workspace Nat := ⟨fun w =>
  ⟨w.collections.length, { w with collections := w.collections ++ [c] }, []⟩⟩

/-- What the recorded stores were asked, store by store. -/
def messages (w : Workspace) : List (Message UInt32) :=
  w.recorders.flatMap Recorded.messages

def forgetMessages (w : Workspace) : Workspace :=
  { w with recorders := w.recorders.map fun r => ⟨r.store, []⟩ }

end Workspace

end IRAttributes
