import IRAttributes.AttributeSet

/-!
Storage of attributes outside of the values that work on them. A store is
addressed by the handle of an entity, an index and a key. It may refuse to
count the parameters of an entity or to add an attribute; all other requests
about an entity it does not know find nothing and change nothing. A view is one
index of one entity of a store; it keeps nothing, checks what it is asked to
add, and passes everything else on.
-/
namespace IRAttributes

structure Store (σ H : Type) where
  entityText : H → String
  parameterCount : H → Action σ UInt32
  /-- Puts the attribute in the place of the one with its key. -/
  add : H → Index → Attribute → Action σ Unit
  remove : H → Index → Key → Step σ Unit
  count : H → Index → Step σ UInt32
  attributes : H → Index → Step σ (List Attribute)
  find? : H → Index → Key → Step σ (Option Attribute)

structure View (H : Type) where
  entity : H
  index : Index
  deriving DecidableEq

namespace View

variable {σ H : Type}

/-- The number of parameters is asked for at every addition, since it may have
changed since the view was made. -/
def add (store : Store σ H) (view : View H) (v : Attribute) : Action σ Unit := do
  let count ← store.parameterCount view.entity
  Action.ofExcept (Placement.check v view.index (some count))
  Action.report (.viewAdds v (store.entityText view.entity) view.index)
  store.add view.entity view.index v

def remove (store : Store σ H) (view : View H) (key : Key) : Step σ Unit :=
  if key.isBlank then pure () else do
    Step.report (.viewRemoves key (store.entityText view.entity) view.index)
    store.remove view.entity view.index key

def find? (store : Store σ H) (view : View H) (key : Key) : Step σ (Option Attribute) :=
  if key.isBlank then pure none else store.find? view.entity view.index key

def collection (store : Store σ H) (view : View H) : Collection σ where
  index _ := view.index
  find? := view.find? store
  attributes := store.attributes view.entity view.index
  size := do return (← store.count view.entity view.index).toNat
  add := view.add store
  remove := view.remove store

end View

namespace Store

variable {σ τ H : Type}

def within (component : Component τ σ) (store : Store σ H) : Store τ H where
  entityText := store.entityText
  parameterCount entity := Action.within component (store.parameterCount entity)
  add entity index v := Action.within component (store.add entity index v)
  remove entity index key := (store.remove entity index key).within component
  count entity index := (store.count entity index).within component
  attributes entity index := (store.attributes entity index).within component
  find? entity index key := (store.find? entity index key).within component

/-- A view of an index, if the entity has that index now. -/
def viewAt (store : Store σ H) (entity : H) (index : Index) : Action σ (View H) := do
  let count ← store.parameterCount entity
  Action.ofExcept (Placement.checkRange index (some count))
  return ⟨entity, index⟩

def attributeSet (store : Store σ H) (entity : H) : AttributeSet σ where
  collectionAt index := do return (← store.viewAt entity index).collection store
  parameterCount := do return (← (store.parameterCount entity).run).toOption

end Store

end IRAttributes
