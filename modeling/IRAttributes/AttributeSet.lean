import IRAttributes.Collection

/-!
The attributes of one entity at all of its indices. A set gives access to the
collection at an index, or says why there is none, and knows how many
parameters its entity has, if that is limited. The operations on a single
index are derived: they reach for the collection first, so a refused index
comes before any other complaint. Batches stop at the first item that fails.
-/
namespace IRAttributes

structure AttributeSet (σ : Type) where
  collectionAt : Index → Action σ (Collection σ)
  /-- `none` where any number of parameters may be addressed. -/
  parameterCount : Step σ (Option UInt32)

namespace AttributeSet

variable {σ τ : Type}

def parameterCollection (S : AttributeSet σ) (position : UInt32) : Action σ (Collection σ) := do
  Action.ofExcept (Placement.checkRange (.parameter position) (← S.parameterCount))
  S.collectionAt (.parameter position)

def addKind (S : AttributeSet σ) (index : Index) (kind : Kind) : Action σ Unit := do
  (← S.collectionAt index).addKind kind

def addKinds (S : AttributeSet σ) (index : Index) (kinds : List Kind) : Action σ Unit := do
  (← S.collectionAt index).addKinds kinds

def addPayload (S : AttributeSet σ) (index : Index) (kind : Kind) (payload : UInt64) :
    Action σ Unit := do
  (← S.collectionAt index).addPayload kind payload

def add (S : AttributeSet σ) (index : Index) (v : Attribute) : Action σ Unit := do
  (← S.collectionAt index).add v

def addAll (S : AttributeSet σ) (index : Index) (vs : List Attribute) : Action σ Unit := do
  (← S.collectionAt index).addAll vs

def remove (S : AttributeSet σ) (index : Index) (key : Key) : Action σ Unit := do
  (← S.collectionAt index).remove key

def has (S : AttributeSet σ) (index : Index) (key : Key) : Action σ Bool := do
  (← S.collectionAt index).has key

def hasAny (S : AttributeSet σ) (index : Index) : Action σ Bool := do
  return !(← (← S.collectionAt index).isEmpty)

def text (S : AttributeSet σ) (index : Index) : Action σ String := do
  (← S.collectionAt index).text

/-- The integer of the attribute of a kind. -/
def payload (S : AttributeSet σ) (index : Index) (kind : Kind) : Action σ UInt64 := do
  let c ← S.collectionAt index
  match ← c.find? (.kind kind) with
  | none => throw (.notPresent kind index)
  | some v =>
      match v.payload? with
      | none => throw (.payloadMissing kind index)
      | some payload => return payload

def summary (S : AttributeSet σ) (index : Index) : Action σ Summary := do
  (← S.collectionAt index).summary

def parameterSummary (S : AttributeSet σ) (position : UInt32) : Action σ Summary := do
  (← S.parameterCollection position).summary

/-- Copies what a collection holds to an index of the set. -/
def addCollection (S : AttributeSet σ) (index : Index) (source : Collection σ) :
    Action σ Unit := do
  S.addAll index (← source.attributes)

/-- Copies what another set holds at an index to the same index of this set. -/
def addFrom (S : AttributeSet σ) (index : Index) (source : AttributeSet σ) : Action σ Unit := do
  S.addCollection index (← source.collectionAt index)

/-- The same set, addressable at one index only. -/
def restrict (S : AttributeSet σ) (only : Index) : AttributeSet σ where
  collectionAt index :=
    if index = only then S.collectionAt index else throw (.indexMismatch only index)
  parameterCount := S.parameterCount

def within (component : Component τ σ) (S : AttributeSet σ) : AttributeSet τ where
  collectionAt index := do
    return (← Action.within component (S.collectionAt index)).within component
  parameterCount := S.parameterCount.within component

end AttributeSet

end IRAttributes
