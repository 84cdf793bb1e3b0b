import IRAttributes.Placement
import IRAttributes.Step

/-!
The attributes at one index. A collection is the handful of operations that a
storage has to offer for one index; everything else a caller may ask for is
derived from them here. Nothing is found or removed under the empty name.
-/
namespace IRAttributes

structure Collection (σ : Type) where
  index : σ → Index
  find? : Key → Step σ (Option Attribute)
  attributes : Step σ (List Attribute)
  size : Step σ Nat
  /-- Checks the attribute, then puts it in the place of the one with its key. -/
  add : Attribute → Action σ Unit
  remove : Key → Step σ Unit

structure Summary where
  index : Index
  size : Nat
  isEmpty : Bool
  attributes : List Attribute
  text : String
  deriving DecidableEq

namespace Collection

variable {σ τ : Type}

def isEmpty (c : Collection σ) : Step σ Bool := do
  return (← c.size) == 0

def has (c : Collection σ) (key : Key) : Step σ Bool := do
  return (← c.find? key).isSome

def text (c : Collection σ) : Step σ String := do
  return Attribute.textOfList (← c.attributes)

/-- The place is checked before the attribute is built. -/
def addKind (c : Collection σ) (kind : Kind) : Action σ Unit := do
  Action.ofExcept (Placement.checkFlag kind (← Action.read c.index))
  c.add (← Action.ofExcept (Attribute.ofKind kind))

def addPayload (c : Collection σ) (kind : Kind) (payload : UInt64) : Action σ Unit := do
  Action.ofExcept (Placement.checkPayload kind (← Action.read c.index))
  c.add (← Action.ofExcept (Attribute.ofPayload kind payload))

def addNamed (c : Collection σ) (name value : String) : Action σ Unit := do
  c.add (← Action.ofExcept (Attribute.ofName name value))

/-- Removes whatever has the key of `v`. -/
def removeLike (c : Collection σ) (v : Attribute) : Step σ Unit := c.remove v.key

/-- Stops at the first attribute that is refused; those before it stay. -/
def addAll (c : Collection σ) (vs : List Attribute) : Action σ Unit := vs.forM c.add

def addKinds (c : Collection σ) (kinds : List Kind) : Action σ Unit := kinds.forM c.addKind

def summary (c : Collection σ) : Step σ Summary := do
  let index ← Step.read c.index
  let size ← c.size
  let isEmpty ← c.isEmpty
  let attributes ← c.attributes
  let text ← c.text
  return ⟨index, size, isEmpty, attributes, text⟩

def within (component : Component τ σ) (c : Collection σ) : Collection τ where
  index t := c.index (component.get t)
  find? key := (c.find? key).within component
  attributes := c.attributes.within component
  size := c.size.within component
  add v := Action.within component (c.add v)
  remove key := (c.remove key).within component

end Collection

end IRAttributes
