import IRAttributes.Collection
import IRAttributes.KeyedList

/-!
A collection that keeps its attributes itself, attached to no entity. They
stand in the order they were first added; any parameter position is in range.
-/
namespace IRAttributes

structure OwnedCollection where
  index : Index
  attributes : List Attribute
  deriving DecidableEq

namespace OwnedCollection

def empty (index : Index) : OwnedCollection := ⟨index, []⟩

def find? (c : OwnedCollection) (key : Key) : Option Attribute :=
  if key.isBlank then none else KeyedList.find? Attribute.key key c.attributes

def put (c : OwnedCollection) (v : Attribute) : OwnedCollection :=
  ⟨c.index, KeyedList.put Attribute.key v c.attributes⟩

def erase (c : OwnedCollection) (key : Key) : OwnedCollection :=
  if key.isBlank then c else ⟨c.index, KeyedList.erase Attribute.key key c.attributes⟩

/-- A replacement is reported. -/
def replacement? (c : OwnedCollection) (v : Attribute) : List Event :=
  match KeyedList.find? Attribute.key v.key c.attributes with
  | some old => [.replaced old v c.index]
  | none => []

def add (v : Attribute) : Action OwnedCollection Unit := ExceptT.mk ⟨fun c =>
  match Placement.check v c.index none with
  | .error e => ⟨.error e, c, []⟩
  | .ok () => ⟨.ok (), c.put v, c.replacement? v⟩⟩

/-- An addition is refused, and then nothing changes, or the attribute is put. -/
theorem add_cases (c : OwnedCollection) (v : Attribute) :
    (∃ e, Placement.check v c.index none = .error e ∧
        ((add v).run.run c).answer = .error e ∧ ((add v).run.run c).state = c) ∨
      (Placement.check v c.index none = .ok () ∧
        ((add v).run.run c).answer = .ok () ∧ ((add v).run.run c).state = c.put v) := by
  cases hcheck : Placement.check v c.index none with
  | error e =>
    have hadd : (add v).run.run c = ⟨.error e, c, []⟩ := by
      simp only [add, ExceptT.run_mk, hcheck]
    exact Or.inl ⟨e, rfl, congrArg Outcome.answer hadd, congrArg Outcome.state hadd⟩
  | ok u =>
    have hadd : (add v).run.run c = ⟨.ok (), c.put v, c.replacement? v⟩ := by
      simp only [add, ExceptT.run_mk, hcheck]
    exact Or.inr ⟨rfl, congrArg Outcome.answer hadd, congrArg Outcome.state hadd⟩

def collection : Collection OwnedCollection where
  index := OwnedCollection.index
  find? key := Step.read (·.find? key)
  attributes := Step.read OwnedCollection.attributes
  size := Step.read (·.attributes.length)
  add := add
  remove key := Step.modify (·.erase key)

def summary (c : OwnedCollection) : Summary := collection.summary.peek c

end OwnedCollection

end IRAttributes
