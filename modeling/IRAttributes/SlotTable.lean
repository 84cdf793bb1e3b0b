/-!
A table whose slots are reused. A handle names a slot and the generation of
its tenant; removing the tenant begins the next generation of the slot, so the
old handle finds nothing from then on, whoever moves in later. The slot freed
last is reused first. There is one handle that never finds anything.
-/
namespace IRAttributes

inductive Handle
  | null
  | issued (slot generation : Nat)
  deriving DecidableEq

/-- Slots are counted from 1 and a slot's generations are numbered 1, 3, 5 and so on. -/
def Handle.text : Handle → String
  | .null => "EntityHandle(null)"
  | .issued slot generation => s!"EntityHandle({slot + 1}v{2 * generation + 1})"

structure Slot (α : Type) where
  generation : Nat
  tenant : Option α

structure SlotTable (α : Type) where
  slots : List (Slot α)
  /-- Vacant slots, the one freed last in front. -/
  vacant : List Nat

namespace SlotTable

variable {α : Type}

def empty : SlotTable α := ⟨[], []⟩

def size (t : SlotTable α) : Nat := t.slots.length

def get? (t : SlotTable α) : Handle → Option α
  | .null => none
  | .issued slot generation =>
      (t.slots[slot]?).bind fun s => if s.generation = generation then s.tenant else none

def contains (t : SlotTable α) (h : Handle) : Bool := (t.get? h).isSome

def generation (t : SlotTable α) (slot : Nat) : Nat :=
  ((t.slots[slot]?).map Slot.generation).getD 0

/-- The handle that the next tenant gets. -/
def nextHandle (t : SlotTable α) : Handle :=
  match t.vacant with
  | [] => .issued t.slots.length 0
  | slot :: _ => .issued slot (t.generation slot)

def insert (t : SlotTable α) (a : α) : SlotTable α :=
  match t.vacant with
  | [] => ⟨t.slots ++ [⟨0, some a⟩], []⟩
  | slot :: rest => ⟨t.slots.set slot ⟨t.generation slot, some a⟩, rest⟩

/-- Changes the tenant with a handle, if there is one. -/
def update (t : SlotTable α) (f : α → α) (h : Handle) : SlotTable α :=
  match h, t.get? h with
  | .issued slot generation, some a => ⟨t.slots.set slot ⟨generation, some (f a)⟩, t.vacant⟩
  | _, _ => t

def remove (t : SlotTable α) (h : Handle) : SlotTable α :=
  match h, t.get? h with
  | .issued slot generation, some _ =>
      ⟨t.slots.set slot ⟨generation + 1, none⟩, slot :: t.vacant⟩
  | _, _ => t

theorem slot_lt_of_get? {t : SlotTable α} {slot generation : Nat} {a : α}
    (h : t.get? (.issued slot generation) = some a) : slot < t.slots.length := by
  apply Nat.lt_of_not_le
  intro hout
  simp [get?, List.getElem?_eq_none hout] at h

theorem get?_remove_self (t : SlotTable α) (h : Handle) : (t.remove h).get? h = none := by
  cases h with
  | null => rfl
  | issued slot generation =>
    cases hget : t.get? (.issued slot generation) with
    | none => simp only [remove, hget]
    | some a =>
      have heq : t.remove (.issued slot generation) =
          ⟨t.slots.set slot ⟨generation + 1, none⟩, slot :: t.vacant⟩ := by
        simp only [remove, hget]
      simp [heq, get?, slot_lt_of_get? hget]

theorem get?_update_self (t : SlotTable α) (f : α → α) (h : Handle) :
    (t.update f h).get? h = (t.get? h).map f := by
  cases h with
  | null => rfl
  | issued slot generation =>
    cases hget : t.get? (.issued slot generation) with
    | none => simp only [update, hget, Option.map_none]
    | some a =>
      have heq : t.update f (.issued slot generation) =
          ⟨t.slots.set slot ⟨generation, some (f a)⟩, t.vacant⟩ := by
        simp only [update, hget]
      simp [heq, get?, slot_lt_of_get? hget]

end SlotTable

end IRAttributes
