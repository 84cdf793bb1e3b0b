import IRAttributes.Proofs.Shelves

/-!
The order of additions. Attributes with different keys, all of them legal where
they are added, are all taken, and the outcome is the union of what was there
with what was added. So no lookup depends on the order in which they came: keys
that were there before keep their positions, and only the new ones behind them
may be listed in another order.
-/
namespace IRAttributes

variable {σ ν κ : Type} [DecidableEq κ]

namespace Collection

variable {c : Collection σ} {s s₁ s₂ : σ} {vs ws : List Attribute}

/-- The same is found in two states. -/
structure SameLookups (c : Collection σ) (s₁ s₂ : σ) : Prop where
  find? : ∀ key, (c.find? key).peek s₁ = (c.find? key).peek s₂
  has : ∀ key, (c.has key).peek s₁ = (c.has key).peek s₂

theorem sameLookups_of_find? (h : ∀ key, (c.find? key).peek s₁ = (c.find? key).peek s₂) :
    c.SameLookups s₁ s₂ where
  find? := h
  has key := congrArg Option.isSome (h key)

/-- Attributes are all taken. Afterwards they are found, and under other keys what
was found before, and no key that was there has changed its position. -/
structure Takes (c : Collection σ) (s : σ) (vs : List Attribute) : Prop where
  done : ((c.addAll vs).run.run s).answer = .ok ()
  find? : ∀ key, (c.find? key).peek ((c.addAll vs).run.run s).state =
    (KeyedList.find? Attribute.key key vs).or ((c.find? key).peek s)
  positions : (c.attributes.peek s).map Attribute.key <+:
    (c.attributes.peek ((c.addAll vs).run.run s).state).map Attribute.key

/-- Two states after additions to the same one that differ in the order of what is
behind the first positions at most. -/
structure SameUpToOrder (c : Collection σ) (positions : Nat) (s₁ s₂ : σ) : Prop where
  size : c.size.peek s₁ = c.size.peek s₂
  lookups : c.SameLookups s₁ s₂
  perm : (c.attributes.peek s₁).Perm (c.attributes.peek s₂)
  front : (c.attributes.peek s₁).take positions = (c.attributes.peek s₂).take positions

/-- Whatever is built by the checked constructors, under keys of its own, and is
legal here, is taken in any order, and the order is not seen by lookups. -/
def AnyOrder (c : Collection σ) (s : σ) : Prop :=
  ∀ vs ws : List Attribute, vs.Perm ws → (∀ v ∈ vs, v.WellFormed) →
    (∀ v ∈ vs, Placement.Legal v (c.index s)) → (vs.map Attribute.key).Nodup →
      c.Takes s vs ∧ c.Takes s ws ∧
        c.SameUpToOrder (c.attributes.peek s).length ((c.addAll vs).run.run s).state
          ((c.addAll ws).run.run s).state

namespace Shelves

variable {index : Index} {form : Form ν κ} {place : Component σ (List ν)} {I : σ → Prop}

/-- Legal attributes are put one after the other. -/
theorem run_addAll (h : c.Shelves index form place I) (hs : I s)
    (hlegal : ∀ v ∈ vs, Placement.Legal v index) :
    ((c.addAll vs).run.run s).answer = .ok () ∧ I ((c.addAll vs).run.run s).state ∧
      place.get ((c.addAll vs).run.run s).state = form.putAll vs (place.get s) := by
  induction vs generalizing s with
  | nil => exact ⟨rfl, hs, rfl⟩
  | cons v rest ih =>
    obtain ⟨hadded, hput⟩ := h.add s hs v (hlegal v List.mem_cons_self)
    have hunique := (h.lens.get s hs).put v
    obtain ⟨hanswer, hstate⟩ := Action.bind_of_ok (fun _ => c.addAll rest) hadded
    rw [hput] at hanswer hstate
    obtain ⟨hdone, hkept, hlast⟩ := ih (h.lens.put s _ hs hunique)
      fun w hw => hlegal w (List.mem_cons_of_mem v hw)
    rw [h.lens.get_put s _ hs hunique] at hlast
    exact ⟨hanswer.trans hdone, hstate.symm ▸ hkept, hstate.symm ▸ hlast⟩

section

variable (h : c.Shelves index form place I) (hs : I s) (hwell : ∀ v ∈ vs, v.WellFormed)
  (hlegal : ∀ v ∈ vs, Placement.Legal v index) (hkeys : (vs.map Attribute.key).Nodup)
include h hs hwell hlegal hkeys

/-- What was there is united with what is added. -/
theorem attributes_addAll : c.attributes.peek ((c.addAll vs).run.run s).state =
    KeyedList.union Attribute.key (c.attributes.peek s) vs := by
  obtain ⟨-, hkept, hlast⟩ := h.run_addAll hs hlegal
  rw [h.attributes _ hkept, hlast, Form.list_putAll hwell, h.attributes s hs]
  exact KeyedList.putAll_eq_union (h.lens.get s hs).list hkeys

theorem find?_addAll (key : Key) : (c.find? key).peek ((c.addAll vs).run.run s).state =
    (KeyedList.find? Attribute.key key vs).or ((c.find? key).peek s) := by
  obtain ⟨-, hkept, -⟩ := h.run_addAll hs hlegal
  rw [h.find? _ hkept, h.find? s hs, ← h.attributes _ hkept, ← h.attributes s hs,
    h.attributes_addAll hs hwell hlegal hkeys, KeyedList.find?_union]
  split
  · rename_i hblank
    have hnone : KeyedList.find? Attribute.key key vs = none := by
      refine KeyedList.find?_eq_none_iff.mpr ?_
      rintro v hv rfl
      rw [(hwell v hv).key_isBlank] at hblank
      cases hblank
    rw [hnone, Option.none_or]
  · rfl

theorem takes : c.Takes s vs where
  done := (h.run_addAll hs hlegal).1
  find? := h.find?_addAll hs hwell hlegal hkeys
  positions := by
    rw [h.attributes_addAll hs hwell hlegal hkeys]
    exact KeyedList.map_key_prefix_union _ vs

end

theorem anyOrder (h : c.Shelves index form place I) (hs : I s) : c.AnyOrder s := by
  intro vs ws hperm hwell hlegal hkeys
  rw [h.index_eq s hs] at hlegal
  have hwell' : ∀ v ∈ ws, v.WellFormed := fun v hv => hwell v (hperm.mem_iff.mpr hv)
  have hlegal' : ∀ v ∈ ws, Placement.Legal v index := fun v hv => hlegal v (hperm.mem_iff.mpr hv)
  have hkeys' : (ws.map Attribute.key).Nodup := (hperm.map Attribute.key).nodup_iff.mp hkeys
  have htakes := h.takes hs hwell hlegal hkeys
  have htakes' := h.takes hs hwell' hlegal' hkeys'
  obtain ⟨-, hkept, hlast⟩ := h.run_addAll hs hlegal
  obtain ⟨-, hkept', hlast'⟩ := h.run_addAll hs hlegal'
  obtain ⟨hlists, hfront⟩ := KeyedList.union_perm hperm hkeys (c.attributes.peek s)
  refine ⟨htakes, htakes', ?_, sameLookups_of_find? ?_, ?_, ?_⟩
  · rw [h.size _ hkept, h.size _ hkept', hlast, hlast',
      Form.length_putAll_perm hperm hkeys (h.lens.get s hs)]
  · intro key
    rw [htakes.find?, htakes'.find?, KeyedList.find?_perm hperm hkeys]
  · rw [h.attributes_addAll hs hwell hlegal hkeys, h.attributes_addAll hs hwell' hlegal' hkeys']
    exact hlists
  · rw [h.attributes_addAll hs hwell hlegal hkeys, h.attributes_addAll hs hwell' hlegal' hkeys']
    exact hfront

end Shelves

end Collection

namespace CollectionRef

open Workspace

/-- After any run, attributes with different keys that are legal in an owned
collection, or at an index of an entity that is there, can be added in any
order. The sizes and all lookups are the same, the lists are permutations of
each other, and the keys that were there stand in front, where they stood. -/
theorem anyOrder_of_run (contexts : Nat) (parameterCounts : List (Option UInt32))
    (activities : List Activity) {r : CollectionRef}
    (hopen : r.Open (reached contexts parameterCounts activities)) :
    r.collection.AnyOrder (reached contexts parameterCounts activities) := by
  obtain ⟨ν, κ, _, form, place, I, hshelves, hs⟩ :=
    shelved_of_run contexts parameterCounts activities hopen
  exact hshelves.anyOrder hs

/-- A function with an alignment of its stack and a name. -/
def namedFunction : List Activity :=
  [.addFunction 0 "f" 0,
    .onSet (.function ⟨0, .issued 0 0⟩) (.addPayload .function .stackAlignment 8),
    .onSet (.function ⟨0, .issued 0 0⟩) (.add .function (.named "a" "1"))]

/-- A view of the function as a whole. -/
def namedView : CollectionRef := .view 0 ⟨.issued 0 0, .function⟩

theorem open_namedView : namedView.Open (reached 1 [] namedFunction) :=
  ⟨0, Or.inl ⟨"f", rfl⟩, trivial⟩

/-- The name gets another value and stays where it is, the rest comes after it in
either order. -/
theorem anyOrder_of_run_namedFunction :
    namedView.Open (reached 1 [] namedFunction) ∧
      namedView.collection.SameUpToOrder 2
        ((namedView.collection.addAll
          [.named "b" "", .named "a" "2", .known .noReturn none]).run.run
            (reached 1 [] namedFunction)).state
        ((namedView.collection.addAll
          [.known .noReturn none, .named "a" "2", .named "b" ""]).run.run
            (reached 1 [] namedFunction)).state := by
  obtain ⟨-, -, hsame⟩ := anyOrder_of_run 1 [] namedFunction open_namedView _ _
    (by decide : [Attribute.named "b" "", .named "a" "2", .known .noReturn none].Perm
      [.known .noReturn none, .named "a" "2", .named "b" ""]) (by decide) (by decide) (by decide)
  exact ⟨open_namedView, hsame⟩

end CollectionRef

end IRAttributes
