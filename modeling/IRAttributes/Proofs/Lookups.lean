import IRAttributes.Proofs.Revision

/-!
Looking up and listing. A context looks for the first attribute with a key in
native form and reads it back; its list reads everything back and leaves out
what cannot be read. Both see the same, since no key occurs twice and what is
read back has the key of what was kept. So whatever keeps attributes finds under
a key the one attribute of its list that has it, and nothing if there is none;
owned collections and views only make an exception of the empty name, under
which they never find anything.
-/
namespace IRAttributes

/-- Lookups that find under each of some keys the one element of a list that has
the key, or nothing if there is none. -/
structure Finds (p : Key → Prop) (find? : Key → Option Attribute) (vs : List Attribute) :
    Prop where
  mem_iff : ∀ key, p key → ∀ v, find? key = some v ↔ v ∈ vs ∧ v.key = key
  only : ∀ key, p key → ∀ v, find? key = some v → (vs.filter fun w => w.key = key) = [v]

theorem finds_of_unique {p : Key → Prop} {find? : Key → Option Attribute} {vs : List Attribute}
    (hunique : KeyedList.UniqueKeys Attribute.key vs)
    (hfind : ∀ key, p key → find? key = KeyedList.find? Attribute.key key vs) :
    Finds p find? vs where
  mem_iff key hkey v := by
    rw [hfind key hkey]
    exact KeyedList.find?_eq_some_iff Attribute.key hunique
  only key hkey v hfound := by
    rw [KeyedList.filter_key Attribute.key hunique, ← hfind key hkey, hfound]
    rfl

/-- Lookups that differ under other keys only. -/
theorem Finds.congr {q : Key → Prop} {find? find?' : Key → Option Attribute}
    {vs : List Attribute} (h : Finds (fun _ => True) find? vs)
    (hsame : ∀ key, q key → find?' key = find? key) : Finds q find?' vs where
  mem_iff key hkey v := by
    rw [hsame key hkey]
    exact h.mem_iff key trivial v
  only key hkey v hfound := h.only key trivial v ((hsame key hkey).symm.trans hfound)

variable {σ τ H : Type}

/-- What a collection finds, and whether it has something, is what going through
its list shows, except that there is nothing under the empty name. -/
structure Collection.Consistent (c : Collection σ) (s : σ) : Prop where
  finds : Finds (fun key => key.isBlank = false) (fun key => (c.find? key).peek s)
    (c.attributes.peek s)
  has : ∀ key, key.isBlank = false →
    ((c.has key).peek s = true ↔ ∃ v ∈ c.attributes.peek s, v.key = key)
  blank : ∀ key, key.isBlank = true →
    (c.find? key).peek s = none ∧ (c.has key).peek s = false

namespace Collection

theorem consistent_of_finds {c : Collection σ} {s : σ}
    (hfinds : Finds (fun key => key.isBlank = false) (fun key => (c.find? key).peek s)
      (c.attributes.peek s))
    (hblank : ∀ key, key.isBlank = true → (c.find? key).peek s = none) : c.Consistent s := by
  have hhas : ∀ key, (c.has key).peek s = ((c.find? key).peek s).isSome := fun _ => rfl
  refine ⟨hfinds, ?_, ?_⟩
  · intro key hkey
    rw [hhas, Option.isSome_iff_exists]
    simp only [hfinds.mem_iff key hkey]
  · intro key hkey
    rw [hhas, hblank key hkey]
    exact ⟨rfl, rfl⟩

theorem Consistent.within {c : Collection σ} {component : Component τ σ} {t : τ}
    (h : c.Consistent (component.get t)) : (c.within component).Consistent t where
  finds := h.finds
  has := h.has
  blank := h.blank

end Collection

theorem OwnedCollection.Lawful.consistent {P : Attribute → Prop} {c : OwnedCollection}
    (hc : c.Lawful P) : OwnedCollection.collection.Consistent c := by
  refine Collection.consistent_of_finds (finds_of_unique hc.unique ?_) ?_
  · intro key hkey
    exact if_neg (Bool.eq_false_iff.mp hkey)
  · intro key hkey
    exact if_pos hkey

/-- A view finds what its store finds, but never asks for the empty name. -/
theorem View.consistent {S : Store σ H} {view : View H} {s : σ}
    (hfinds : Finds (fun _ => True) (fun key => (S.find? view.entity view.index key).peek s)
      ((S.attributes view.entity view.index).peek s)) : (view.collection S).Consistent s := by
  have hfind : ∀ key, ((view.collection S).find? key).peek s =
      if key.isBlank then none else (S.find? view.entity view.index key).peek s := by
    intro key
    change (view.find? S key).peek s = _
    unfold View.find?
    split <;> rfl
  refine Collection.consistent_of_finds (hfinds.congr ?_) ?_
  · intro key hkey
    rw [hfind, hkey]
    rfl
  · intro key hkey
    rw [hfind, hkey]
    rfl

namespace Context

theorem Lawful.finds {c : Context} (hc : c.Lawful) (h : Handle) (index : Index) :
    Finds (fun _ => True) (c.find? h index) (c.attributes h index) :=
  finds_of_unique (NativeAttribute.uniqueKeys_toAttribute? (hc.unique h index))
    fun key _ => c.find?_eq h index key

end Context

/-- After any run, whatever attributes were brought along, a context finds under
a key the one attribute of its list that has the key, for every entity, there or
not, and every index. The same is true of all views and of all owned collections,
by themselves or in a set, but for the empty name, under which they find nothing. -/
theorem Workspace.consistent_of_run (contexts : Nat) (parameterCounts : List (Option UInt32))
    (activities : List Activity) :
    (∀ k h index, Finds (fun _ => True)
      (((reached contexts parameterCounts activities).contextAt k).find? h index)
      (((reached contexts parameterCounts activities).contextAt k).attributes h index)) ∧
    (∀ k view, (CollectionRef.view k view).collection.Consistent
      (reached contexts parameterCounts activities)) ∧
    (∀ n, (CollectionRef.owned n).collection.Consistent
      (reached contexts parameterCounts activities)) ∧
    ∀ n index, (CollectionRef.ownedAt n index).collection.Consistent
      (reached contexts parameterCounts activities) := by
  have hlawful := lawful_reached contexts parameterCounts activities
  have hbeside : Beside _ none _ _ := (stocked_of_run contexts parameterCounts activities).beside
  have hcontexts := fun k h index => (hlawful k).finds h index
  refine ⟨hcontexts, ?_, ?_, ?_⟩
  · intro k view
    exact View.consistent (hcontexts k view.entity view.index)
  · intro n
    exact (hbeside.getCollection n).consistent.within
  · intro n index
    exact ((hbeside.getSet n).getOrEmpty index).consistent.within.within

end IRAttributes
