import IRAttributes.Proofs.Reordering

/-!
Collections as ordered maps. An addition and a removal are edits of one list, and
what is done after an edit is done to the edited list. So the laws of keyed lists
are laws of the operations: of two additions under one key the second one counts,
a removal takes away one key and leaves everything else in its order, and under
different keys a removal can be exchanged with an addition or another removal to
the same effect. Two additions may be exchanged as far as lookups go.
-/
namespace IRAttributes

variable {σ ρ ν κ α : Type} [DecidableEq κ]

/-- The same answer and the same effect on a state. What is reported may differ. -/
def Action.SameAt (s : σ) (x y : Action σ α) : Prop :=
  (x.run.run s).answer = (y.run.run s).answer ∧ (x.run.run s).state = (y.run.run s).state

/-- An action that always succeeds, and changes nothing but what is at a place. -/
structure Component.Edits (place : Component σ ρ) (J : ρ → Prop) (I : σ → Prop)
    (x : Action σ Unit) (f : ρ → ρ) : Prop where
  kept : ∀ r, J r → J (f r)
  done : ∀ s, I s → (x.run.run s).answer = .ok ()
  state : ∀ s, I s → (x.run.run s).state = place.put (f (place.get s)) s

namespace Component.Edits

variable {place : Component σ ρ} {J : ρ → Prop} {I : σ → Prop} {x y : Action σ Unit}
  {f g : ρ → ρ} {s : σ}

theorem bind (hlens : place.Lens J I) (hx : place.Edits J I x f) (hy : place.Edits J I y g) :
    place.Edits J I (do x; y) (fun r => g (f r)) := by
  have hedited : ∀ s, I s → J (f (place.get s)) := fun s hs => hx.kept _ (hlens.get s hs)
  refine ⟨fun r hr => hy.kept _ (hx.kept r hr), fun s hs => ?_, fun s hs => ?_⟩
  · obtain ⟨hanswer, -⟩ := Action.bind_of_ok (fun _ => y) (hx.done s hs)
    rw [hx.state s hs] at hanswer
    exact hanswer.trans (hy.done _ (hlens.put s _ hs (hedited s hs)))
  · obtain ⟨-, hstate⟩ := Action.bind_of_ok (fun _ => y) (hx.done s hs)
    rw [hx.state s hs, hy.state _ (hlens.put s _ hs (hedited s hs)),
      hlens.get_put s _ hs (hedited s hs)] at hstate
    exact hstate.trans (hlens.put_put s _ _ hs (hedited s hs) (hy.kept _ (hedited s hs)))

theorem sameAt (hx : place.Edits J I x f) (hy : place.Edits J I y g) (hs : I s)
    (hsame : f (place.get s) = g (place.get s)) : Action.SameAt s x y := by
  refine ⟨(hx.done s hs).trans (hy.done s hs).symm, ?_⟩
  rw [hx.state s hs, hy.state s hs, hsame]

end Component.Edits

namespace Collection

variable {c : Collection σ} {s : σ}

/-- The laws of a map in which new keys are listed last, for attributes that are
legal here and keys other than the empty name. -/
structure MapLaws (c : Collection σ) (s : σ) : Prop where
  add_done : ∀ v, Placement.Legal v (c.index s) → ((c.add v).run.run s).answer = .ok ()
  find?_add : ∀ v, v.WellFormed → Placement.Legal v (c.index s) → ∀ key,
    (c.find? key).peek ((c.add v).run.run s).state =
      if v.key = key then some v else (c.find? key).peek s
  add_add : ∀ v w, Placement.Legal v (c.index s) → Placement.Legal w (c.index s) →
    v.key = w.key → Action.SameAt s (do c.add v; c.add w) (c.add w)
  add_twice : ∀ v, Placement.Legal v (c.index s) →
    Action.SameAt s (do c.add v; c.add v) (c.add v)
  add_comm : ∀ v w, v.WellFormed → w.WellFormed → Placement.Legal v (c.index s) →
    Placement.Legal w (c.index s) → v.key ≠ w.key →
      ((do c.add v; c.add w : Action σ Unit).run.run s).answer = .ok () ∧
      ((do c.add w; c.add v : Action σ Unit).run.run s).answer = .ok () ∧
      c.SameLookups ((do c.add v; c.add w : Action σ Unit).run.run s).state
        ((do c.add w; c.add v : Action σ Unit).run.run s).state
  removeLike : ∀ v, v.WellFormed → v.key.isBlank = false ∧ c.removeLike v = c.remove v.key
  attributes_remove : ∀ key, key.isBlank = false →
    c.attributes.peek ((c.remove key).run s).state =
      (c.attributes.peek s).filter fun w => w.key ≠ key
  remove_twice : ∀ key, key.isBlank = false →
    Action.SameAt s (do c.remove key; c.remove key) (c.remove key)
  remove_comm : ∀ j k, j.isBlank = false → k.isBlank = false →
    Action.SameAt s (do c.remove j; c.remove k) (do c.remove k; c.remove j)
  add_remove : ∀ v, v.WellFormed → Placement.Legal v (c.index s) →
    (∀ w ∈ c.attributes.peek s, w.key ≠ v.key) →
      ((do c.add v; c.remove v.key : Action σ Unit).run.run s).answer = .ok () ∧
      c.attributes.peek ((do c.add v; c.remove v.key : Action σ Unit).run.run s).state =
        c.attributes.peek s
  add_remove_comm : ∀ v key, Placement.Legal v (c.index s) → key.isBlank = false →
    v.key ≠ key → Action.SameAt s (do c.add v; c.remove key) (do c.remove key; c.add v)

namespace Shelves

variable {index : Index} {form : Form ν κ} {place : Component σ (List ν)} {I : σ → Prop}
  {v w : Attribute} {key : Key} {x : Action σ Unit} {f : List ν → List ν}

theorem edits_add (h : c.Shelves index form place I) (hv : Placement.Legal v index) :
    place.Edits form.Unique I (c.add v) (form.put v) where
  kept _ hl := hl.put v
  done s hs := (h.add s hs v hv).1
  state s hs := (h.add s hs v hv).2

theorem edits_remove (h : c.Shelves index form place I) (hkey : key.isBlank = false) :
    place.Edits form.Unique I (c.remove key) (form.erase key) where
  kept _ hl := hl.erase key
  done _ _ := rfl
  state s hs := h.remove s hs key hkey

theorem attributes_of_edits (h : c.Shelves index form place I)
    (hx : place.Edits form.Unique I x f) (hs : I s) :
    c.attributes.peek (x.run.run s).state = form.list (f (place.get s)) := by
  have hedited := hx.kept _ (h.lens.get s hs)
  rw [hx.state s hs, h.attributes _ (h.lens.put s _ hs hedited), h.lens.get_put s _ hs hedited]

theorem find?_of_edits (h : c.Shelves index form place I)
    (hx : place.Edits form.Unique I x f) (hs : I s) (key : Key) :
    (c.find? key).peek (x.run.run s).state =
      if key.isBlank then none
      else KeyedList.find? Attribute.key key (form.list (f (place.get s))) := by
  have hedited := hx.kept _ (h.lens.get s hs)
  rw [hx.state s hs, h.find? _ (h.lens.put s _ hs hedited), h.lens.get_put s _ hs hedited]

theorem find?_of_add (h : c.Shelves index form place I) (hs : I s) (hwell : v.WellFormed)
    (hv : Placement.Legal v index) (key : Key) :
    (c.find? key).peek ((c.add v).run.run s).state =
      if v.key = key then some v else (c.find? key).peek s := by
  rw [h.find?_of_edits (h.edits_add hv) hs, Form.list_put hwell, h.find? s hs]
  by_cases hkey : v.key = key
  · subst hkey
    rw [hwell.key_isBlank, if_pos rfl, KeyedList.find?_put_self]
    rfl
  · rw [if_neg hkey, KeyedList.find?_put_of_ne Attribute.key v _ hkey]

theorem mapLaws (h : c.Shelves index form place I) (hs : I s) : c.MapLaws s := by
  have hindex := h.index_eq s hs
  have hlens := h.lens
  constructor
  case add_done =>
    intro v hv
    exact (h.edits_add (hindex ▸ hv)).done s hs
  case find?_add =>
    intro v hwell hv key
    exact h.find?_of_add hs hwell (hindex ▸ hv) key
  case add_add =>
    intro v w hv hw hkey
    have hboth := (h.edits_add (hindex ▸ hv)).bind hlens (h.edits_add (hindex ▸ hw))
    exact hboth.sameAt (h.edits_add (hindex ▸ hw)) hs (Form.put_put hkey _)
  case add_twice =>
    intro v hv
    have hadd := h.edits_add (hindex ▸ hv)
    exact (hadd.bind hlens hadd).sameAt hadd hs (Form.put_put rfl _)
  case add_comm =>
    intro v w hwellv hwellw hv hw hne
    have haddv := h.edits_add (hindex ▸ hv)
    have haddw := h.edits_add (hindex ▸ hw)
    have hfirst := haddv.bind hlens haddw
    have hsecond := haddw.bind hlens haddv
    refine ⟨hfirst.done s hs, hsecond.done s hs, sameLookups_of_find? fun key => ?_⟩
    rw [h.find?_of_edits hfirst hs, h.find?_of_edits hsecond hs, Form.list_put hwellw,
      Form.list_put hwellv, Form.list_put hwellv, Form.list_put hwellw,
      KeyedList.find?_put_comm hne]
  case removeLike =>
    intro v hwell
    exact ⟨hwell.key_isBlank, rfl⟩
  case attributes_remove =>
    intro key hkey
    have hlisted := h.attributes_of_edits (h.edits_remove hkey) hs
    rw [Form.list_erase hkey, ← h.attributes s hs] at hlisted
    exact hlisted
  case remove_twice =>
    intro key hkey
    have hremove := h.edits_remove hkey
    exact (hremove.bind hlens hremove).sameAt hremove hs (KeyedList.erase_erase_self _ _)
  case remove_comm =>
    intro j k hj hk
    have hremovej := h.edits_remove hj
    have hremovek := h.edits_remove hk
    exact (hremovej.bind hlens hremovek).sameAt (hremovek.bind hlens hremovej) hs
      (KeyedList.erase_comm _ _ _)
  case add_remove =>
    intro v hwell hv habsent
    have hboth := (h.edits_add (hindex ▸ hv)).bind hlens (h.edits_remove hwell.key_isBlank)
    rw [h.attributes s hs] at habsent ⊢
    refine ⟨hboth.done s hs, ?_⟩
    rw [h.attributes_of_edits hboth hs, Form.list_erase hwell.key_isBlank, Form.list_put hwell,
      KeyedList.erase_put_of_absent habsent]
  case add_remove_comm =>
    intro v key hv hkey hne
    have hadd := h.edits_add (hindex ▸ hv)
    have hremove := h.edits_remove hkey
    exact (hadd.bind hlens hremove).sameAt (hremove.bind hlens hadd) hs
      (Form.erase_put_of_ne hne _)

end Shelves

end Collection

namespace CollectionRef

open Workspace

/-- After any run, an owned collection, and an index of an entity that is there, is
an ordered map of attributes. -/
theorem mapLaws_of_run (contexts : Nat) (parameterCounts : List (Option UInt32))
    (activities : List Activity) {r : CollectionRef}
    (hopen : r.Open (reached contexts parameterCounts activities)) :
    r.collection.MapLaws (reached contexts parameterCounts activities) := by
  obtain ⟨ν, κ, _, form, place, I, hshelves, hs⟩ :=
    shelved_of_run contexts parameterCounts activities hopen
  exact hshelves.mapLaws hs

/-- A flag of the function comes and goes without a trace, and a name can be removed
before or after another one is added. -/
theorem mapLaws_of_run_namedFunction :
    namedView.Open (reached 1 [] namedFunction) ∧
      namedView.collection.attributes.peek ((do
          namedView.collection.add (.known .noReturn none)
          namedView.collection.remove (.kind .noReturn) :
            Action Workspace Unit).run.run (reached 1 [] namedFunction)).state =
        [.known .stackAlignment (some 8), .named "a" "1"] ∧
      Action.SameAt (reached 1 [] namedFunction)
        (do
          namedView.collection.add (.named "b" "")
          namedView.collection.remove (.name "a"))
        (do
          namedView.collection.remove (.name "a")
          namedView.collection.add (.named "b" "")) := by
  have hlaws := mapLaws_of_run 1 [] namedFunction open_namedView
  refine ⟨open_namedView, ?_, ?_⟩
  · exact (hlaws.add_remove (.known .noReturn none) (by decide) (by decide) (by decide)).2
  · exact hlaws.add_remove_comm (.named "b" "") (.name "a") (by decide) (by decide) (by decide)

end CollectionRef

end IRAttributes
