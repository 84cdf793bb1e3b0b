import IRAttributes.Proofs.Stock

/-!
A part in focus. Where a whole really has a part, what is put in the place of
the part is found there again. What is asked of such a part is answered in the
whole as by the part alone, and the whole becomes what it was with the changed
part in its place, so nothing outside of the part can have changed.
-/
namespace IRAttributes

variable {σ τ α H : Type}

namespace Component

/-- A whole that has the part. -/
structure Fits (component : Component τ σ) (t : τ) : Prop where
  get_put : ∀ s, component.get (component.put s t) = s
  put_put : ∀ s s', component.put s' (component.put s t) = component.put s' t
  put_get : component.put (component.get t) t = t

/-- A whole that is another one but for the part, and the part. -/
def Focus (component : Component τ σ) (t t' : τ) (s : σ) : Prop := t' = component.put s t

namespace Fits

variable {component : Component τ σ} {t : τ}

theorem related_within (h : component.Fits t) {Q : α → α → Prop} (hQ : ∀ a, Q a a)
    (x : Step σ α) : Step.Related (component.Focus t) Q (x.within component) x := by
  rintro _ s rfl
  rw [Step.run_within, h.get_put, h.put_put]
  exact ⟨hQ _, rfl⟩

theorem store_writes (h : component.Fits t) (S : Store σ H) (entity : H) (index : Index) :
    (S.within component).Writes (component.Focus t) (fun _ => True) S entity index where
  parameterCount := h.related_within Action.agree_self _
  add _ _ := h.related_within Action.agree_self _
  remove _ := h.related_within (fun _ => rfl) _

/-- What is added through a view in the whole is added through the view of the part. -/
theorem run_view_add (h : component.Fits t) (S : Store σ H) (view : View H) (v : Attribute) :
    ((view.add (S.within component) v).run.run t).answer =
        ((view.add S v).run.run (component.get t)).answer ∧
      ((view.add (S.within component) v).run.run t).state =
        component.put ((view.add S v).run.run (component.get t)).state t := by
  have hadd := (h.store_writes S view.entity view.index).view.add v trivial
  obtain ⟨hagree, hstate⟩ := hadd t (component.get t) h.put_get.symm
  exact ⟨Action.agree_eq_iff.mp hagree, hstate⟩

theorem collection_writes (h : component.Fits t) (c : Collection σ) :
    (c.within component).Writes (component.Focus t) (fun _ => True) c where
  index := by
    rintro _ s rfl
    exact congrArg c.index (h.get_put s)
  add _ _ := h.related_within Action.agree_self _
  remove _ := h.related_within (fun _ => rfl) _

theorem collection_reads (h : component.Fits t) (c : Collection σ) :
    (c.within component).Reads (component.Focus t) (fun _ => True) c where
  index := by
    rintro _ s rfl
    exact congrArg c.index (h.get_put s)
  find? _ := h.related_within (fun _ => rfl) _
  attributes := h.related_within (fun _ => ⟨rfl, fun _ _ => trivial⟩) _
  size := h.related_within (fun _ => rfl) _

/-- The whole gives access to the collections of the part. -/
theorem related_collectionAt (h : component.Fits t) {Q : Collection τ → Collection σ → Prop}
    (hQ : ∀ c, Q (c.within component) c) (S : AttributeSet σ) (index : Index) :
    Action.Related (component.Focus t) Q ((S.within component).collectionAt index)
      (S.collectionAt index) := by
  intro t' s hfocus
  obtain ⟨hsame, hkept⟩ := h.related_within (fun _ => rfl) (S.collectionAt index).run t' s hfocus
  cases hanswer : ((S.collectionAt index).run.run s).answer with
  | error e =>
    obtain ⟨hanswer', hstate⟩ :=
      Action.bind_of_error (fun c => pure (c.within component)) (hsame.trans hanswer)
    exact ⟨hanswer'.symm ▸ rfl, hstate.symm ▸ hkept⟩
  | ok c =>
    obtain ⟨hanswer', hstate⟩ :=
      Action.bind_of_ok (fun c => pure (c.within component)) (hsame.trans hanswer)
    exact ⟨hanswer'.symm ▸ hQ c, hstate.symm ▸ hkept⟩

theorem set_writes (h : component.Fits t) (S : AttributeSet σ) (index : Index) :
    (S.within component).Writes (component.Focus t) (fun _ => True) S index :=
  h.related_collectionAt h.collection_writes S index

theorem holder_writes (h : component.Fits t) (S : Store σ Handle) (holder : Holder)
    (index : Index) :
    (holder.attributes (S.within component)).Writes (component.Focus t) (fun _ => True)
      (holder.attributes S) index :=
  holder.related_collectionAt (h.store_writes S holder.handle index).parameterCount
    (h.store_writes S holder.handle index).view

/-- What is added in the whole is added to the part, and the rest stays as it is. -/
theorem run_addAll (h : component.Fits t) {T : AttributeSet τ} {S : AttributeSet σ} {index : Index}
    (hTS : T.Writes (component.Focus t) (fun _ => True) S index) (vs : List Attribute) :
    ((T.addAll index vs).run.run t).answer =
        ((S.addAll index vs).run.run (component.get t)).answer ∧
      ((T.addAll index vs).run.run t).state =
        component.put ((S.addAll index vs).run.run (component.get t)).state t := by
  have hadded : Action.Related (component.Focus t) Eq (T.addAll index vs) (S.addAll index vs) :=
    hTS.addAll fun _ _ => trivial
  obtain ⟨hagree, hstate⟩ := hadded t (component.get t) h.put_get.symm
  exact ⟨Action.agree_eq_iff.mp hagree, hstate⟩

end Fits

end Component

namespace Workspace

variable {w : Workspace} {k n : Nat}

theorem fits_context (hk : k < w.contexts.length) : (context k).Fits w where
  get_put c := (contextAt_put k c w k).trans (if_pos ⟨rfl, hk⟩)
  put_put c _ := congrArg (fun contexts => { w with contexts := contexts })
    (List.set_set c)
  put_get := put_contextAt k w

theorem fits_ownedSet (hn : n < w.sets.length) : (ownedSet n).Fits w where
  get_put s := (getSet_put n s w n).trans (if_pos ⟨rfl, hn⟩)
  put_put s _ := congrArg (fun sets => { w with sets := sets }) (List.set_set s)
  put_get := congrArg (fun sets => { w with sets := sets }) (set_getD_self w.sets n .empty)

theorem fits_ownedCollection (hn : n < w.collections.length) : (ownedCollection n).Fits w where
  get_put c := (getD_set w.collections n c (.empty .function) n).trans (if_pos ⟨rfl, hn⟩)
  put_put c _ := congrArg (fun collections => { w with collections := collections })
    (List.set_set c)
  put_get := congrArg (fun collections => { w with collections := collections })
    (set_getD_self w.collections n (.empty .function))

end Workspace

end IRAttributes
