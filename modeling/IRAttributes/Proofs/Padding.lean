import IRAttributes.Proofs.Applying

/-!
Owned sets with empty collections put in between. Applying a set goes through
its empty collections too: it reaches for their index and puts nothing there.
A padded set therefore does what the set does as long as every new index is
granted. If one is refused, the padded set ends there, unless the set has
already ended before.
-/
namespace IRAttributes

/-- Collections with empty ones put in between, and the indices of the empty ones. -/
inductive Padded : List Index → List OwnedCollection → List OwnedCollection → Prop
  | nil : Padded [] [] []
  | keep {new : List Index} {collections padded : List OwnedCollection} (d : OwnedCollection) :
      Padded new collections padded → Padded new (d :: collections) (d :: padded)
  | pad {new : List Index} {collections padded : List OwnedCollection} (index : Index) :
      Padded new collections padded → Padded (index :: new) collections (.empty index :: padded)

namespace Padded

variable {new : List Index} {collections padded : List OwnedCollection} {index : Index}

theorem refl (collections : List OwnedCollection) : Padded [] collections collections := by
  induction collections with
  | nil => exact nil
  | cons d rest ih => exact ih.keep d

theorem mem_padded (h : Padded new collections padded) {d : OwnedCollection}
    (hd : d ∈ collections) : d ∈ padded := by
  induction h with
  | nil => exact hd
  | keep d' _ ih =>
    rcases List.mem_cons.mp hd with rfl | hd
    · exact List.mem_cons_self
    · exact List.mem_cons_of_mem d' (ih hd)
  | pad index _ ih => exact List.mem_cons_of_mem _ (ih hd)

/-- Filing an empty collection where there is none is one more padding. -/
theorem insert_empty (h : Padded new collections padded)
    (hindex : ∀ d ∈ padded, d.index ≠ index) :
    ∃ new', Padded new' collections (OwnedSet.insert (.empty index) padded) := by
  induction h with
  | nil => exact ⟨[index], nil.pad index⟩
  | @keep new collections padded d h ih =>
    obtain ⟨hd, hrest⟩ := List.forall_mem_cons.mp hindex
    obtain ⟨new', hnew⟩ := ih hrest
    have hne : ¬ d.index = (OwnedCollection.empty index).index := hd
    rw [OwnedSet.insert, if_neg hne]
    split
    · exact ⟨_, (h.keep d).pad index⟩
    · exact ⟨_, hnew.keep d⟩
  | @pad new collections padded index' h ih =>
    obtain ⟨hd, hrest⟩ := List.forall_mem_cons.mp hindex
    obtain ⟨new', hnew⟩ := ih hrest
    have hne : ¬ (OwnedCollection.empty index').index = (OwnedCollection.empty index).index := hd
    rw [OwnedSet.insert, if_neg hne]
    split
    · exact ⟨_, (h.pad index').pad index⟩
    · exact ⟨_, hnew.pad index'⟩

/-- The new indices are those of the padded collections that there were none for. -/
theorem mem_new_iff (h : Padded new collections padded) (hascending : OwnedSet.Ascending padded) :
    index ∈ new ↔ (∃ d ∈ padded, d.index = index) ∧ ∀ d ∈ collections, d.index ≠ index := by
  induction h with
  | nil => simp
  | @keep new collections padded d h ih =>
    obtain ⟨hfirst, hrest⟩ := List.pairwise_cons.mp hascending
    rw [ih hrest]
    constructor
    · rintro ⟨⟨d', hd', rfl⟩, hnone⟩
      refine ⟨⟨d', List.mem_cons_of_mem d hd', rfl⟩, ?_⟩
      exact List.forall_mem_cons.mpr ⟨Index.ne_of_lt (hfirst d' hd'), hnone⟩
    · rintro ⟨⟨d', hd', rfl⟩, hnone⟩
      obtain ⟨hd, hnone⟩ := List.forall_mem_cons.mp hnone
      rcases List.mem_cons.mp hd' with rfl | hd'
      · exact absurd rfl hd
      · exact ⟨⟨d', hd', rfl⟩, hnone⟩
  | @pad new collections padded index' h ih =>
    obtain ⟨hfirst, hrest⟩ := List.pairwise_cons.mp hascending
    rw [List.mem_cons, ih hrest]
    constructor
    · rintro (rfl | ⟨⟨d', hd', rfl⟩, hnone⟩)
      · refine ⟨⟨.empty index, List.mem_cons_self, rfl⟩, ?_⟩
        intro d hd
        exact (Index.ne_of_lt (hfirst d (h.mem_padded hd))).symm
      · exact ⟨⟨d', List.mem_cons_of_mem _ hd', rfl⟩, hnone⟩
    · rintro ⟨⟨d', hd', rfl⟩, hnone⟩
      rcases List.mem_cons.mp hd' with rfl | hd'
      · exact Or.inl rfl
      · exact Or.inr ⟨⟨d', hd', rfl⟩, hnone⟩

/-- A padding splits at each of its new indices. -/
theorem split (h : Padded new collections padded) (hindex : index ∈ new) :
    ∃ new' before after before' after', collections = before ++ after ∧
      padded = before' ++ .empty index :: after' ∧ Padded new' before before' ∧
      (∀ index' ∈ new', index' ∈ new) ∧ ∀ d ∈ after, d ∈ after' := by
  induction h with
  | nil => cases hindex
  | @keep new collections padded d h ih =>
    obtain ⟨new', before, after, before', after', rfl, rfl, hbefore, hnew, hafter⟩ := ih hindex
    exact ⟨new', d :: before, after, d :: before', after', rfl, rfl, hbefore.keep d, hnew, hafter⟩
  | @pad new collections padded index' h ih =>
    rcases List.mem_cons.mp hindex with rfl | hindex
    · have hnone : ∀ index' ∈ ([] : List Index), index' ∈ index :: new :=
        fun _ hnil => absurd hnil List.not_mem_nil
      exact ⟨[], [], collections, [], padded, rfl, rfl, nil, hnone, fun d hd => h.mem_padded hd⟩
    · obtain ⟨new', before, after, before', after', rfl, rfl, hbefore, hnew, hafter⟩ := ih hindex
      refine ⟨index' :: new', before, after, .empty index' :: before', after', rfl, rfl,
        hbefore.pad index', ?_, hafter⟩
      intro j hj
      rcases List.mem_cons.mp hj with rfl | hj
      · exact List.mem_cons_self
      · exact List.mem_cons_of_mem index' (hnew j hj)

end Padded

namespace Context

variable {c c' : Context} {h : Handle} {index : Index} {v : Attribute}

/-- Putting an attribute changes no number of parameters. -/
theorem parameterCount_of_put (hput : c.put h index v = .ok c') (h' : Handle) :
    c'.parameterCount h' = c.parameterCount h' := by
  cases moves_put hput with
  | put _ _ _ hindex hlive => exact parameterCount_update (·.role_putAt index v) c h h'

/-- All entities have as many parameters as in some context. -/
def CountsLike (c c' : Context) : Prop := ∀ h, c'.parameterCount h = c.parameterCount h

/-- The error with which a holder refuses access to an index, if it does. -/
def refusal? (c : Context) (target : Holder) (index : Index) : Option Error :=
  match (((target.attributes store).collectionAt index).run.run c).answer with
  | .ok _ => none
  | .error e => some e

/-- What comes of access to an index depends on the number of parameters alone. -/
theorem CountsLike.collectionAt (hcounts : c.CountsLike c') (target : Holder) (index : Index) :
    (((target.attributes store).collectionAt index).run.run c').answer =
      (((target.attributes store).collectionAt index).run.run c).answer := by
  rw [run_collectionAt, run_collectionAt, hcounts target.handle]

theorem CountsLike.refusal? (hcounts : c.CountsLike c') (target : Holder) (index : Index) :
    c'.refusal? target index = c.refusal? target index := by
  rw [Context.refusal?, hcounts.collectionAt, Context.refusal?]

/-- Whatever is added through a holder, the numbers of parameters stay. -/
private theorem related_addAll (c : Context) (target : Holder) (index : Index)
    (vs : List Attribute) :
    Action.Related (Diagonal c.CountsLike) Eq ((target.attributes store).addAll index vs)
      ((target.attributes store).addAll index vs) := by
  have hcount : Action.Related (Diagonal c.CountsLike) Eq (store.parameterCount target.handle)
      (store.parameterCount target.handle) :=
    Step.Related.look (fun _ => rfl) fun _ _ => Action.agree_self _
  have hadd : ∀ v, Action.Related (Diagonal c.CountsLike) Eq
      (View.add store ⟨target.handle, index⟩ v) (View.add store ⟨target.handle, index⟩ v) := by
    intro v
    refine Step.Related.diagonal ?_
    intro c' hcounts
    refine ⟨Action.agree_self _, ?_⟩
    rcases view_add_cases c' target.handle index v with
      ⟨e, -, hstate⟩ | ⟨count, c'', -, -, hput, -, hstate⟩
    · exact hstate.symm ▸ hcounts
    · intro h
      rw [hstate, parameterCount_of_put hput, hcounts h]
  have hview : Action.Related (Diagonal c.CountsLike)
      (fun d d' : Collection Context => ∀ v, Action.Related (Diagonal c.CountsLike) Eq
        (d.add v) (d'.add v))
      ((target.attributes store).collectionAt index)
      ((target.attributes store).collectionAt index) := target.related_collectionAt hcount hadd
  exact Action.Related.bind hview fun d d' h => Action.Related.forM vs fun v _ => h v

theorem countsLike_addAll (c : Context) (target : Holder) (index : Index) (vs : List Attribute) :
    c.CountsLike (((target.attributes store).addAll index vs).run.run c).state :=
  Step.Related.kept (c.related_addAll target index vs) fun _ => rfl

theorem countsLike_apply (c : Context) (s : OwnedSet) (target : Holder) :
    c.CountsLike (c.apply s target).state := by
  have happly : Action.Related (Diagonal c.CountsLike) Eq (s.applyTo (target.attributes store))
      (s.applyTo (target.attributes store)) :=
    Action.Related.forM _ fun d _ => c.related_addAll target d.index d.attributes
  exact Step.Related.kept happly fun _ => rfl

/-- Adding nothing is only access to the index. -/
theorem addAll_nil (c : Context) (target : Holder) (index : Index) :
    (((target.attributes store).addAll index []).run.run c).answer =
        (match c.refusal? target index with
          | none => .ok ()
          | some e => .error e) ∧
      (((target.attributes store).addAll index []).run.run c).state = c := by
  have hsame := c.state_collectionAt target index
  unfold refusal?
  cases hreached : (((target.attributes store).collectionAt index).run.run c).answer with
  | error e =>
    obtain ⟨hanswer, hstate⟩ := Action.bind_of_error (fun d => d.addAll []) hreached
    exact ⟨hanswer, hstate.trans hsame⟩
  | ok d =>
    obtain ⟨hanswer, hstate⟩ := Action.bind_of_ok (fun d => d.addAll []) hreached
    exact ⟨hanswer, hstate.trans hsame⟩

/-- If all new indices are granted, applying a padded set is applying the set. -/
theorem apply_padded {new : List Index} {collections padded : List OwnedCollection}
    (hp : Padded new collections padded) (c : Context) (target : Holder)
    (hgranted : ∀ index ∈ new, c.refusal? target index = none) :
    (c.apply ⟨padded⟩ target).answer = (c.apply ⟨collections⟩ target).answer ∧
      (c.apply ⟨padded⟩ target).state = (c.apply ⟨collections⟩ target).state := by
  induction hp generalizing c with
  | nil => exact ⟨rfl, rfl⟩
  | @keep new collections padded d hp ih =>
    cases hadded : (((target.attributes store).addAll d.index d.attributes).run.run c).answer with
    | error e =>
      obtain ⟨hanswer, hstate⟩ := c.apply_cons_of_error target padded hadded
      obtain ⟨hanswer', hstate'⟩ := c.apply_cons_of_error target collections hadded
      exact ⟨hanswer.trans hanswer'.symm, hstate.trans hstate'.symm⟩
    | ok u =>
      obtain ⟨hanswer, hstate⟩ := c.apply_cons_of_ok target padded hadded
      obtain ⟨hanswer', hstate'⟩ := c.apply_cons_of_ok target collections hadded
      rw [hanswer, hstate, hanswer', hstate']
      refine ih _ ?_
      intro index hindex
      rw [(c.countsLike_addAll target d.index d.attributes).refusal?]
      exact hgranted index hindex
  | @pad new collections padded index hp ih =>
    obtain ⟨hgranted, hrest⟩ := List.forall_mem_cons.mp hgranted
    obtain ⟨hadded, hsame⟩ := c.addAll_nil target index
    rw [hgranted] at hadded
    have hafter : (((target.attributes store).addAll (OwnedCollection.empty index).index
        (OwnedCollection.empty index).attributes).run.run c).state = c := hsame
    obtain ⟨hanswer, hstate⟩ := c.apply_cons_of_ok target (d := .empty index) padded hadded
    rw [hafter] at hanswer hstate
    rw [hanswer, hstate]
    exact ih c hrest

section

variable {before : List OwnedCollection} {target : Holder}

private theorem applyTo_append (before after : List OwnedCollection) (target : Holder) :
    (OwnedSet.mk (before ++ after)).applyTo (target.attributes store) =
      (OwnedSet.mk before).applyTo (target.attributes store) >>= fun _ =>
        (OwnedSet.mk after).applyTo (target.attributes store) :=
  List.forM_append

theorem apply_append_of_error {e : Error} (h : (c.apply ⟨before⟩ target).answer = .error e)
    (after : List OwnedCollection) :
    (c.apply ⟨before ++ after⟩ target).answer = .error e ∧
      (c.apply ⟨before ++ after⟩ target).state = (c.apply ⟨before⟩ target).state := by
  rw [apply, applyTo_append]
  exact Action.bind_of_error _ h

theorem apply_append_of_ok (h : (c.apply ⟨before⟩ target).answer = .ok ())
    (after : List OwnedCollection) :
    (c.apply ⟨before ++ after⟩ target).answer =
        ((c.apply ⟨before⟩ target).state.apply ⟨after⟩ target).answer ∧
      (c.apply ⟨before ++ after⟩ target).state =
        ((c.apply ⟨before⟩ target).state.apply ⟨after⟩ target).state := by
  rw [apply, applyTo_append]
  exact Action.bind_of_ok _ h

/-- At a new index that is refused a padded set ends, unless the set has ended before. -/
theorem apply_padded_of_refused {new : List Index} {padded : List OwnedCollection} {error : Error}
    (hp : Padded new before padded) (hgranted : ∀ index ∈ new, c.refusal? target index = none)
    (hrefused : c.refusal? target index = some error) (after after' : List OwnedCollection) :
    (∀ e, (c.apply ⟨before⟩ target).answer = .error e →
      (c.apply ⟨padded ++ .empty index :: after'⟩ target).answer =
          (c.apply ⟨before ++ after⟩ target).answer ∧
        (c.apply ⟨padded ++ .empty index :: after'⟩ target).state =
          (c.apply ⟨before ++ after⟩ target).state) ∧
      ((c.apply ⟨before⟩ target).answer = .ok () →
        (c.apply ⟨padded ++ .empty index :: after'⟩ target).answer = .error error ∧
          (c.apply ⟨padded ++ .empty index :: after'⟩ target).state =
            (c.apply ⟨before⟩ target).state) := by
  obtain ⟨hanswer, hstate⟩ := apply_padded hp c target hgranted
  refine ⟨?_, ?_⟩
  · intro e he
    obtain ⟨hbefore, hsame⟩ := apply_append_of_error he after
    obtain ⟨hpadded, hsame'⟩ :=
      apply_append_of_error (hanswer.trans he) (.empty index :: after')
    exact ⟨hpadded.trans hbefore.symm, hsame'.trans (hstate.trans hsame.symm)⟩
  · intro hok
    obtain ⟨hpadded, hsame⟩ := apply_append_of_ok (hanswer.trans hok) (.empty index :: after')
    rw [hstate] at hpadded hsame
    obtain ⟨hadded, hkept⟩ := (c.apply ⟨before⟩ target).state.addAll_nil target index
    rw [(c.countsLike_apply ⟨before⟩ target).refusal?, hrefused] at hadded
    obtain ⟨hends, hlast⟩ :=
      (c.apply ⟨before⟩ target).state.apply_cons_of_error target (d := .empty index) after' hadded
    exact ⟨hpadded.trans hends, hsame.trans (hlast.trans hkept)⟩

end

end Context

namespace OwnedSet

variable {s t : OwnedSet} {index : Index}

/-- The same attributes at every index, whichever indices were accessed. -/
def Alike (s t : OwnedSet) : Prop := ∀ index, s.getOrEmpty index = t.getOrEmpty index

theorem Alike.put (h : s.Alike t) (d : OwnedCollection) : (s.put d).Alike (t.put d) := by
  intro index
  rw [getOrEmpty_put, getOrEmpty_put, h index]

theorem Alike.access (h : s.Alike t) (index : Index) : s.Alike (t.access index) := by
  intro index'
  rw [getOrEmpty_access, h index']

theorem Alike.related_within {α : Type} (x : Step OwnedCollection α) :
    Step.Related Alike Eq (x.within (component index)) (x.within (component index)) := by
  intro s t h
  have hsame : (component index).get s = (component index).get t := h index
  rw [Step.run_within, Step.run_within, hsame]
  exact ⟨rfl, h.put _⟩

theorem Alike.writes (index : Index) :
    attributeSet.Writes Alike (fun _ => True) attributeSet index := by
  intro s t h
  refine ⟨?_, fun index' => ?_⟩
  · refine ⟨?_, ?_, fun key => Alike.related_within _⟩
    · intro s t h
      exact congrArg OwnedCollection.index (h index)
    · intro v _
      exact (Alike.related_within (OwnedCollection.add v).run).mono fun _ _ =>
        Action.agree_eq_iff.mpr
  · exact (s.getOrEmpty_access index index').trans
      ((h index').trans (t.getOrEmpty_access index index').symm)

/-- On an owned set a padding makes no difference but for empty collections. -/
theorem applyTo_padded {new : List Index} {collections padded : List OwnedCollection}
    (hp : Padded new collections padded) :
    Action.Related Alike Eq ((OwnedSet.mk collections).applyTo attributeSet)
      ((OwnedSet.mk padded).applyTo attributeSet) := by
  induction hp with
  | nil => exact Action.Related.pure rfl
  | @keep new collections padded d hp ih =>
    exact Action.Related.bind ((Alike.writes d.index).addAll fun _ _ => trivial) fun _ _ _ => ih
  | @pad new collections padded index hp ih =>
    intro s t h
    exact ih s (t.access index) (h.access index)

end OwnedSet

end IRAttributes
