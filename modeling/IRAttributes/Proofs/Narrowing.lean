import IRAttributes.Proofs.Activity

/-!
The attributes of an argument. They are those of its function at one index. At
that index the argument is the function: whatever is asked of it, or copied to
or from it, comes out the same and leaves the same behind, and so a whole run
may go through one or the other. At any other index it is nothing: each request
reaches for the collection at its index before it does anything else, so it is
refused before the store is read or changed. A set can be applied to an argument
only if it was accessed nowhere else.
-/
namespace IRAttributes

variable {σ α β : Type}

/-- Nothing is done after a failure. -/
theorem Action.throw_bind (e : Error) (f : α → Action σ β) :
    (throw e : Action σ α) >>= f = throw e := rfl

namespace AttributeSet

variable {index only : Index}

/-- What is done with a set begins with reaching for an index, and goes on with
the collection there, whatever set it comes from. -/
def Reaches (index : Index) (m : AttributeSet σ → Action σ α) : Prop :=
  ∃ f : Collection σ → Action σ α, ∀ S : AttributeSet σ, m S = S.collectionAt index >>= f

/-- What is done with a set does not notice if no index but one can be addressed. -/
def StaysAt (only : Index) (m : AttributeSet σ → α) : Prop :=
  ∀ S : AttributeSet σ, m (S.restrict only) = m S

variable {m : AttributeSet σ → Action σ α}

theorem Reaches.map (h : Reaches index m) (f : α → β) :
    Reaches index fun S => do return f (← m S) := by
  obtain ⟨g, hg⟩ := h
  refine ⟨fun c => do return f (← g c), ?_⟩
  intro S
  simp only [hg, bind_assoc]

theorem Reaches.staysAt (h : Reaches only m) : StaysAt only m := by
  obtain ⟨f, hf⟩ := h
  intro S
  have hown : (S.restrict only).collectionAt only = S.collectionAt only := if_pos rfl
  rw [hf, hf, hown]

theorem Reaches.restrict_of_ne (h : Reaches index m) (hne : index ≠ only) (S : AttributeSet σ) :
    m (S.restrict only) = throw (.indexMismatch only index) := by
  obtain ⟨f, hf⟩ := h
  have hother : (S.restrict only).collectionAt index = throw (.indexMismatch only index) :=
    if_neg hne
  rw [hf, hother, Action.throw_bind]

theorem reaches_collectionAt (index : Index) :
    Reaches (σ := σ) index fun S => S.collectionAt index :=
  ⟨pure, fun _ => (bind_pure _).symm⟩

theorem reaches_addAll (index : Index) (vs : List Attribute) :
    Reaches (σ := σ) index fun S => S.addAll index vs :=
  ⟨fun c => c.addAll vs, fun _ => rfl⟩

theorem staysAt_addCollection (only : Index) (source : Collection σ) :
    StaysAt only fun S => S.addCollection only source := by
  intro S
  simp only [addCollection, (reaches_addAll only _).staysAt S]

/-- A set may be copied from as well as to. -/
theorem staysAt_addFrom (target : AttributeSet σ) (only : Index) :
    StaysAt only fun S => target.addFrom only S := by
  intro S
  simp only [addFrom, (reaches_collectionAt only).staysAt S]

theorem staysAt_target_addFrom (source : AttributeSet σ) (only : Index) :
    StaysAt only fun S => S.addFrom only source := by
  intro S
  simp only [addFrom, staysAt_addCollection only _ S]

end AttributeSet
namespace SetRequest

/-- The index that a request reaches for before anything else. Who asks for a
parameter by its position looks at the number of parameters first. -/
def reaches? : SetRequest → Option Index
  | .parameterSummary _ => none
  | request => request.index?

theorem reaches_run {request : SetRequest} {index : Index} (h : request.reaches? = some index) :
    AttributeSet.Reaches (σ := σ) index fun S => request.run S := by
  cases request with
  | parameterSummary | parameterCount => cases h
  | summary =>
    cases h
    exact .map ⟨fun c => c.summary, fun _ => rfl⟩ _
  | addKind _ kind =>
    cases h
    exact .map ⟨fun c => c.addKind kind, fun _ => rfl⟩ _
  | addKinds _ kinds =>
    cases h
    exact .map ⟨fun c => c.addKinds kinds, fun _ => rfl⟩ _
  | addPayload _ kind n =>
    cases h
    exact .map ⟨fun c => c.addPayload kind n, fun _ => rfl⟩ _
  | add _ v =>
    cases h
    exact .map ⟨fun c => c.add v, fun _ => rfl⟩ _
  | addAll _ vs =>
    cases h
    exact .map (AttributeSet.reaches_addAll _ vs) _
  | remove _ key =>
    cases h
    exact .map ⟨fun c => c.remove key, fun _ => rfl⟩ _
  | has _ key =>
    cases h
    exact .map ⟨fun c => c.has key, fun _ => rfl⟩ _
  | hasAny =>
    cases h
    exact .map ⟨fun c => do return !(← c.isEmpty), fun _ => rfl⟩ _
  | text =>
    cases h
    exact .map ⟨fun c => c.text, fun _ => rfl⟩ _
  | payload _ kind =>
    cases h
    exact .map ⟨_, fun _ => rfl⟩ _

theorem reaches?_cases {request : SetRequest} {index : Index} (h : request.index? = some index) :
    request.reaches? = some index ∨
      ∃ position, request = .parameterSummary position ∧ index = .parameter position := by
  cases request with
  | parameterSummary position =>
    cases h
    exact Or.inr ⟨position, rfl, rfl⟩
  | parameterCount => cases h
  | summary | addKind | addKinds | addPayload | add | addAll | remove | has | hasAny | text
  | payload => exact Or.inl h

theorem staysAt_run {request : SetRequest} {index : Index} (h : request.index? = some index) :
    AttributeSet.StaysAt (σ := σ) index fun S => request.run S := by
  rcases reaches?_cases h with hreaches | ⟨position, rfl, rfl⟩
  · exact (reaches_run hreaches).staysAt
  · -- the number of parameters is the same for the restricted set
    intro S
    have hcollection : (S.restrict (.parameter position)).parameterCollection position =
        S.parameterCollection position := by
      simp only [AttributeSet.parameterCollection,
        (AttributeSet.reaches_collectionAt (.parameter position)).staysAt S]
      rfl
    simp only [run, AttributeSet.parameterSummary, hcollection]

end SetRequest

namespace OwnedSet

variable {S : AttributeSet σ} {only : Index} {s : OwnedSet}

theorem applyTo_cons (T : AttributeSet σ) (c : OwnedCollection) (rest : List OwnedCollection) :
    (OwnedSet.mk (c :: rest)).applyTo T =
      T.addAll c.index c.attributes >>= fun _ => (OwnedSet.mk rest).applyTo T := rfl

theorem staysAt_applyTo (hs : ∀ c ∈ s.collections, c.index = only) :
    AttributeSet.StaysAt (σ := σ) only fun S => s.applyTo S := by
  obtain ⟨collections⟩ := s
  intro S
  induction collections with
  | nil => rfl
  | cons c rest ih =>
    obtain ⟨rfl, hrest⟩ := List.forall_mem_cons.mp hs
    simp only [applyTo_cons, (AttributeSet.reaches_addAll c.index _).staysAt S, ih hrest]

/-- Every collection of a set is copied in turn, also an empty one, so nothing but
the one index may have been accessed. -/
theorem index_of_applyTo_restrict {t : σ}
    (h : ((s.applyTo (S.restrict only)).run.run t).answer = .ok ()) :
    ∀ c ∈ s.collections, c.index = only := by
  obtain ⟨collections⟩ := s
  induction collections generalizing t with
  | nil => exact fun c hc => absurd hc List.not_mem_nil
  | cons c rest ih =>
    rw [applyTo_cons] at h
    by_cases hindex : c.index = only
    · obtain ⟨-, t', hrest⟩ := Action.ok_of_bind h
      exact List.forall_mem_cons.mpr ⟨hindex, ih hrest⟩
    · rw [(AttributeSet.reaches_addAll c.index _).restrict_of_ne hindex] at h
      cases h

end OwnedSet

namespace AttributeSet

/-- One set is another one at a single index: there it grants the same collection
and does the same, and any other index is refused with nothing done at all. -/
structure Narrows (T S : AttributeSet σ) (only : Index) : Prop where
  collectionAt : T.collectionAt only = S.collectionAt only
  run : ∀ request : SetRequest, request.index? = some only → request.run T = request.run S
  addCollection : ∀ source, T.addCollection only source = S.addCollection only source
  addFrom : ∀ source, T.addFrom only source = S.addFrom only source
  addFrom_source : ∀ target : AttributeSet σ, target.addFrom only T = target.addFrom only S
  applyTo : ∀ s : OwnedSet, (∀ c ∈ s.collections, c.index = only) → s.applyTo T = s.applyTo S
  collectionAt_refused : ∀ index, index ≠ only → ∀ s,
    (T.collectionAt index).run.run s = ⟨.error (.indexMismatch only index), s, []⟩
  run_refused : ∀ (request : SetRequest) index, request.reaches? = some index → index ≠ only →
    ∀ s, (request.run T).run.run s = ⟨.error (.indexMismatch only index), s, []⟩
  index_of_applyTo : ∀ (s : OwnedSet) t, ((s.applyTo T).run.run t).answer = .ok () →
    ∀ c ∈ s.collections, c.index = only

theorem narrows_restrict (S : AttributeSet σ) (only : Index) :
    (S.restrict only).Narrows S only where
  collectionAt := (reaches_collectionAt only).staysAt S
  run _ h := SetRequest.staysAt_run h S
  addCollection source := staysAt_addCollection only source S
  addFrom source := staysAt_target_addFrom source only S
  addFrom_source target := staysAt_addFrom target only S
  applyTo _ h := OwnedSet.staysAt_applyTo h S
  collectionAt_refused index hne s :=
    congrArg (fun x => x.run.run s) ((reaches_collectionAt index).restrict_of_ne hne S)
  run_refused _ _ h hne s :=
    congrArg (fun x => x.run.run s) ((SetRequest.reaches_run h).restrict_of_ne hne S)
  index_of_applyTo _ _ h := OwnedSet.index_of_applyTo_restrict h

end AttributeSet

namespace SetRef

variable {a : Argument} {index : Index}

/-- The set of an argument instead of that of its function, at the argument's index. -/
def through (a : Argument) (index : Index) : SetRef → SetRef
  | .function f => if f = a.function ∧ index = a.index then .argument a else .function f
  | r => r

theorem through_cases (a : Argument) (index : Index) (r : SetRef) :
    r.through a index = r ∨
      (r = .function a.function ∧ index = a.index ∧ r.through a index = .argument a) := by
  cases r with
  | function f =>
    by_cases hown : f = a.function ∧ index = a.index
    · exact Or.inr ⟨congrArg function hown.1, hown.2, if_pos hown⟩
    · exact Or.inl (if_neg hown)
  | call | invoke | argument | entity | recorded | owned => exact Or.inl rfl

theorem through_eq {m : AttributeSet Workspace → α} (hm : AttributeSet.StaysAt index m)
    (r : SetRef) : m (r.through a index).attributes = m r.attributes := by
  rcases r.through_cases a index with hsame | ⟨rfl, rfl, hthrough⟩
  · rw [hsame]
  · rw [hthrough]
    exact hm a.function.attributes

theorem place_through (r : SetRef) : (r.through a index).place index = r.place index := by
  rcases r.through_cases a index with hsame | ⟨rfl, rfl, hthrough⟩
  · rw [hsame]
  · rw [hthrough]
    rfl

end SetRef

namespace Activity

/-- The same activity, going through an argument wherever it can. -/
def through (a : Argument) : Activity → Activity
  | .reach r index => .reach (r.through a index) index
  | .onSet r request =>
      match request.index? with
      | some index => .onSet (r.through a index) request
      | none => .onSet r request
  | .addCollection target index source => .addCollection (target.through a index) index source
  | .addFrom target index source =>
      .addFrom (target.through a index) index (source.through a index)
  | activity => activity

theorem run_through (a : Argument) (activity : Activity) :
    (activity.through a).run = activity.run := by
  cases activity with
  | reach r index =>
    have hat := SetRef.through_eq (a := a) (AttributeSet.reaches_collectionAt index).staysAt r
    simp only [through, run, SetRef.collectionAt, hat, SetRef.place_through]
  | onSet r request =>
    cases hindex : request.index? with
    | none => simp only [through, hindex]
    | some index =>
      have hrun := SetRef.through_eq (a := a) (SetRequest.staysAt_run hindex) r
      simp only [through, hindex, run, hrun]
  | addCollection target index source =>
    have hadd := SetRef.through_eq (a := a)
      (AttributeSet.staysAt_addCollection index source.collection) target
    simp only [through, run, hadd]
  | addFrom target index source =>
    have hto := SetRef.through_eq (a := a)
      (AttributeSet.staysAt_target_addFrom (source.through a index).attributes index) target
    have hfrom := SetRef.through_eq (a := a)
      (AttributeSet.staysAt_addFrom target.attributes index) source
    simp only [through, run, hto, hfrom]
  | addFunction | buildCall | buildInvoke | removeEntity | newSet | copySet | newCollection
  | copyCollection | copyAt | onStore | onRecorder | onCollection | setAlignment | merge
  | apply => rfl

end Activity

namespace Workspace

theorem perform_through (a : Argument) (activity : Activity) (w : Workspace) :
    w.perform (activity.through a) = w.perform activity := by
  rw [perform, activity.run_through, perform]

theorem after_through (a : Argument) (activities : List Activity) (w : Workspace) :
    w.after (activities.map (·.through a)) = w.after activities := by
  induction activities generalizing w with
  | nil => rfl
  | cons activity rest ih => rw [List.map_cons, after, after, perform_through, ih]

end Workspace

/-- An argument is its function at the one index, whether the function is there
or not: a run leads to the same workspace, with the same answers, if it goes
through the argument wherever it can. Any other index is refused with nothing
done, and a store that notes every request it gets has noted none of it. -/
theorem Argument.narrows_function (a : Argument) :
    a.attributes.Narrows a.function.attributes a.index ∧
      (∀ (w : Workspace) (activity : Activity),
        w.perform (activity.through a) = w.perform activity) ∧
      (∀ (w : Workspace) (activities : List Activity),
        w.after (activities.map (·.through a)) = w.after activities) ∧
      ∀ {σ : Type} (store : Store σ Handle),
        ((Holder.argument a.function.handle a.position).attributes store.recorded).Narrows
          (store.recorded.attributeSet a.function.handle) a.index := by
  refine ⟨?_, ?_, ?_, ?_⟩
  · exact AttributeSet.narrows_restrict a.function.attributes a.index
  · exact fun w activity => w.perform_through a activity
  · exact fun w activities => w.after_through a activities
  · exact fun store => AttributeSet.narrows_restrict _ a.index

end IRAttributes
