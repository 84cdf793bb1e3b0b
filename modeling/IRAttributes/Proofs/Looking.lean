import IRAttributes.Proofs.Padding

/-!
Looking at an owned set. Whatever is read, and whatever is added in vain,
nothing comes of it but empty collections at indices that were accessed for the
first time. When the set is applied afterwards, these are gone through as well,
so a target may refuse an index that was only looked at.
-/
namespace IRAttributes

/-- Something asked of an owned set, or of its collection at an index. -/
inductive Look
  | onSet (request : SetRequest)
  | onCollection (index : Index) (request : CollectionRequest)
  deriving DecidableEq

namespace SetRequest

/-- Whether a request is to add one attribute. -/
def isAddition : SetRequest → Bool
  | .addKind _ _ | .addPayload _ _ _ | .add _ _ => true
  | _ => false

end SetRequest

namespace CollectionRequest

def isAddition : CollectionRequest → Bool
  | .add _ | .addKind _ | .addPayload _ _ | .addNamed _ _ => true
  | _ => false

end CollectionRequest

namespace Look

def run : Look → Action OwnedSet Answer
  | .onSet request => request.run OwnedSet.attributeSet
  | .onCollection index request => do request.run (← OwnedSet.attributeSet.collectionAt index)

def isReading : Look → Bool
  | .onSet request => request.isReading
  | .onCollection _ request => request.isReading

def isAddition : Look → Bool
  | .onSet request => request.isAddition
  | .onCollection _ request => request.isAddition

/-- Something that is only read, or an attribute that is refused. -/
def Vain (l : Look) (s : OwnedSet) : Prop :=
  l.isReading = true ∨ (l.isAddition = true ∧ ∃ e, (l.run.run.run s).answer = .error e)

end Look

namespace OwnedSet

/-- The set after some looks at it. -/
def lookedAt (s : OwnedSet) : List Look → OwnedSet
  | [] => s
  | l :: rest => ((l.run.run.run s).state).lookedAt rest

/-- Each look is in vain when it is its turn. -/
def AllVain (s : OwnedSet) : List Look → Prop
  | [] => True
  | l :: rest => l.Vain s ∧ ((l.run.run.run s).state).AllVain rest

/-- A set with nothing more in it than another one, except for empty collections. -/
structure Pads (s t : OwnedSet) : Prop where
  ascending : Ascending t.collections
  padded : ∃ new, Padded new s.collections t.collections

/-- An index that has a collection now, and had none before. -/
def Created (s t : OwnedSet) (index : Index) : Prop :=
  s.get? index = none ∧ (t.get? index).isSome = true

/-- The part of a set below an index. -/
def below (s : OwnedSet) (index : Index) : OwnedSet :=
  ⟨s.collections.filter fun d => d.index < index⟩

variable {s t : OwnedSet} {index : Index}

theorem Pads.refl (hs : Ascending s.collections) : s.Pads s :=
  ⟨hs, [], Padded.refl s.collections⟩

/-- Accessing an index creates an empty collection at most. -/
theorem Pads.access (h : s.Pads t) (index : Index) : s.Pads (t.access index) where
  ascending := ascending_insert _ h.ascending
  padded := by
    obtain ⟨new, hnew⟩ := h.padded
    cases hget : t.get? index with
    | none =>
      have hempty : t.getOrEmpty index = .empty index := by rw [getOrEmpty, hget, Option.getD_none]
      rw [OwnedSet.access, hempty]
      refine hnew.insert_empty ?_
      rintro d hd rfl
      rw [get?, find?_of_mem h.ascending hd] at hget
      cases hget
    | some d =>
      refine ⟨new, ?_⟩
      rw [access_of_get? h.ascending hget]
      exact hnew

/-- The indices of the empty collections are those that were created. -/
theorem Pads.mem_new_iff (h : s.Pads t) {new : List Index}
    (hnew : Padded new s.collections t.collections) (index : Index) :
    index ∈ new ↔ s.Created t index := by
  rw [hnew.mem_new_iff h.ascending, Created, and_comm, get?, get?,
    KeyedList.isSome_find?_iff, ← Option.not_isSome_iff_eq_none, KeyedList.isSome_find?_iff]
  simp only [not_exists, not_and, ne_eq]

/-- Whatever is read of a set, and whatever is refused, creates empty collections at most. -/
private theorem Pads.keeps (s : OwnedSet) (index : Index) :
    attributeSet.Keeps False s.Pads (fun _ => True) (fun _ => True) index :=
  related_access (fun _ h => h.access index)
    ⟨rfl, keeps_of_access fun _ h => h.access index⟩

private theorem Pads.reads (s : OwnedSet) (index : Index) :
    attributeSet.Reads (Diagonal s.Pads) (fun _ => True) attributeSet index :=
  (Pads.keeps s index).reads (Step.Related.pure rfl)

/-- A look in vain creates an empty collection at most. -/
theorem Pads.look (h : s.Pads t) {l : Look} (hvain : l.Vain t) :
    s.Pads (l.run.run.run t).state := by
  rcases hvain with hread | ⟨hadd, e, he⟩
  · cases l with
    | onSet request =>
      cases hindex : request.index? with
      | none =>
        cases request with
        | parameterCount => exact h
        | _ => cases hindex
      | some index =>
        exact Step.Related.kept (SetRequest.run_reading hread hindex (Pads.reads s index)) h
    | onCollection index request =>
      exact Step.Related.kept (Action.Related.bind (Pads.reads s index).collectionAt
        fun _ _ hd => CollectionRequest.run_reading hread hd) h
  · have hkeeps : Action.Keeps False s.Pads l.run := by
      cases l with
      | onSet request =>
        refine request.keeps (Step.Related.pure rfl) (Pads.keeps s) ?_ (fun _ _ => trivial)
          fun _ _ => trivial
        intro hbatch
        cases request <;> cases hadd <;> cases hbatch
      | onCollection index request =>
        exact (Pads.keeps s index).at fun d hd =>
          request.keeps hd (fun _ _ => trivial) fun _ _ => trivial
    exact hkeeps.kept_of_error h he

theorem Pads.lookedAt (h : s.Pads t) {looks : List Look} (hvain : t.AllVain looks) :
    s.Pads (t.lookedAt looks) := by
  induction looks generalizing t with
  | nil => exact h
  | cons l rest ih => exact ih (h.look hvain.1) hvain.2

/-- The part of a set before a new index is the part below it. -/
private theorem below_of_split {before after before' after' : List OwnedCollection}
    {new : List Index} (hs : s.collections = before ++ after)
    (ht : t.collections = before' ++ .empty index :: after') (hascending : Ascending t.collections)
    (hbefore : Padded new before before') (hafter : ∀ d ∈ after, d ∈ after') :
    s.below index = ⟨before⟩ := by
  rw [ht] at hascending
  obtain ⟨-, hrest, hless⟩ := List.pairwise_append.mp hascending
  have hlow : ∀ d ∈ before, d.index < index := fun d hd =>
    hless d (hbefore.mem_padded hd) _ List.mem_cons_self
  have hhigh : ∀ d ∈ after, ¬ d.index < index := by
    intro d hd hlt
    have hgt : index < d.index := (List.pairwise_cons.mp hrest).1 d (hafter d hd)
    exact Index.ne_of_lt (Index.lt_trans hlt hgt) rfl
  have hfirst : before.filter (fun d => d.index < index) = before :=
    List.filter_eq_self.mpr fun d hd => decide_eq_true (hlow d hd)
  have hsecond : after.filter (fun d => d.index < index) = [] :=
    List.filter_eq_nil_iff.mpr fun d hd => by simpa using hhigh d hd
  rw [below, hs, List.filter_append, hfirst, hsecond, List.append_nil]

/-- Applying a set that was looked at, compared with applying the set. If the
target grants all indices that looking created collections at, there is no
difference; if it refuses one, the first of these ends the application, unless
the set ends it before. An owned set as the target gives the same answer, and
gets the same attributes. -/
theorem applyTo_lookedAt (hs : Ascending s.collections) {looks : List Look}
    (hvain : s.AllVain looks) :
    (∀ (c : Context) (target : Holder),
      (∀ index, s.Created (s.lookedAt looks) index → c.refusal? target index = none) →
        (c.apply (s.lookedAt looks) target).answer = (c.apply s target).answer ∧
          (c.apply (s.lookedAt looks) target).state = (c.apply s target).state) ∧
    (∀ (c : Context) (target : Holder) index error, s.Created (s.lookedAt looks) index →
      c.refusal? target index = some error →
      (∀ index', s.Created (s.lookedAt looks) index' → index' < index →
        c.refusal? target index' = none) →
        (∀ e, (c.apply (s.below index) target).answer = .error e →
          (c.apply (s.lookedAt looks) target).answer = (c.apply s target).answer ∧
            (c.apply (s.lookedAt looks) target).state = (c.apply s target).state) ∧
        ((c.apply (s.below index) target).answer = .ok () →
          (c.apply (s.lookedAt looks) target).answer = .error error ∧
            (c.apply (s.lookedAt looks) target).state =
              (c.apply (s.below index) target).state)) ∧
    ∀ t : OwnedSet,
      (((s.lookedAt looks).applyTo attributeSet).run.run t).answer =
          ((s.applyTo attributeSet).run.run t).answer ∧
        ∀ index, (((s.lookedAt looks).applyTo attributeSet).run.run t).state.getOrEmpty index =
          ((s.applyTo attributeSet).run.run t).state.getOrEmpty index := by
  have hpads := (Pads.refl hs).lookedAt hvain
  obtain ⟨new, hnew⟩ := hpads.padded
  refine ⟨?_, ?_, ?_⟩
  · intro c target hgranted
    refine Context.apply_padded hnew c target ?_
    intro index hindex
    exact hgranted index ((hpads.mem_new_iff hnew index).mp hindex)
  · intro c target index error hcreated hrefused hgranted
    obtain ⟨new', before, after, before', after', hsplit, hsplit', hbefore, hsub, hafter⟩ :=
      hnew.split ((hpads.mem_new_iff hnew index).mpr hcreated)
    have hbelow := below_of_split hsplit hsplit' hpads.ascending hbefore hafter
    have hascending : Ascending (before' ++ .empty index :: after') := hsplit' ▸ hpads.ascending
    have hgranted' : ∀ index' ∈ new', c.refusal? target index' = none := by
      intro index' hindex'
      obtain ⟨⟨d, hd, rfl⟩, -⟩ :=
        (hbefore.mem_new_iff (List.pairwise_append.mp hascending).1).mp hindex'
      refine hgranted d.index ((hpads.mem_new_iff hnew d.index).mp (hsub _ hindex')) ?_
      exact (List.pairwise_append.mp hascending).2.2 d hd _ List.mem_cons_self
    have happlied := Context.apply_padded_of_refused hbefore hgranted' hrefused after after'
    rw [hbelow]
    have hwhole : s = ⟨before ++ after⟩ := congrArg OwnedSet.mk hsplit
    have hwhole' : s.lookedAt looks = ⟨before' ++ .empty index :: after'⟩ :=
      congrArg OwnedSet.mk hsplit'
    rw [hwhole', hwhole]
    exact happlied
  · intro t
    obtain ⟨hanswer, hstate⟩ := applyTo_padded hnew t t fun _ => rfl
    exact ⟨(Action.agree_eq_iff.mp hanswer).symm, fun index => (hstate index).symm⟩

/-- A parameter that was only looked at is refused by a function without it. -/
theorem lookedAt_refused :
    empty.AllVain [.onSet (.hasAny (.parameter 5))] ∧
      ((Context.empty.after [.addFunction "f" 1]).apply empty
        (.entity (.issued 0 0))).answer = .ok () ∧
      ((Context.empty.after [.addFunction "f" 1]).apply
        (empty.lookedAt [.onSet (.hasAny (.parameter 5))])
        (.entity (.issued 0 0))).answer = .error (.parameterOutOfRange 5 1) := by
  exact ⟨⟨Or.inl rfl, trivial⟩, rfl, rfl⟩

/-- Attributes for a function that is rarely called. -/
def coldFunction : OwnedSet := ⟨[⟨.function, [.known .cold none]⟩]⟩

/-- The return value is looked at, and refuses the same attribute. -/
def returnLooks : List Look :=
  [.onSet (.hasAny .returnValue), .onSet (.addKind .returnValue .cold)]

/-- The return value was only looked at, and every function grants it. -/
theorem applyTo_lookedAt_returnValue :
    Ascending coldFunction.collections ∧ coldFunction.AllVain returnLooks ∧
      coldFunction.Created (coldFunction.lookedAt returnLooks) .returnValue ∧
      ((Context.empty.after [.addFunction "f" 1]).apply (coldFunction.lookedAt returnLooks)
          (.entity (.issued 0 0))).state =
        ((Context.empty.after [.addFunction "f" 1]).apply coldFunction
          (.entity (.issued 0 0))).state := by
  have hs : Ascending coldFunction.collections := List.pairwise_singleton _ _
  have hvain : coldFunction.AllVain returnLooks :=
    ⟨Or.inl rfl, Or.inr ⟨rfl, .illegalPlace .cold .returnValue, by decide⟩, trivial⟩
  have hlooked : coldFunction.lookedAt returnLooks =
      ⟨[.empty .returnValue, ⟨.function, [.known .cold none]⟩]⟩ := by decide
  have hcreated : coldFunction.Created (coldFunction.lookedAt returnLooks) .returnValue := by
    rw [hlooked]
    exact ⟨rfl, rfl⟩
  have hgranted : ∀ index, coldFunction.Created (coldFunction.lookedAt returnLooks) index →
      (Context.empty.after [.addFunction "f" 1]).refusal? (.entity (.issued 0 0)) index = none := by
    rintro index ⟨hnone, hsome⟩
    rw [hlooked, get?, KeyedList.isSome_find?_iff] at hsome
    obtain ⟨d, hd, rfl⟩ := hsome
    rcases List.mem_cons.mp hd with rfl | hd
    · rfl
    · obtain rfl := List.mem_singleton.mp hd
      cases hnone
  obtain ⟨hsame, -, -⟩ := applyTo_lookedAt hs hvain
  exact ⟨hs, hvain, hcreated, (hsame _ _ hgranted).2⟩

end OwnedSet

end IRAttributes
