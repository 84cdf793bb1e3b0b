import IRAttributes.Proofs.Access
import IRAttributes.Proofs.Lasting

/-!
Which error an operation reports. Several things can be wrong with a request at
once: the handle, the position, the integer, the place of the kind. They are
looked at in a fixed order, the same for all requests as far as access goes, and
the first one that is wrong decides. Where a check is made twice, on access and
again by the view, the second time changes nothing.
-/
namespace IRAttributes

variable {σ α β : Type}

/-- Something that can be wrong with a request, and the error that says so. -/
structure Objection where
  applies : Prop
  error : Error

/-- The error is that of the first objection that applies; if none does, there is a result. -/
def FirstOf : List Objection → Except Error α → Prop
  | [], r => ∃ a, r = .ok a
  | objection :: rest, r =>
      (objection.applies → r = .error objection.error) ∧ (¬ objection.applies → FirstOf rest r)

namespace FirstOf

variable {objections later : List Objection} {r : Except Error α} {r' : Except Error β}

/-- What comes afterwards has objections of its own. -/
theorem andThen (h : FirstOf objections r) (herror : ∀ e, r = .error e → r' = .error e)
    (hok : ∀ a, r = .ok a → FirstOf later r') : FirstOf (objections ++ later) r' := by
  induction objections with
  | nil =>
    obtain ⟨a, ha⟩ := h
    exact hok a ha
  | cons objection rest ih =>
    exact ⟨fun happlies => herror _ (h.1 happlies), fun hnot => ih (h.2 hnot)⟩

/-- What comes afterwards has no objections of its own. -/
theorem alone (h : FirstOf objections r) (herror : ∀ e, r = .error e → r' = .error e)
    (hok : ∀ a, r = .ok a → ∃ b, r' = .ok b) : FirstOf objections r' := by
  have hnone : FirstOf (objections ++ []) r' := h.andThen herror hok
  rwa [List.append_nil] at hnone

theorem map (h : FirstOf objections r) (f : α → β) : FirstOf objections (r.map f) := by
  refine h.alone ?_ ?_
  · rintro e rfl
    rfl
  · rintro a rfl
    exact ⟨f a, rfl⟩

/-- An action that leaves the state alone objects before what follows it. -/
theorem bind {x : Action σ α} {f : α → Action σ β} {s : σ} {events : List Event}
    (hx : x.run.run s = ⟨r, s, events⟩) (h : FirstOf objections r)
    (hf : ∀ a, r = .ok a → FirstOf later ((f a).run.run s).answer) :
    FirstOf (objections ++ later) ((x >>= f).run.run s).answer := by
  refine h.andThen ?_ ?_
  · rintro e rfl
    rw [Action.run_bind_of_error f hx]
  · rintro a rfl
    rw [Action.run_bind_of_ok f hx]
    exact hf a rfl

end FirstOf

namespace Objection

/-- An argument has no index but its own. -/
def otherIndex (index : Index) : Holder → List Objection
  | .entity _ => []
  | .argument _ position =>
      [⟨index ≠ .parameter position, .indexMismatch (.parameter position) index⟩]

def outOfRange (count : UInt32) : Index → List Objection
  | .parameter position => [⟨count ≤ position, .parameterOutOfRange position count⟩]
  | _ => []

def illegalPlace (index : Index) (kind : Kind) : Objection :=
  ⟨kind.legalOn index = false, .illegalPlace kind index⟩

end Objection

namespace Placement

theorem firstOf_checkRange (index : Index) (count : UInt32) :
    FirstOf (Objection.outOfRange count index) (checkRange index (some count)) := by
  cases index with
  | parameter position => exact ⟨fun hle => if_pos hle, fun hlt => ⟨(), if_neg hlt⟩⟩
  | returnValue | function => exact ⟨(), rfl⟩

theorem firstOf_checkKind (index : Index) (kind : Kind) :
    FirstOf [Objection.illegalPlace index kind] (checkKind kind index) := by
  constructor
  · intro hillegal
    have hnot : ¬ kind.legalOn index = true := Bool.eq_false_iff.mp hillegal
    exact if_neg hnot
  · intro hlegal
    exact ⟨(), if_pos (Bool.of_not_eq_false hlegal)⟩

theorem firstOf_checkFlag (index : Index) (kind : Kind) :
    FirstOf [⟨kind.takesPayload = true, .payloadRequired kind⟩, Objection.illegalPlace index kind]
      (checkFlag kind index) := by
  constructor
  · intro htakes
    exact if_pos htakes
  · intro htakes
    rw [checkFlag, if_neg htakes]
    exact firstOf_checkKind index kind

theorem firstOf_checkPayload (index : Index) (kind : Kind) :
    FirstOf [⟨kind.takesPayload = false, .payloadNotTaken kind⟩, Objection.illegalPlace index kind]
      (checkPayload kind index) := by
  constructor
  · intro htakes
    have hnot : ¬ kind.takesPayload = true := Bool.eq_false_iff.mp htakes
    exact if_neg hnot
  · intro htakes
    rw [checkPayload, if_pos (Bool.of_not_eq_false htakes)]
    exact firstOf_checkKind index kind

/-- Once the position is known to be in range, only the kind can be out of place. -/
theorem firstOf_check {index : Index} {count : Option UInt32} (hin : InRange index count)
    (v : Attribute) :
    FirstOf (v.kind?.toList.map (Objection.illegalPlace index)) (check v index count) := by
  have hrange := (checkRange_eq_ok_iff index count).mpr hin
  cases hkind : v.kind? with
  | none =>
    refine ⟨(), ?_⟩
    rw [check, hrange, hkind]
  | some kind =>
    have hcheck : check v index count = checkKind kind index := by rw [check, hrange, hkind]
    rw [hcheck]
    exact firstOf_checkKind index kind

/-- What passes the check of a flag can be built, and is in place. -/
theorem built_of_checkFlag {kind : Kind} {index : Index} (h : checkFlag kind index = .ok ()) :
    ∃ v, Attribute.ofKind kind = .ok v ∧ Legal v index := by
  unfold checkFlag at h
  split at h
  · cases h
  · rename_i htakes
    refine ⟨.known kind none, if_neg htakes, ?_⟩
    rintro _ ⟨⟩
    exact (checkKind_eq_ok_iff kind index).mp h

theorem built_of_checkPayload {kind : Kind} {index : Index} (h : checkPayload kind index = .ok ())
    (n : UInt64) : ∃ v, Attribute.ofPayload kind n = .ok v ∧ Legal v index := by
  unfold checkPayload at h
  split at h
  · rename_i htakes
    refine ⟨.known kind (some n), if_pos htakes, ?_⟩
    rintro _ ⟨⟩
    exact (checkKind_eq_ok_iff kind index).mp h
  · cases h

end Placement

namespace Context

variable {c : Context} {h : Handle} {index : Index} {count : UInt32}

/-- An entity that is not there, or a call site of a function that is not there. -/
def Dead (c : Context) (h : Handle) : Prop :=
  c.contains h = false ∨ ∃ f, c.callee? h = some f ∧ c.contains f = false

theorem role?_of_not_contains (hnot : c.contains h = false) : c.role? h = none := by
  cases hrole : c.role? h with
  | none => rfl
  | some role =>
    rw [contains_of_role? hrole] at hnot
    cases hnot

theorem Sound.parameterCount_of_dead (hc : c.Sound) (hdead : c.Dead h) :
    c.parameterCount h = .error .deadHandle := by
  rcases hdead with hgone | ⟨f, hcallee, hgone⟩
  · exact parameterCount_of_none (role?_of_not_contains hgone)
  · rw [hc.parameterCount_of_callee hcallee]
    exact parameterCount_of_none (role?_of_not_contains hgone)

/-- Whatever is not dead has a number of parameters. -/
theorem Sound.hasParameters_of_not_dead (hc : c.Sound) (hlive : ¬ c.Dead h) :
    ∃ count, c.HasParameters h count := by
  rcases c.role?_cases h with hnone | ⟨name, count, hfunction⟩ | ⟨f, hcallee⟩
  · exact absurd (Or.inl (contains_of_role?_eq_none hnone)) hlive
  · exact ⟨count, Or.inl ⟨name, hfunction⟩⟩
  · rcases hc.role?_callee hcallee with hnone | ⟨name, count, hfunction⟩
    · exact absurd (Or.inr ⟨f, hcallee, contains_of_role?_eq_none hnone⟩) hlive
    · exact ⟨count, Or.inr ⟨f, name, hcallee, hfunction⟩⟩

/-- What keeps a holder from giving access to an index of an entity with so many parameters. -/
def accessObjections (c : Context) (holder : Holder) (index : Index) (count : UInt32) :
    List Objection :=
  Objection.otherIndex index holder ++
    ⟨c.Dead holder.handle, .deadHandle⟩ :: Objection.outOfRange count index

theorem Sound.firstOf_grant (hc : c.Sound) (holder : Holder) (index : Index)
    (hcount : ¬ c.Dead holder.handle → c.HasParameters holder.handle count) :
    FirstOf (c.accessObjections holder index count)
      (holder.grant index (c.parameterCount holder.handle)) := by
  have hentity : FirstOf
      (⟨c.Dead holder.handle, .deadHandle⟩ :: Objection.outOfRange count index)
      ((Holder.entity holder.handle).grant index (c.parameterCount holder.handle)) := by
    constructor
    · intro hdead
      rw [hc.parameterCount_of_dead hdead]
      rfl
    · intro hlive
      rw [(hcount hlive).parameterCount hc]
      exact Placement.firstOf_checkRange index count
  cases holder with
  | entity h => exact hentity
  | argument h position =>
    constructor
    · intro hother
      exact if_neg hother
    · intro hown
      rw [Holder.grant, if_pos (not_not.mp hown)]
      exact hentity

/-- Access comes first, and leaves the context as it is. -/
theorem Sound.firstOf_collectionAt (hc : c.Sound) {holder : Holder}
    (hcount : ¬ c.Dead holder.handle → c.HasParameters holder.handle count)
    {later : List Objection} (f : Collection Context → Action Context α)
    (hf : ∀ n, c.parameterCount holder.handle = .ok n → Placement.InRange index (some n) →
      FirstOf later ((f (View.collection store ⟨holder.handle, index⟩)).run.run c).answer) :
    FirstOf (c.accessObjections holder index count ++ later)
      (((holder.attributes store).collectionAt index >>= f).run.run c).answer := by
  have haccess := c.run_collectionAt holder index
  refine FirstOf.bind haccess ((hc.firstOf_grant holder index hcount).map _) ?_
  intro view hgranted
  obtain ⟨rfl, n, hn, hin⟩ := view_of_granted ((congrArg Outcome.answer haccess).trans hgranted)
  exact hf n hn hin

/-- What never fails itself has the objections to access only. -/
theorem Sound.firstOf_access (hc : c.Sound) {holder : Holder}
    (hcount : ¬ c.Dead holder.handle → c.HasParameters holder.handle count)
    (f : Collection Context → Action Context α)
    (hf : ∃ a, ((f (View.collection store ⟨holder.handle, index⟩)).run.run c).answer = .ok a) :
    FirstOf (c.accessObjections holder index count)
      (((holder.attributes store).collectionAt index >>= f).run.run c).answer := by
  have haccess : FirstOf (c.accessObjections holder index count ++ []) _ :=
    hc.firstOf_collectionAt hcount f fun _ _ _ => hf
  rwa [List.append_nil] at haccess

/-- A view of an index in range takes whatever is legal there. -/
theorem view_add_of_legal {n : UInt32} {v : Attribute} (hn : c.parameterCount h = .ok n)
    (hindex : index.Within n) (hlegal : Placement.Legal v index) :
    ((View.add store ⟨h, index⟩ v).run.run c).answer = .ok () := by
  obtain ⟨c', hput⟩ := exists_put hn hindex v
  have hcheck := (Placement.check_eq_ok_iff v index (some n)).mpr ⟨hindex.inRange, hlegal⟩
  exact (view_add_of_put hn hcheck hput).1

theorem firstOf_view_add {n : UInt32} (hn : c.parameterCount h = .ok n) (hindex : index.Within n)
    (v : Attribute) :
    FirstOf (v.kind?.toList.map (Objection.illegalPlace index))
      ((View.add store ⟨h, index⟩ v).run.run c).answer := by
  refine (Placement.firstOf_check hindex.inRange v).alone ?_ ?_
  · intro e he
    exact (view_add_of_error hn he).1
  · intro _ hok
    exact ⟨(), view_add_of_legal hn hindex ((Placement.check_eq_ok_iff v index _).mp hok).2⟩

/-- What is checked before it is built has nothing left to object to in the view. -/
theorem firstOf_view_checkedAdd {n : UInt32} (hn : c.parameterCount h = .ok n)
    (hindex : index.Within n) {objections : List Objection} {check : Index → Except Error Unit}
    {built : Except Error Attribute} (hcheck : FirstOf objections (check index))
    (hbuilt : check index = .ok () → ∃ v, built = .ok v ∧ Placement.Legal v index) :
    FirstOf objections
      ((do
        let collection := View.collection store ⟨h, index⟩
        Action.ofExcept (check (← Action.read collection.index))
        collection.add (← Action.ofExcept built) : Action Context Unit).run.run c).answer := by
  have hchecked : (Action.ofExcept (check index) : Action Context Unit).run.run c =
      ⟨check index, c, []⟩ := rfl
  have hadded : FirstOf (objections ++ [])
      ((Action.ofExcept (check index) >>= fun _ =>
        Action.ofExcept built >>= View.add store ⟨h, index⟩).run.run c).answer := by
    refine FirstOf.bind hchecked hcheck ?_
    intro _ hok
    obtain ⟨v, rfl, hlegal⟩ := hbuilt hok
    exact ⟨(), view_add_of_legal hn hindex hlegal⟩
  rw [List.append_nil] at hadded
  exact hadded

/-- The integer of a kind is missing if the kind is, or else if it takes none. -/
theorem firstOf_found (c : Context) (h : Handle) (index : Index) (kind : Kind) :
    FirstOf [⟨∀ v ∈ c.attributes h index, v.key ≠ .kind kind, .notPresent kind index⟩,
        ⟨kind.takesPayload = false, .payloadMissing kind index⟩]
      (match c.find? h index (.kind kind) with
        | none => .error (.notPresent kind index)
        | some v =>
            match v.payload? with
            | none => .error (.payloadMissing kind index)
            | some n => .ok n) := by
  rw [find?_eq]
  constructor
  · intro habsent
    rw [KeyedList.find?_eq_none_iff.mpr habsent]
  · intro hpresent
    obtain ⟨v, hfound⟩ : ∃ v,
        KeyedList.find? Attribute.key (.kind kind) (c.attributes h index) = some v := by
      apply Option.ne_none_iff_exists'.mp
      exact fun hnone => hpresent (KeyedList.find?_eq_none_iff.mp hnone)
    have hkey : v.key = .kind kind := KeyedList.key_of_find? Attribute.key hfound
    have hv : v.WellFormed :=
      wellFormed_of_mem_attributes (KeyedList.mem_of_find? Attribute.key hfound)
    rw [hfound]
    cases v with
    | named name value => cases hkey
    | known kind' payload =>
      obtain rfl : kind' = kind := Key.kind.inj hkey
      have hpayload : payload.isSome = kind'.takesPayload := hv
      constructor
      · intro hflag
        rw [hflag, Option.isSome_eq_false_iff, Option.isNone_iff_eq_none] at hpayload
        subst hpayload
        rfl
      · intro htakes
        rw [Bool.of_not_eq_false htakes, Option.isSome_iff_exists] at hpayload
        obtain ⟨n, rfl⟩ := hpayload
        exact ⟨n, rfl⟩

/-- What decides about each request at an index of an entity with so many parameters. -/
structure Determined (c : Context) (holder : Holder) (index : Index) (count : UInt32) : Prop where
  addKind : ∀ kind,
    FirstOf (c.accessObjections holder index count ++
        [⟨kind.takesPayload = true, .payloadRequired kind⟩, Objection.illegalPlace index kind])
      (((holder.attributes store).addKind index kind).run.run c).answer
  addPayload : ∀ kind n,
    FirstOf (c.accessObjections holder index count ++
        [⟨kind.takesPayload = false, .payloadNotTaken kind⟩, Objection.illegalPlace index kind])
      (((holder.attributes store).addPayload index kind n).run.run c).answer
  add : ∀ v : Attribute,
    FirstOf (c.accessObjections holder index count ++
        v.kind?.toList.map (Objection.illegalPlace index))
      (((holder.attributes store).add index v).run.run c).answer
  remove : ∀ key,
    FirstOf (c.accessObjections holder index count)
      (((holder.attributes store).remove index key).run.run c).answer
  has : ∀ key,
    FirstOf (c.accessObjections holder index count)
      (((holder.attributes store).has index key).run.run c).answer
  hasAny :
    FirstOf (c.accessObjections holder index count)
      (((holder.attributes store).hasAny index).run.run c).answer
  text :
    FirstOf (c.accessObjections holder index count)
      (((holder.attributes store).text index).run.run c).answer
  payload : ∀ kind,
    FirstOf (c.accessObjections holder index count ++
        [⟨∀ v ∈ c.attributes holder.handle index, v.key ≠ .kind kind, .notPresent kind index⟩,
          ⟨kind.takesPayload = false, .payloadMissing kind index⟩])
      (((holder.attributes store).payload index kind).run.run c).answer

/-- Whether there is access is the same question for all requests, so what remains is
what each of them does with the view that it gets. -/
theorem Sound.determined (hc : c.Sound) {holder : Holder}
    (hcount : ¬ c.Dead holder.handle → c.HasParameters holder.handle count)
    (hindex : index ≠ .parameter 4294967294) : c.Determined holder index count where
  addKind kind := by
    refine hc.firstOf_collectionAt hcount (·.addKind kind) ?_
    intro n hn hin
    exact firstOf_view_checkedAdd hn (.of_inRange hin hindex)
      (Placement.firstOf_checkFlag index kind) Placement.built_of_checkFlag
  addPayload kind payload := by
    refine hc.firstOf_collectionAt hcount (·.addPayload kind payload) ?_
    intro n hn hin
    exact firstOf_view_checkedAdd hn (.of_inRange hin hindex)
      (Placement.firstOf_checkPayload index kind)
      fun hchecked => Placement.built_of_checkPayload hchecked payload
  add v := by
    refine hc.firstOf_collectionAt hcount (·.add v) ?_
    intro n hn hin
    exact firstOf_view_add hn (.of_inRange hin hindex) v
  remove key := hc.firstOf_access hcount (fun view => liftM (view.remove key)) ⟨_, rfl⟩
  has key := hc.firstOf_access hcount (fun view => liftM (view.has key)) ⟨_, rfl⟩
  hasAny := hc.firstOf_access hcount (fun view => do return !(← view.isEmpty)) ⟨_, rfl⟩
  text := hc.firstOf_access hcount (fun view => liftM view.text) ⟨_, rfl⟩
  payload kind := by
    -- the view is asked for the kind first, so both steps are read off at once
    have haccess := c.run_collectionAt holder index
    refine (hc.firstOf_grant holder index hcount).andThen ?_ ?_
    · intro e he
      rw [he] at haccess
      exact congrArg Outcome.answer (Action.run_bind_of_error _ haccess)
    · intro _ hgranted
      rw [hgranted] at haccess
      rw [AttributeSet.answer_payload haccess]
      exact firstOf_found c holder.handle index kind

/-- After any run of operations, each request to the attributes of an entity or of
one of its arguments fails with the first error that applies, and succeeds if
none does. That an argument is asked for an index other than its own comes first;
then that the entity is not there or calls a function that is not there; then
that the position is not below the number of parameters; and only then what is
peculiar to the request. The one position left out is the greatest that can be
declared, for which a store has no number. -/
theorem errors_determined (ops : List Operation) (holder : Holder) {index : Index}
    (hindex : index ≠ .parameter 4294967294) :
    ∃ count, (¬ (empty.after ops).Dead holder.handle →
        (empty.after ops).HasParameters holder.handle count) ∧
      (empty.after ops).Determined holder index count := by
  have hc := sound_reached ops
  generalize empty.after ops = c at hc
  obtain ⟨count, hcount⟩ : ∃ count, ¬ c.Dead holder.handle →
      c.HasParameters holder.handle count := by
    by_cases hdead : c.Dead holder.handle
    · exact ⟨0, fun hlive => absurd hdead hlive⟩
    · exact (hc.hasParameters_of_not_dead hdead).imp fun _ h _ => h
  refine ⟨count, hcount, ?_⟩
  exact hc.determined hcount hindex

/-- A kind that takes an integer and belongs on functions is refused on a parameter
of a call, but first for the position, and before that for the missing callee. -/
theorem errors_determined_unaryCall :
    Index.parameter 5 ≠ .parameter 4294967294 ∧
      ((((Holder.entity (.issued 1 0)).attributes store).addKind (.parameter 5)
        .stackAlignment).run.run (empty.after unaryCall)).answer =
          .error (.parameterOutOfRange 5 1) ∧
      ((((Holder.entity (.issued 1 0)).attributes store).addKind (.parameter 5)
        .stackAlignment).run.run
          (empty.after (unaryCall ++ [.removeEntity (.issued 0 0)]))).answer =
            .error .deadHandle := by
  have hindex : Index.parameter 5 ≠ .parameter 4294967294 := by decide
  refine ⟨hindex, ?_, ?_⟩
  · obtain ⟨count, hcount, hdetermined⟩ :=
      errors_determined unaryCall (.entity (.issued 1 0)) hindex
    have hlive : ¬ (empty.after unaryCall).Dead (.issued 1 0) := by
      rintro (hgone | ⟨f, hcallee, hgone⟩)
      · exact absurd hgone (by decide)
      · obtain rfl : .issued 0 0 = f := Option.some.inj hcallee
        exact absurd hgone (by decide)
    have hone : (empty.after unaryCall).parameterCount (.issued 1 0) = .ok 1 := rfl
    have hsame := (hcount hlive).parameterCount (sound_reached unaryCall)
    obtain rfl : count = 1 := Except.ok.inj (hsame.symm.trans hone)
    exact ((hdetermined.addKind .stackAlignment).2 hlive).1 (by decide)
  · obtain ⟨count, -, hdetermined⟩ := errors_determined
      (unaryCall ++ [.removeEntity (.issued 0 0)]) (.entity (.issued 1 0)) hindex
    exact (hdetermined.addKind .stackAlignment).1 (Or.inr ⟨.issued 0 0, rfl, rfl⟩)

end Context

end IRAttributes
