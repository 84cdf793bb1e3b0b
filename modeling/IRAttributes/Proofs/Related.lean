import IRAttributes.Request

/-!
Computations on two kinds of state that cannot be told apart. Started in
related states they give related answers and leave related states behind, and
this passes from the few operations of a collection, a set or a store to
everything derived from them. Events are not compared. Reading and writing
operations are kept apart, since some relations survive only the former.
-/
namespace IRAttributes

variable {σ τ α β γ δ : Type}

namespace Step

/-- From related states, related answers and again related states. -/
def Related (R : σ → τ → Prop) (P : α → β → Prop) (x : Step σ α) (y : Step τ β) : Prop :=
  ∀ s t, R s t → P (x.run s).answer (y.run t).answer ∧ R (x.run s).state (y.run t).state

variable {R : σ → τ → Prop} {P : α → β → Prop} {Q : γ → δ → Prop}

theorem Related.pure {a : α} {b : β} (h : P a b) :
    Related R P (Pure.pure a : Step σ α) (Pure.pure b : Step τ β) :=
  fun _ _ hst => ⟨h, hst⟩

theorem Related.read {f : σ → α} {g : τ → β} (h : ∀ s t, R s t → P (f s) (g t)) :
    Related R P (read f) (read g) :=
  fun s t hst => ⟨h s t hst, hst⟩

theorem Related.report (e e' : Event) :
    Related R Eq (report e : Step σ Unit) (report e' : Step τ Unit) :=
  fun _ _ hst => ⟨rfl, hst⟩

theorem Related.bind {x : Step σ α} {y : Step τ β} {f : α → Step σ γ} {g : β → Step τ δ}
    (hx : Related R P x y) (hf : ∀ a b, P a b → Related R Q (f a) (g b)) :
    Related R Q (x >>= f) (y >>= g) := by
  intro s t hst
  obtain ⟨hanswer, hstate⟩ := hx s t hst
  exact hf _ _ hanswer _ _ hstate

theorem Related.mono {P' : α → β → Prop} {x : Step σ α} {y : Step τ β}
    (h : Related R P x y) (hP : ∀ a b, P a b → P' a b) : Related R P' x y := by
  intro s t hst
  obtain ⟨hanswer, hstate⟩ := h s t hst
  exact ⟨hP _ _ hanswer, hstate⟩

/-- The answers are the same and one function is applied to both. -/
theorem Related.map {x : Step σ α} {y : Step τ α} (h : Related R Eq x y) (f : α → β) :
    Related R Eq (do return f (← x)) (do return f (← y)) := by
  refine Related.bind h ?_
  rintro a _ rfl
  exact Related.pure rfl

end Step

namespace Action

theorem bind_of_ok {x : Action σ α} (f : α → Action σ β) {s : σ} {a : α}
    (h : (x.run.run s).answer = .ok a) :
    ((x >>= f).run.run s).answer = ((f a).run.run (x.run.run s).state).answer ∧
      ((x >>= f).run.run s).state = ((f a).run.run (x.run.run s).state).state := by
  have hbind : (x >>= f).run = x.run >>= ExceptT.bindCont f := rfl
  simp only [hbind, Step.run_bind, h]
  exact ⟨rfl, rfl⟩

/-- After an error nothing more happens. -/
theorem bind_of_error {x : Action σ α} (f : α → Action σ β) {s : σ} {e : Error}
    (h : (x.run.run s).answer = .error e) :
    ((x >>= f).run.run s).answer = .error e ∧
      ((x >>= f).run.run s).state = (x.run.run s).state := by
  have hbind : (x >>= f).run = x.run >>= ExceptT.bindCont f := rfl
  simp only [hbind, Step.run_bind, h]
  exact ⟨rfl, rfl⟩

/-- What a sequence gives is what its last part gives somewhere. -/
theorem ok_of_bind {x : Action σ α} {f : α → Action σ β} {s : σ} {b : β}
    (h : ((x >>= f).run.run s).answer = .ok b) :
    ∃ a s', ((f a).run.run s').answer = .ok b := by
  cases hx : (x.run.run s).answer with
  | error e =>
    rw [(bind_of_error f hx).1] at h
    cases h
  | ok a =>
    rw [(bind_of_ok f hx).1] at h
    exact ⟨a, _, h⟩

/-- The same error on both sides, or related results. -/
def Agree (P : α → β → Prop) : Except Error α → Except Error β → Prop
  | .ok a, .ok b => P a b
  | .error e, .error f => e = f
  | _, _ => False

theorem agree_eq_iff {r r' : Except Error α} : Agree Eq r r' ↔ r = r' := by
  cases r <;> cases r' <;> simp [Agree]

theorem agree_self (r : Except Error α) : Agree Eq r r := agree_eq_iff.mpr rfl

/-- Answers that agree are results or errors alike. -/
theorem Agree.exists_ok_iff {P : α → β → Prop} {r : Except Error α} {r' : Except Error β}
    (h : Agree P r r') : (∃ a, r = .ok a) ↔ ∃ b, r' = .ok b := by
  cases r with
  | error e =>
    cases r' with
    | error e' => simp
    | ok b => exact False.elim h
  | ok a =>
    cases r' with
    | error e' => exact False.elim h
    | ok b => simp

theorem Agree.mono {P P' : α → β → Prop} {r : Except Error α} {r' : Except Error β}
    (h : Agree P r r') (hP : ∀ a b, P a b → P' a b) : Agree P' r r' := by
  cases r with
  | error e =>
    cases r' with
    | error e' => exact h
    | ok b => exact False.elim h
  | ok a =>
    cases r' with
    | error e' => exact False.elim h
    | ok b => exact hP a b h

def Related (R : σ → τ → Prop) (P : α → β → Prop) (x : Action σ α) (y : Action τ β) : Prop :=
  Step.Related R (Agree P) x.run y.run

variable {R : σ → τ → Prop} {P : α → β → Prop} {Q : γ → δ → Prop}

theorem Related.mono {P' : α → β → Prop} {x : Action σ α} {y : Action τ β}
    (h : Related R P x y) (hP : ∀ a b, P a b → P' a b) : Related R P' x y :=
  Step.Related.mono h fun _ _ hagree => hagree.mono hP

theorem Related.pure {a : α} {b : β} (h : P a b) :
    Related R P (Pure.pure a : Action σ α) (Pure.pure b : Action τ β) :=
  fun _ _ hst => ⟨h, hst⟩

theorem Related.throw (e : Error) :
    Related R P (throw e : Action σ α) (throw e : Action τ β) :=
  fun _ _ hst => ⟨rfl, hst⟩

theorem Related.ofExcept (r : Except Error α) :
    Related R Eq (Action.ofExcept r : Action σ α) (Action.ofExcept r : Action τ α) :=
  fun _ _ hst => ⟨agree_eq_iff.mpr rfl, hst⟩

theorem Related.lift {x : Step σ α} {y : Step τ β} (h : Step.Related R P x y) :
    Related R P (liftM x : Action σ α) (liftM y : Action τ β) := by
  intro s t hst
  exact h s t hst

theorem Related.report (e e' : Event) :
    Related R Eq (Action.report e : Action σ Unit) (Action.report e' : Action τ Unit) :=
  Related.lift (Step.Related.report e e')

theorem Related.bind {x : Action σ α} {y : Action τ β} {f : α → Action σ γ}
    {g : β → Action τ δ} (hx : Related R P x y)
    (hf : ∀ a b, P a b → Related R Q (f a) (g b)) : Related R Q (x >>= f) (y >>= g) := by
  refine Step.Related.bind hx ?_
  intro r r' hr
  cases r with
  | error e =>
    cases r' with
    | error e' =>
      obtain rfl : e = e' := hr
      exact Related.throw e
    | ok b => exact False.elim hr
  | ok a =>
    cases r' with
    | error e' => exact False.elim hr
    | ok b => exact hf a b hr

theorem Related.map {x : Action σ α} {y : Action τ α} (h : Related R Eq x y) (f : α → β) :
    Related R Eq (do return f (← x)) (do return f (← y)) := by
  refine Related.bind h ?_
  rintro a _ rfl
  exact Related.pure rfl

/-- A batch is related item by item, up to the first item that fails. -/
theorem Related.forM {f : α → Action σ Unit} {g : α → Action τ Unit} (items : List α)
    (h : ∀ a ∈ items, Related R Eq (f a) (g a)) :
    Related R Eq (items.forM f) (items.forM g) := by
  induction items with
  | nil => exact Related.pure rfl
  | cons a rest ih =>
    refine Related.bind (h a List.mem_cons_self) ?_
    intro _ _ _
    exact ih fun b hb => h b (List.mem_cons_of_mem a hb)

end Action

/-- The same attributes on both sides, all of them admissible. -/
def SharedList (P : Attribute → Prop) (vs ws : List Attribute) : Prop :=
  vs = ws ∧ ∀ v ∈ vs, P v

namespace Collection

variable {R : σ → τ → Prop} {P : Attribute → Prop} {c : Collection σ} {d : Collection τ}

structure Reads (R : σ → τ → Prop) (P : Attribute → Prop) (c : Collection σ)
    (d : Collection τ) : Prop where
  index : ∀ s t, R s t → c.index s = d.index t
  find? : ∀ key, Step.Related R Eq (c.find? key) (d.find? key)
  attributes : Step.Related R (SharedList P) c.attributes d.attributes
  size : Step.Related R Eq c.size d.size

structure Writes (R : σ → τ → Prop) (P : Attribute → Prop) (c : Collection σ)
    (d : Collection τ) : Prop where
  index : ∀ s t, R s t → c.index s = d.index t
  add : ∀ v, P v → Action.Related R Eq (c.add v) (d.add v)
  remove : ∀ key, Step.Related R Eq (c.remove key) (d.remove key)

theorem Reads.plainAttributes (h : Reads R P c d) :
    Step.Related R Eq c.attributes d.attributes :=
  h.attributes.mono fun _ _ hvs => hvs.1

theorem Reads.isEmpty (h : Reads R P c d) : Step.Related R Eq c.isEmpty d.isEmpty :=
  Step.Related.map h.size fun n => n == 0

theorem Reads.has (h : Reads R P c d) (key : Key) :
    Step.Related R Eq (c.has key) (d.has key) :=
  Step.Related.map (h.find? key) Option.isSome

theorem Reads.text (h : Reads R P c d) : Step.Related R Eq c.text d.text :=
  Step.Related.map h.plainAttributes Attribute.textOfList

theorem Reads.summary (h : Reads R P c d) : Step.Related R Eq c.summary d.summary := by
  refine Step.Related.bind (Step.Related.read h.index) ?_
  rintro index _ rfl
  refine Step.Related.bind h.size ?_
  rintro size _ rfl
  refine Step.Related.bind h.isEmpty ?_
  rintro isEmpty _ rfl
  refine Step.Related.bind h.plainAttributes ?_
  rintro attributes _ rfl
  exact Step.Related.map h.text (Summary.mk index size isEmpty attributes)

/-- What all shortcut additions have in common: a check of the place, then the attribute. -/
private theorem Writes.checkedAdd (h : Writes R P c d) (check : Index → Except Error Unit)
    (r : Except Error Attribute) (hr : ∀ v, r = .ok v → P v) :
    Action.Related R Eq
      (do Action.ofExcept (check (← Action.read c.index)); c.add (← Action.ofExcept r))
      (do Action.ofExcept (check (← Action.read d.index)); d.add (← Action.ofExcept r)) := by
  refine Action.Related.bind (P := Eq) (Action.Related.lift (Step.Related.read h.index)) ?_
  rintro index _ rfl
  refine Action.Related.bind (Action.Related.ofExcept _) ?_
  intro _ _ _
  cases r with
  | error e => exact Action.Related.throw e
  | ok v => exact h.add v (hr v rfl)

theorem Writes.addKind (h : Writes R P c d) (hP : ∀ v, v.WellFormed → P v) (kind : Kind) :
    Action.Related R Eq (c.addKind kind) (d.addKind kind) :=
  h.checkedAdd (Placement.checkFlag kind) (Attribute.ofKind kind)
    fun v hv => hP v (Attribute.wellFormed_of_ofKind hv)

theorem Writes.addPayload (h : Writes R P c d) (hP : ∀ v, v.WellFormed → P v) (kind : Kind)
    (payload : UInt64) : Action.Related R Eq (c.addPayload kind payload)
      (d.addPayload kind payload) :=
  h.checkedAdd (Placement.checkPayload kind) (Attribute.ofPayload kind payload)
    fun v hv => hP v (Attribute.wellFormed_of_ofPayload hv)

theorem Writes.addNamed (h : Writes R P c d) (hP : ∀ v, v.WellFormed → P v)
    (name value : String) : Action.Related R Eq (c.addNamed name value)
      (d.addNamed name value) := by
  refine Action.Related.bind (P := fun v w => v = w ∧ P v) ?_ ?_
  · cases hv : Attribute.ofName name value with
    | error e => exact Action.Related.throw e
    | ok v => exact Action.Related.pure ⟨rfl, hP v (Attribute.wellFormed_of_ofName hv)⟩
  · rintro v _ ⟨rfl, hv⟩
    exact h.add v hv

theorem Writes.addKinds (h : Writes R P c d) (hP : ∀ v, v.WellFormed → P v)
    (kinds : List Kind) : Action.Related R Eq (c.addKinds kinds) (d.addKinds kinds) :=
  Action.Related.forM kinds fun kind _ => h.addKind hP kind

theorem Writes.addAll (h : Writes R P c d) {vs : List Attribute} (hvs : ∀ v ∈ vs, P v) :
    Action.Related R Eq (c.addAll vs) (d.addAll vs) :=
  Action.Related.forM vs fun v hv => h.add v (hvs v hv)

end Collection

end IRAttributes
