import IRAttributes.Proofs.Operation

/-!
Access to an index, event for event. The sets of a context ask for the number of
parameters, compare, and touch nothing, so all that can come of it follows from
that number: an argument refuses any index but its own, an entity that is not
there has no index at all, and a position has to be below the number. What is
then done with the collection is done in the same state.
-/
namespace IRAttributes

variable {σ α β : Type}

namespace Action

theorem run_bind_of_ok {x : Action σ α} (f : α → Action σ β) {s s' : σ} {a : α}
    {events : List Event} (h : x.run.run s = ⟨.ok a, s', events⟩) :
    (x >>= f).run.run s = ⟨((f a).run.run s').answer, ((f a).run.run s').state,
      events ++ ((f a).run.run s').events⟩ := by
  have hbind : (x >>= f).run = x.run >>= ExceptT.bindCont f := rfl
  simp only [hbind, Step.run_bind, h]
  rfl

theorem run_bind_of_error {x : Action σ α} (f : α → Action σ β) {s s' : σ} {e : Error}
    {events : List Event} (h : x.run.run s = ⟨.error e, s', events⟩) :
    (x >>= f).run.run s = ⟨.error e, s', events⟩ := by
  have hbind : (x >>= f).run = x.run >>= ExceptT.bindCont f := rfl
  simp only [hbind, Step.run_bind, h]
  exact congrArg (Outcome.mk (Except.error e) s') (List.append_nil events)

end Action

/-- The integer of a kind is found in the collection at the index, if there is access to it. -/
theorem AttributeSet.answer_payload {S : AttributeSet σ} {index : Index} {c : Collection σ}
    {s s' : σ} {events : List Event}
    (haccess : (S.collectionAt index).run.run s = ⟨.ok c, s', events⟩) (kind : Kind) :
    ((S.payload index kind).run.run s).answer =
      match ((c.find? (.kind kind)).run s').answer with
      | none => .error (.notPresent kind index)
      | some v =>
          match v.payload? with
          | none => .error (.payloadMissing kind index)
          | some n => .ok n := by
  have hfound : ((liftM (c.find? (.kind kind)) : Action σ (Option Attribute)).run.run s').answer =
      .ok ((c.find? (.kind kind)).run s').answer := rfl
  unfold payload
  rw [Action.run_bind_of_ok _ haccess]
  refine (Action.bind_of_ok _ hfound).1.trans ?_
  cases ((c.find? (.kind kind)).run s').answer with
  | none => rfl
  | some v =>
    simp only
    cases v.payload? <;> rfl

/-- Whether a holder gives access to an index, by the number of its parameters. -/
def Holder.grant (index : Index) (count : Except Error UInt32) : Holder → Except Error Unit
  | .entity _ => do Placement.checkRange index (some (← count))
  | .argument _ position =>
      if index = .parameter position then do Placement.checkRange index (some (← count))
      else throw (.indexMismatch (.parameter position) index)

/-- Access to an index is a matter of the number of parameters, and changes nothing. -/
theorem Holder.run_collectionAt {S : Store σ Handle} {s : σ} {count : Except Error UInt32}
    (holder : Holder) (hcount : (S.parameterCount holder.handle).run.run s = ⟨count, s, []⟩)
    (index : Index) :
    ((holder.attributes S).collectionAt index).run.run s =
      ⟨(holder.grant index count).map fun _ => View.collection S ⟨holder.handle, index⟩, s, []⟩ := by
  have hentity : ∀ h, (S.parameterCount h).run.run s = ⟨count, s, []⟩ →
      ((S.attributeSet h).collectionAt index).run.run s =
        ⟨(count.bind fun n => Placement.checkRange index (some n)).map fun _ =>
          View.collection S ⟨h, index⟩, s, []⟩ := by
    intro h hcount
    cases count with
    | error e =>
      have hview : (S.viewAt h index).run.run s = ⟨.error e, s, []⟩ :=
        Action.run_bind_of_error _ hcount
      exact Action.run_bind_of_error _ hview
    | ok n =>
      have hview : (S.viewAt h index).run.run s =
          ⟨(Placement.checkRange index (some n)).map fun _ => ⟨h, index⟩, s, []⟩ := by
        refine (Action.run_bind_of_ok _ hcount).trans ?_
        cases Placement.checkRange index (some n) <;> rfl
      rw [Except.bind]
      cases hrange : Placement.checkRange index (some n) with
      | error e =>
        rw [hrange] at hview
        exact Action.run_bind_of_error _ hview
      | ok u =>
        rw [hrange] at hview
        exact Action.run_bind_of_ok _ hview
  cases holder with
  | entity h => exact hentity h hcount
  | argument h position =>
    simp only [Holder.attributes, AttributeSet.restrict, grant]
    split
    · exact hentity h hcount
    · rfl

/-- The indices that are in range can be had, but of an argument only its own one. -/
theorem Holder.grant_eq_ok_iff {holder : Holder} {index : Index} {count : Except Error UInt32} :
    holder.grant index count = .ok () ↔
      (∀ h position, holder = .argument h position → index = .parameter position) ∧
        ∃ n, count = .ok n ∧ Placement.InRange index (some n) := by
  have hcounted : ∀ h, (Holder.entity h).grant index count = .ok () ↔
      ∃ n, count = .ok n ∧ Placement.InRange index (some n) := by
    intro h
    cases count with
    | error e => exact iff_of_false nofun nofun
    | ok n =>
      simp only [Except.ok.injEq, exists_eq_left', ← Placement.checkRange_eq_ok_iff]
      rfl
  cases holder with
  | entity h => simp only [hcounted, reduceCtorEq, false_implies, implies_true, true_and]
  | argument h position =>
    have hown : (∀ h' position', Holder.argument h position = .argument h' position' →
        index = .parameter position') ↔ index = .parameter position := by
      constructor
      · intro hall
        exact hall h position rfl
      · rintro rfl _ _ ⟨⟩
        rfl
    rw [hown, ← hcounted h]
    by_cases heq : index = .parameter position
    · rw [and_iff_right heq]
      simp only [grant, if_pos heq]
    · refine iff_of_false ?_ fun hboth => heq hboth.1
      simp only [grant, if_neg heq]
      exact nofun

namespace Context

theorem run_collectionAt (c : Context) (holder : Holder) (index : Index) :
    ((holder.attributes store).collectionAt index).run.run c =
      ⟨(holder.grant index (c.parameterCount holder.handle)).map fun _ =>
        View.collection store ⟨holder.handle, index⟩, c, []⟩ :=
  holder.run_collectionAt rfl index

theorem state_collectionAt (c : Context) (holder : Holder) (index : Index) :
    (((holder.attributes store).collectionAt index).run.run c).state = c :=
  congrArg Outcome.state (c.run_collectionAt holder index)

/-- A holder refuses an index, or the index is in range and the holder gives a view of it. -/
theorem collectionAt_cases (c : Context) (holder : Holder) (index : Index) :
    (∃ e, (((holder.attributes store).collectionAt index).run.run c).answer = .error e) ∨
      (((holder.attributes store).collectionAt index).run.run c).answer =
          .ok (View.collection store ⟨holder.handle, index⟩) ∧
        ∃ count, c.parameterCount holder.handle = .ok count ∧
          Placement.InRange index (some count) := by
  rw [c.run_collectionAt holder index]
  cases hgrant : holder.grant index (c.parameterCount holder.handle) with
  | error e => exact Or.inl ⟨e, rfl⟩
  | ok u => exact Or.inr ⟨rfl, (Holder.grant_eq_ok_iff.mp hgrant).2⟩

end Context

end IRAttributes
