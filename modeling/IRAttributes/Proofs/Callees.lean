import IRAttributes.Entities
import IRAttributes.Proofs.Creation
import Mathlib.Data.List.Induction

/-!
Following callees. In a context that a run leads to, the callee of a call site
is a function or gone for good, so counting parameters looks at two entities at
most. What a call site answers about its callee is settled when it is built: it
answers with what the function was declared with for as long as the function is
there, and nothing from then on, whoever has the slot of the function.
-/
namespace IRAttributes.Context

variable {c c' : Context} {h callee : Handle}

theorem countWithin_of_function {name : String} {count : UInt32}
    (hrole : c.role? h = some (.function name count)) (visits : Nat) :
    c.countWithin (visits + 1) h = some (.ok count) := by
  have hentity : (c.entity? h).map Entity.role = some (.function name count) := hrole
  simp only [countWithin, hentity]

theorem countWithin_of_none (hrole : c.role? h = none) (visits : Nat) :
    c.countWithin (visits + 1) h = some (.error .deadHandle) := by
  have hentity : (c.entity? h).map Entity.role = none := hrole
  simp only [countWithin, hentity]

theorem countWithin_of_callee (hcallee : c.callee? h = some callee) (visits : Nat) :
    c.countWithin (visits + 1) h = c.countWithin visits callee := by
  rcases callee?_eq_some_iff.mp hcallee with hrole | hrole
  · have hentity : (c.entity? h).map Entity.role = some (.call callee) := hrole
    simp only [countWithin, hentity]
  · have hentity : (c.entity? h).map Entity.role = some (.invoke callee) := hrole
    simp only [countWithin, hentity]

theorem parameterCount_of_function {name : String} {count : UInt32}
    (hrole : c.role? h = some (.function name count)) : c.parameterCount h = .ok count := by
  rw [parameterCount, countWithin_of_function hrole, Option.getD_some]

theorem parameterCount_of_none (hrole : c.role? h = none) :
    c.parameterCount h = .error .deadHandle := by
  rw [parameterCount, countWithin_of_none hrole, Option.getD_some]

/-- Counting depends on the roles alone. -/
theorem countWithin_congr (hrole : ∀ h, c'.role? h = c.role? h) (visits : Nat) (h : Handle) :
    c'.countWithin visits h = c.countWithin visits h := by
  induction visits generalizing h with
  | zero => rfl
  | succ visits ih =>
    have hsame : (c'.entity? h).map Entity.role = (c.entity? h).map Entity.role := hrole h
    simp only [countWithin, hsame, ih]

theorem parameterCount_congr (hrole : ∀ h, c'.role? h = c.role? h)
    (hsize : c'.entities.size = c.entities.size) (h : Handle) :
    c'.parameterCount h = c.parameterCount h := by
  rw [parameterCount, countWithin_congr hrole, hsize, parameterCount]

theorem role?_update {f : Entity → Entity} (hrole : ∀ e, (f e).role = e.role) (c : Context)
    (h h' : Handle) : (c.update h f).role? h' = c.role? h' := by
  rw [role?, entity?_update, role?]
  split
  · rw [Option.map_map]
    exact congrArg (fun g => (c.entity? h').map g) (funext hrole)
  · rfl

theorem parameterCount_update {f : Entity → Entity} (hrole : ∀ e, (f e).role = e.role)
    (c : Context) (h h' : Handle) : (c.update h f).parameterCount h' = c.parameterCount h' :=
  parameterCount_congr (role?_update hrole c h) (SlotTable.size_update c.entities f h) h'

/-- A table with a tenant has a slot. -/
private theorem size_pos_of_role? {role : Role} (hrole : c.role? h = some role) :
    0 < c.entities.size := by
  obtain ⟨e, he, -⟩ := Option.map_eq_some_iff.mp hrole
  cases h with
  | null => cases he
  | issued slot generation =>
    have hslot : slot < c.entities.size := SlotTable.slot_lt_of_get? he
    omega

/-- Nothing has a role, a function has one, and a call site has a callee. -/
theorem role?_cases (c : Context) (h : Handle) :
    c.role? h = none ∨ c.IsFunction h ∨ ∃ callee, c.callee? h = some callee := by
  cases hrole : c.role? h with
  | none => exact Or.inl rfl
  | some role =>
    cases role with
    | function name count => exact Or.inr (Or.inl ⟨name, count, hrole⟩)
    | call callee => exact Or.inr (Or.inr ⟨callee, callee?_eq_some_iff.mpr (Or.inl hrole)⟩)
    | invoke callee => exact Or.inr (Or.inr ⟨callee, callee?_eq_some_iff.mpr (Or.inr hrole)⟩)

/-- A callee that is still there is a function. -/
theorem Sound.role?_callee (hc : c.Sound) (hcallee : c.callee? h = some callee) :
    c.role? callee = none ∨ c.IsFunction callee :=
  (hc.callee h callee hcallee).elim Or.inr fun hspent => Or.inl (role?_of_spent hspent)

theorem Sound.parameterCount_of_callee (hc : c.Sound) (hcallee : c.callee? h = some callee) :
    c.parameterCount h = c.parameterCount callee := by
  obtain ⟨role, hrole⟩ := exists_role_of_callee? hcallee
  have hpos : 0 < c.entities.size := size_pos_of_role? hrole
  obtain ⟨n, hn⟩ := Nat.exists_eq_add_one_of_ne_zero (Nat.ne_of_gt hpos)
  rcases hc.role?_callee hcallee with hnone | ⟨name, count, hfunction⟩
  · rw [parameterCount_of_none hnone, parameterCount, hn, countWithin_of_callee hcallee,
      countWithin_of_none hnone, Option.getD_some]
  · rw [parameterCount_of_function hfunction, parameterCount, hn, countWithin_of_callee hcallee,
      countWithin_of_function hfunction, Option.getD_some]

/-- Two visits are enough to count parameters. -/
theorem Sound.countWithin (hc : c.Sound) (h : Handle) (visits : Nat) :
    c.countWithin (visits + 2) h = some (c.parameterCount h) := by
  rcases c.role?_cases h with hnone | ⟨name, count, hfunction⟩ | ⟨callee, hcallee⟩
  · rw [countWithin_of_none hnone, parameterCount_of_none hnone]
  · rw [countWithin_of_function hfunction, parameterCount_of_function hfunction]
  · rw [countWithin_of_callee hcallee, hc.parameterCount_of_callee hcallee]
    rcases hc.role?_callee hcallee with hnone | ⟨name, count, hfunction⟩
    · rw [countWithin_of_none hnone, parameterCount_of_none hnone]
    · rw [countWithin_of_function hfunction, parameterCount_of_function hfunction]

/-- A function that was declared with so many parameters, or a call site of one. -/
def HasParameters (c : Context) (e : Handle) (count : UInt32) : Prop :=
  (∃ name, c.role? e = some (.function name count)) ∨
    ∃ callee name, c.callee? e = some callee ∧ c.role? callee = some (.function name count)

theorem HasParameters.parameterCount {e : Handle} {count : UInt32} (h : c.HasParameters e count)
    (hc : c.Sound) : c.parameterCount e = .ok count := by
  rcases h with ⟨name, hrole⟩ | ⟨callee, name, hcallee, hrole⟩
  · exact parameterCount_of_function hrole
  · rw [hc.parameterCount_of_callee hcallee, parameterCount_of_function hrole]

theorem HasParameters.exists_role {e : Handle} {count : UInt32} (h : c.HasParameters e count) :
    ∃ role, c.role? e = some role := by
  rcases h with ⟨name, hrole⟩ | ⟨callee, name, hcallee, -⟩
  · exact ⟨_, hrole⟩
  · exact exists_role_of_callee? hcallee

/-- Whoever's parameters can be counted has so many. -/
theorem Sound.hasParameters {count : UInt32} (hc : c.Sound)
    (hcount : c.parameterCount h = .ok count) : c.HasParameters h count := by
  rcases c.role?_cases h with hnone | ⟨name, n, hfunction⟩ | ⟨callee, hcallee⟩
  · rw [parameterCount_of_none hnone] at hcount
    cases hcount
  · rw [parameterCount_of_function hfunction] at hcount
    cases hcount
    exact Or.inl ⟨name, hfunction⟩
  · rw [hc.parameterCount_of_callee hcallee] at hcount
    rcases hc.role?_callee hcallee with hnone | ⟨name, n, hfunction⟩
    · rw [parameterCount_of_none hnone] at hcount
      cases hcount
    · rw [parameterCount_of_function hfunction] at hcount
      cases hcount
      exact Or.inr ⟨callee, name, hcallee, hfunction⟩

theorem functionName?_of_none (hrole : c.role? h = none) : c.functionName? h = none := by
  have hentity : (c.entity? h).map Entity.role = none := hrole
  simp only [functionName?, hentity]

theorem callee?_of_none (hrole : c.role? h = none) : c.callee? h = none := by
  cases hcallee : c.callee? h with
  | none => rfl
  | some callee =>
    rcases callee?_eq_some_iff.mp hcallee with hsome | hsome <;> rw [hrole] at hsome <;> cases hsome

/-- A function that an operation of the run added, with what it was declared with. -/
def Declared (ops : List Operation) (h : Handle) (name : String) (count : UInt32) : Prop :=
  ∃ before rest, ops = before ++ .addFunction name count :: rest ∧
    ((empty.after before).perform (.addFunction name count)).answer = .ok (.entity h)

theorem Declared.append {ops : List Operation} {name : String} {count : UInt32}
    (hdeclared : Declared ops h name count) (more : List Operation) :
    Declared (ops ++ more) h name count := by
  obtain ⟨before, rest, rfl, hanswer⟩ := hdeclared
  exact ⟨before, rest ++ more, by simp, hanswer⟩

/-- Every function in a context was declared, and so was every callee, even if
it is gone by now. -/
structure AllDeclared (ops : List Operation) : Prop where
  function : ∀ h name count, (empty.after ops).role? h = some (.function name count) →
    Declared ops h name count
  callee : ∀ h callee, (empty.after ops).callee? h = some callee →
    ∃ name count, Declared ops callee name count

theorem AllDeclared.snoc {ops : List Operation} (hops : AllDeclared ops) (op : Operation) :
    AllDeclared (ops ++ [op]) := by
  have hafter : empty.after (ops ++ [op]) = ((empty.after ops).perform op).state :=
    after_append empty ops [op]
  have hsound := sound_reached ops
  refine ⟨?_, ?_⟩
  · intro h name count hrole
    rw [hafter] at hrole
    rcases role?_perform_origin hsound hrole with hold | ⟨hop, -, hanswer⟩
    · exact (hops.function h name count hold).append [op]
    · cases op with
      | addFunction name' count' =>
        cases hop
        exact ⟨ops, [], rfl, hanswer⟩
      | _ => cases hop
  · -- a new call site was admitted, so its callee was a function just before
    intro h callee hcallee
    rw [hafter] at hcallee
    have horigin : ∀ role, ((empty.after ops).perform op).state.role? h = some role →
        (empty.after ops).role? h = some role ∨ (empty.after ops).Admits role := by
      intro role hrole
      rcases role?_perform_origin hsound hrole with hold | ⟨-, hadmits, -⟩
      · exact Or.inl hold
      · exact Or.inr hadmits
    rcases callee?_origin horigin hcallee with hold | ⟨name, count, hfunction⟩
    · obtain ⟨name, count, hdeclared⟩ := hops.callee h callee hold
      exact ⟨name, count, hdeclared.append [op]⟩
    · exact ⟨name, count, (hops.function callee name count hfunction).append [op]⟩

/-- What was declared is kept until the function is gone. -/
theorem Declared.role?_or_spent {ops : List Operation} {name : String} {count : UInt32}
    (hdeclared : Declared ops h name count) :
    (empty.after ops).role? h = some (.function name count) ∨
      (empty.after ops).entities.Spent h := by
  obtain ⟨before, rest, rfl, hanswer⟩ := hdeclared
  have hsound := sound_reached before
  have hadded : ((empty.after before).perform (.addFunction name count)).state.role? h =
      some (.function name count) := by
    obtain rfl : (empty.after before).entities.nextHandle = h := by
      injection hanswer with hreply
      injection hreply
    exact role?_insert hsound.table _
  rw [after_append, after_cons]
  exact role?_after (sound_after hsound [.addFunction name count]) hadded rest

/-- A call site keeps its callee until it is gone itself. -/
theorem callee?_after (hc : c.Sound) (hcallee : c.callee? h = some callee)
    (ops : List Operation) :
    (c.after ops).callee? h = some callee ∨ (c.after ops).role? h = none := by
  obtain ⟨role, hrole⟩ := exists_role_of_callee? hcallee
  rcases role?_after hc hrole ops with hstill | hspent
  · exact Or.inl ((callee?_congr (hstill.trans hrole.symm)).trans hcallee)
  · exact Or.inr (role?_of_spent hspent)

end IRAttributes.Context
