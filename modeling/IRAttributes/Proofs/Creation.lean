import IRAttributes.Proofs.Ledger

/-!
Creating entities. A function can always be added and a call site be built
where its callee is a function; the entity gets the next handle, and that it
exists is all that changes. No other operation replies with a handle, and
whoever is in a context was created by some operation.
-/
namespace IRAttributes.Context

variable {c : Context} {h : Handle}

theorem buildSite_cases (c : Context) (site : Handle → Role) (callee : Handle) :
    (c.IsFunction callee ∧
        ((buildSite site callee).run.run c).answer = .ok c.entities.nextHandle ∧
        ((buildSite site callee).run.run c).state = c.insert (site callee)) ∨
      (¬ c.IsFunction callee ∧ ((buildSite site callee).run.run c).answer = .error .deadHandle ∧
        ((buildSite site callee).run.run c).state = c) := by
  simp only [buildSite, ExceptT.run_mk]
  split
  · rename_i name count hrole
    exact Or.inl ⟨⟨name, count, hrole⟩, rfl, rfl⟩
  · rename_i hother
    refine Or.inr ⟨?_, rfl, rfl⟩
    rintro ⟨name, count, hrole⟩
    exact hother name count hrole

/-- Building a call site as an operation. -/
private theorem perform_building (c : Context) {op : Operation} {site : Handle → Role}
    {callee : Handle} (hrun : op.run host = (do return .entity (← buildSite site callee))) :
    (c.IsFunction callee ∧ (c.perform op).answer = .ok (.entity c.entities.nextHandle) ∧
        (c.perform op).state = c.insert (site callee)) ∨
      (¬ c.IsFunction callee ∧ (c.perform op).answer = .error .deadHandle ∧
        (c.perform op).state = c) := by
  unfold perform
  rw [hrun]
  rcases c.buildSite_cases site callee with ⟨hf, hanswer, hstate⟩ | ⟨hf, hanswer, hstate⟩
  · obtain ⟨hanswer', hstate'⟩ := Action.bind_of_ok (fun h => return Reply.entity h) hanswer
    exact Or.inl ⟨hf, hanswer', hstate'.trans hstate⟩
  · obtain ⟨hanswer', hstate'⟩ := Action.bind_of_error (fun h => return Reply.entity h) hanswer
    exact Or.inr ⟨hf, hanswer', hstate'.trans hstate⟩

/-- Creating an entity either succeeds, under the next handle, or changes nothing. -/
theorem perform_creating (c : Context) {op : Operation} {role : Role}
    (hop : op.role? = some role) :
    (c.Admits role ∧ (c.perform op).answer = .ok (.entity c.entities.nextHandle) ∧
        (c.perform op).state = c.insert role) ∨
      (¬ c.Admits role ∧ (c.perform op).answer = .error .deadHandle ∧
        (c.perform op).state = c) := by
  cases op with
  | addFunction name count =>
    obtain rfl : .function name count = role := Option.some.inj hop
    exact Or.inl ⟨trivial, rfl, rfl⟩
  | buildCall callee =>
    obtain rfl : .call callee = role := Option.some.inj hop
    have hrun : (Operation.buildCall callee).run host =
        (do return .entity (← buildSite Role.call callee)) := rfl
    exact c.perform_building hrun
  | buildInvoke callee =>
    obtain rfl : .invoke callee = role := Option.some.inj hop
    have hrun : (Operation.buildInvoke callee).run host =
        (do return .entity (← buildSite Role.invoke callee)) := rfl
    exact c.perform_building hrun
  | _ => cases hop

/-- Whoever has a role after an operation had it before, or was created by it. -/
theorem role?_perform_origin {c : Context} (hc : c.Sound) {op : Operation} {h : Handle}
    {role : Role} (hrole : (c.perform op).state.role? h = some role) :
    c.role? h = some role ∨
      (op.role? = some role ∧ c.Admits role ∧ (c.perform op).answer = .ok (.entity h)) := by
  obtain ⟨moves, hpath, hpermits⟩ := c.path_perform op
  rcases hpath.role?_origin hc hrole with hold | hentered
  · exact Or.inl hold
  · have hop : op.role? = some role := hpermits _ hentered
    rcases c.perform_creating hop with ⟨hadmits, hanswer, hstate⟩ | ⟨-, -, hstate⟩
    · rw [hstate] at hrole
      rcases (Moves.enter role hadmits).role?_origin hc.table hrole with hold | ⟨henter, -⟩
      · exact Or.inl hold
      · cases henter
        exact Or.inr ⟨hop, hadmits, hanswer⟩
    · rw [hstate] at hrole
      exact Or.inl hrole

/-- A handle in a reply is that of an entity just created. -/
theorem perform_entity {op : Operation} (hanswer : (c.perform op).answer = .ok (.entity h)) :
    ∃ role, op.role? = some role ∧ c.Admits role ∧ h = c.entities.nextHandle ∧
      (c.perform op).state = c.insert role := by
  cases hop : op.role? with
  | some role =>
    rcases c.perform_creating hop with ⟨hadmits, hnext, hstate⟩ | ⟨-, herror, -⟩
    · rw [hnext] at hanswer
      cases hanswer
      exact ⟨role, rfl, hadmits, rfl, hstate⟩
    · rw [herror] at hanswer
      cases hanswer
  | none =>
    cases op with
    | addFunction | buildCall | buildInvoke => cases hop
    | setAlignment h' position alignment =>
      obtain ⟨v, s, hrest⟩ := Action.ok_of_bind hanswer
      obtain ⟨u, s', hlast⟩ := Action.ok_of_bind hrest
      cases hlast
    | removeEntity | onStore | onSet | onView | addCollection | addFrom | applySet =>
      obtain ⟨a, s, hlast⟩ := Action.ok_of_bind hanswer
      cases hlast

/-- Whoever is created has no attributes yet. -/
theorem native_of_created (hc : c.Sound) {op : Operation}
    (hanswer : (c.perform op).answer = .ok (.entity h)) (index : Index) :
    (c.perform op).state.native h index = [] := by
  obtain ⟨role, -, hadmits, rfl, hstate⟩ := perform_entity hanswer
  have hnone : c.entity? c.entities.nextHandle = none := hc.table.get?_nextHandle
  rw [hstate, (Moves.enter role hadmits).native hc.table, Move.stored,
    native_of_entity?_eq_none hnone]

end IRAttributes.Context
