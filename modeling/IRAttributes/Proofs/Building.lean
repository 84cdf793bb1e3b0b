import IRAttributes.Proofs.Legality
import IRAttributes.Proofs.Revision

/-!
Call sites and the functions they are built for. A context looks for the callee
under its handle alone, among its own entities. In its own context a call site
therefore calls the function that it was built for, for as long as both exist,
and a function that is gone cannot be called. A function of another context is
refused only where its handle happens to stand for no function; elsewhere the
call site calls the function that has this handle here.
-/
namespace IRAttributes

/-- An activity that builds a call site of a function in a context. -/
def Activity.Builds (k : Nat) (f : Function) (a : Activity) : Prop :=
  a = .buildCall k f ∨ a = .buildInvoke k f

namespace Workspace

variable {w : Workspace} {k : Nat} {f : Function} {h callee : Handle}

/-- Whoever is built calls what it was built for, and what is gone or belongs to
another context is refused. -/
structure Serves (w : Workspace) (k : Nat) (f : Function) (a : Activity) : Prop where
  callee : ∀ h, (w.perform a).answer = .ok (.entity h) →
    (w.perform a).state.callee? k h = some f
  refused : k ≠ f.context ∨ (w.contextAt f.context).contains f.handle = false →
    (w.perform a).answer = .error .deadHandle ∧ (w.perform a).state = w

/-- Building a call site as an activity. -/
private theorem perform_building_site (w : Workspace) {a : Activity} {site : Handle → Role}
    (hrun : a.run =
      (do return .entity (← Action.within (context k) (Context.buildSite site f.handle)))) :
    ((w.contextAt k).IsFunction f.handle ∧
        (w.perform a).answer = .ok (.entity (w.contextAt k).entities.nextHandle) ∧
        (w.perform a).state = (context k).put ((w.contextAt k).insert (site f.handle)) w) ∨
      (¬ (w.contextAt k).IsFunction f.handle ∧ (w.perform a).answer = .error .deadHandle ∧
        (w.perform a).state = w) := by
  unfold perform
  rw [hrun]
  let build : Action Workspace Handle :=
    Action.within (context k) (Context.buildSite site f.handle)
  rcases (w.contextAt k).buildSite_cases site f.handle with
    ⟨hf, hanswer, hstate⟩ | ⟨hf, hanswer, hstate⟩
  · have hbuilt : (build.run.run w).answer = .ok (w.contextAt k).entities.nextHandle := hanswer
    obtain ⟨hanswer', hstate'⟩ := Action.bind_of_ok (fun h => return Reply.entity h) hbuilt
    refine Or.inl ⟨hf, hanswer', hstate'.trans ?_⟩
    exact congrArg (fun c => (context k).put c w) hstate
  · have hrefused : (build.run.run w).answer = .error .deadHandle := hanswer
    obtain ⟨hanswer', hstate'⟩ := Action.bind_of_error (fun h => return Reply.entity h) hrefused
    refine Or.inr ⟨hf, hanswer', hstate'.trans ?_⟩
    exact (congrArg (fun c => (context k).put c w) hstate).trans (put_contextAt k w)

/-- A call site is built exactly if its callee is a function there, and otherwise
nothing happens. -/
theorem perform_builds (hw : (w.contextAt k).Sound) {a : Activity} (ha : a.Builds k f) :
    ((w.contextAt k).IsFunction f.handle ∧ ∃ h, (w.perform a).answer = .ok (.entity h) ∧
        ((w.perform a).state.contextAt k).callee? h = some f.handle ∧
        ((w.perform a).state.contextAt k).IsFunction f.handle) ∨
      (¬ (w.contextAt k).IsFunction f.handle ∧ (w.perform a).answer = .error .deadHandle ∧
        (w.perform a).state = w) := by
  have hbuild : ∃ site : Handle → Role, (site = Role.call ∨ site = Role.invoke) ∧ a.run =
      (do return .entity (← Action.within (context k) (Context.buildSite site f.handle))) := by
    rcases ha with rfl | rfl
    · refine ⟨Role.call, Or.inl rfl, ?_⟩
      simp only [Activity.run, buildCall, Context.buildCall, bind_assoc, pure_bind]
    · refine ⟨Role.invoke, Or.inr rfl, ?_⟩
      simp only [Activity.run, buildInvoke, Context.buildInvoke, bind_assoc, pure_bind]
  obtain ⟨site, hsite, hrun⟩ := hbuild
  refine (w.perform_building_site hrun).imp_left ?_
  rintro ⟨hf, hanswer, hstate⟩
  refine ⟨hf, _, hanswer, ?_⟩
  obtain ⟨name, count, hfunction⟩ := hf
  rw [hstate, contextAt_put, if_pos ⟨rfl, lt_of_role? hfunction⟩]
  have hadmits : (w.contextAt k).Admits (site f.handle) := by
    rcases hsite with rfl | rfl
    · exact ⟨name, count, hfunction⟩
    · exact ⟨name, count, hfunction⟩
  constructor
  · have hrole := Context.role?_insert hw.table (site f.handle)
    rw [Context.callee?_eq_some_iff]
    rcases hsite with rfl | rfl
    · exact Or.inl hrole
    · exact Or.inr hrole
  · have hstays := (Context.Moves.enter _ hadmits).role? hw.table hfunction Move.noConfusion
    exact ⟨name, count, hstays⟩

/-- What comes of a context in a run of the workspace is what comes of it in some
run of its own. -/
theorem exists_contextAt_after (hw : w.Stocked fun _ => True) (k : Nat)
    (later : List Activity) :
    ∃ ops, (w.after later).contextAt k = (w.contextAt k).after ops := by
  have hvalues : ∀ a ∈ later, ∀ v ∈ a.values, True := fun _ _ _ _ => trivial
  by_cases hk : k < w.contexts.length
  · exact ⟨_, (shows_after (fun _ _ => trivial) hw ⟨rfl, hk⟩ later hvalues).contextAt⟩
  · have hle : w.contexts.length ≤ k := Nat.le_of_not_lt hk
    refine ⟨[], ?_⟩
    rw [Context.after_nil, contextAt_of_le hle, contextAt_of_le]
    exact (hw.size_after (fun _ _ => trivial) later hvalues).symm ▸ hle

/-- A call site that answers with its callee as long as both exist, whatever is done. -/
def Calls (w : Workspace) (k : Nat) (h callee : Handle) : Prop :=
  ∀ later, (w.after later).callee? k h =
    if ((w.after later).contextAt k).contains h = true ∧
        ((w.after later).contextAt k).contains callee = true then
      some ⟨k, callee⟩
    else none

theorem calls_of_callee? (hw : w.Stocked fun _ => True) (hsound : (w.contextAt k).Sound)
    (hcallee : (w.contextAt k).callee? h = some callee) : w.Calls k h callee := by
  intro later
  obtain ⟨ops, hafter⟩ := exists_contextAt_after hw k later
  have hstill := Context.callee?_after hsound hcallee ops
  rw [← hafter] at hstill
  unfold callee?
  rcases hstill with hsome | hnone
  · obtain ⟨role, hrole⟩ := Context.exists_role_of_callee? hsome
    simp only [hsome, Context.contains_of_role? hrole, Option.bind_some, true_and]
  · rw [Context.callee?_of_none hnone, Context.contains_of_role?_eq_none hnone]
    simp

/-- Where a call site can be built, it serves its purpose in the function's own context. -/
private theorem serves_of_built {a : Activity} (hf : (w.contextAt k).IsFunction f.handle)
    (hanswer : (w.perform a).answer = .ok (.entity h))
    (hsite : (w.perform a).state.callee? k h = some ⟨k, f.handle⟩) :
    w.Serves k f a ↔ k = f.context := by
  constructor
  · intro hserves
    refine Decidable.byContradiction fun hforeign => ?_
    have hrefused := (hserves.refused (Or.inl hforeign)).1
    rw [hanswer] at hrefused
    cases hrefused
  · rintro rfl
    refine ⟨?_, ?_⟩
    · intro h' hanswer'
      rw [hanswer] at hanswer'
      cases hanswer'
      exact hsite
    · rintro (hforeign | hdead)
      · exact absurd rfl hforeign
      · obtain ⟨name, count, hrole⟩ := hf
        rw [Context.contains_of_role? hrole] at hdead
        cases hdead

private theorem serves_of_refused {a : Activity}
    (hanswer : (w.perform a).answer = .error .deadHandle) (hstate : (w.perform a).state = w) :
    w.Serves k f a where
  callee h hok := by
    rw [hanswer] at hok
    cases hok
  refused _ := ⟨hanswer, hstate⟩

/-- In any workspace that a run leads to, a call site is built exactly if the
handle of its callee is that of a function in the context; it then answers with
this function of the context, as long as both exist, and otherwise nothing
happens. That is as it should be, unless a function of another context was given
that has the handle of a function in this one. -/
theorem serves_iff_own (contexts : Nat) (parameterCounts : List (Option UInt32))
    (activities : List Activity) (k : Nat) (f : Function) {a : Activity} (ha : a.Builds k f) :
    ((reached contexts parameterCounts activities).Serves k f a ↔
        k = f.context ∨
          ¬ ((reached contexts parameterCounts activities).contextAt k).IsFunction f.handle) ∧
      (((reached contexts parameterCounts activities).contextAt k).IsFunction f.handle →
        ∃ h, ((reached contexts parameterCounts activities).perform a).answer = .ok (.entity h) ∧
          ((reached contexts parameterCounts activities).perform a).state.callee? k h =
            some ⟨k, f.handle⟩ ∧
          ((reached contexts parameterCounts activities).perform a).state.Calls k h f.handle) ∧
      (¬ ((reached contexts parameterCounts activities).contextAt k).IsFunction f.handle →
        ((reached contexts parameterCounts activities).perform a).answer = .error .deadHandle ∧
          ((reached contexts parameterCounts activities).perform a).state =
            reached contexts parameterCounts activities) := by
  have hafter : ((reached contexts parameterCounts activities).perform a).state =
      reached contexts parameterCounts (activities ++ [a]) :=
    (after_append (ofCounts contexts parameterCounts) activities [a]).symm
  have hstocked := stocked_of_run contexts parameterCounts (activities ++ [a])
  have hlawful := lawful_reached contexts parameterCounts (activities ++ [a]) k
  rw [← hafter] at hstocked hlawful
  have hbuilt := perform_builds (lawful_reached contexts parameterCounts activities k).sound ha
  generalize reached contexts parameterCounts activities = w at hbuilt hstocked hlawful ⊢
  rcases hbuilt with ⟨hf, h, hanswer, hcallee, hstill⟩ | ⟨hf, hanswer, hstate⟩
  · have hcalls := calls_of_callee? hstocked hlawful.sound hcallee
    have hsite : (w.perform a).state.callee? k h = some ⟨k, f.handle⟩ := by
      obtain ⟨role, hrole⟩ := Context.exists_role_of_callee? hcallee
      obtain ⟨name, count, hfunction⟩ := hstill
      refine (hcalls []).trans (if_pos ⟨?_, ?_⟩)
      · exact Context.contains_of_role? hrole
      · exact Context.contains_of_role? hfunction
    refine ⟨?_, fun _ => ⟨h, hanswer, hsite, hcalls⟩, fun hnot => absurd hf hnot⟩
    rw [serves_of_built hf hanswer hsite]
    exact ⟨Or.inl, fun hown => hown.resolve_right fun hnot => hnot hf⟩
  · refine ⟨?_, fun hyes => absurd hyes hf, fun _ => ⟨hanswer, hstate⟩⟩
    exact ⟨fun _ => Or.inr hf, fun _ => serves_of_refused hanswer hstate⟩

/-- A function is removed, and another one gets its slot. -/
def reusedSlot : List Activity :=
  [.addFunction 0 "f" 0, .removeEntity 0 (.issued 0 0), .addFunction 0 "g" 0]

/-- The function that is gone cannot be called, and the one in its place can. -/
theorem serves_iff_own_reusedSlot :
    (Activity.buildInvoke 0 ⟨0, .issued 0 0⟩).Builds 0 ⟨0, .issued 0 0⟩ ∧
      ((reached 1 [] reusedSlot).perform (.buildInvoke 0 ⟨0, .issued 0 0⟩)).answer =
        .error .deadHandle ∧
      (Activity.buildCall 0 ⟨0, .issued 0 1⟩).Builds 0 ⟨0, .issued 0 1⟩ ∧
      ((reached 1 [] reusedSlot).perform (.buildCall 0 ⟨0, .issued 0 1⟩)).state.callee? 0
        (.issued 1 0) = some ⟨0, .issued 0 1⟩ := by
  have hgone := (serves_iff_own 1 [] reusedSlot 0 ⟨0, .issued 0 0⟩ (Or.inr rfl)).1.mpr (Or.inl rfl)
  have hthere := (serves_iff_own 1 [] reusedSlot 0 ⟨0, .issued 0 1⟩ (Or.inl rfl)).1.mpr (Or.inl rfl)
  refine ⟨Or.inr rfl, (hgone.refused (Or.inr ?_)).1, Or.inl rfl, hthere.callee _ ?_⟩
  · decide
  · decide

/-- Two contexts with one function each. -/
def twoFunctions : List Activity := [.addFunction 0 "f" 0, .addFunction 1 "g" 0]

/-- The second context takes the function of the first one for its own. -/
theorem not_serves_twoFunctions :
    ((reached 2 [] twoFunctions).perform (.buildCall 1 ⟨0, .issued 0 0⟩)).answer =
        .ok (.entity (.issued 1 0)) ∧
      ((reached 2 [] twoFunctions).perform (.buildCall 1 ⟨0, .issued 0 0⟩)).state.callee? 1
        (.issued 1 0) = some ⟨1, .issued 0 0⟩ ∧
      ¬ (reached 2 [] twoFunctions).Serves 1 ⟨0, .issued 0 0⟩ (.buildCall 1 ⟨0, .issued 0 0⟩) := by
  have hanswer : ((reached 2 [] twoFunctions).perform (.buildCall 1 ⟨0, .issued 0 0⟩)).answer =
      .ok (.entity (.issued 1 0)) := by decide
  refine ⟨hanswer, by decide, ?_⟩
  intro hserves
  have hrefused := (hserves.refused (Or.inl (by decide))).1
  rw [hanswer] at hrefused
  cases hrefused

end Workspace

end IRAttributes
