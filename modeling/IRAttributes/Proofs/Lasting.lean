import IRAttributes.Proofs.Departures
import IRAttributes.Proofs.NormalForm
import IRAttributes.Proofs.Padding

/-!
Views that are kept. A view is given out for an index that is in range, and it
stays in range: neither the number of parameters of an entity nor whom a call
site calls ever changes. What can happen is that the entity or its callee is
removed, and then the view is dead for good. As long as both are there, only the
kind of an attribute decides whether it can be added, and what was added is then
found under its key through every view of that index, old or new.
-/
namespace IRAttributes

namespace Context

variable {c c' : Context} {h f : Handle} {index : Index} {count : UInt32} {role : Role}
  {v : Attribute} {later : List Operation}

theorem Path.role?_of_stays {moves : List Move} (hp : c.Path moves c') (hc : c.Sound)
    (hrole : c.role? h = some role) (hstays : .leave h ∉ moves) : c'.role? h = some role := by
  induction hp with
  | nil => exact hrole
  | snoc hp hm ih =>
    simp only [List.mem_append, List.mem_singleton, not_or] at hstays
    exact hm.role? (hp.sound hc).table (ih hstays.1) (Ne.symm hstays.2)

/-- An entity keeps its role until it is removed, and has none from then on. -/
theorem role?_after_cases (hc : c.Sound) (hrole : c.role? h = some role)
    (later : List Operation) :
    (.removeEntity h ∉ later ∧ (c.after later).role? h = some role) ∨
      (.removeEntity h ∈ later ∧ (c.after later).role? h = none) := by
  induction later generalizing c with
  | nil => exact Or.inl ⟨List.not_mem_nil, hrole⟩
  | cons op rest ih =>
    rw [after_cons]
    by_cases hop : op = .removeEntity h
    · subst hop
      refine Or.inr ⟨List.mem_cons_self, role?_of_spent (spent_after (spent_of_removed ?_) rest)⟩
      rw [perform_removeEntity, contains_of_role? hrole]
    · obtain ⟨moves, hpath, hpermits⟩ := c.path_perform op
      have hstays : .leave h ∉ moves := fun hleave => hop (hpermits _ hleave)
      have hnot : ∀ {p : Prop}, Operation.removeEntity h = op ∨ p ↔ p :=
        or_iff_right (Ne.symm hop)
      simp only [List.mem_cons, hnot]
      exact ih (hpath.sound hc) (hpath.role?_of_stays hc hrole hstays)

/-- An entity or the function that it calls is removed by some operations. -/
def Loses (c : Context) (h : Handle) (later : List Operation) : Prop :=
  .removeEntity h ∈ later ∨ ∃ f, c.callee? h = some f ∧ .removeEntity f ∈ later

/-- The number of parameters is the same ever after, until it cannot be counted any more. -/
theorem parameterCount_after_cases (hc : c.Sound) (hcount : c.parameterCount h = .ok count)
    (later : List Operation) :
    (¬ c.Loses h later ∧ (c.after later).HasParameters h count) ∨
      (c.Loses h later ∧ (c.after later).parameterCount h = .error .deadHandle) := by
  rcases hc.hasParameters hcount with ⟨name, hrole⟩ | ⟨f, name, hcallee, hfunction⟩
  · have hnone : c.callee? h = none := by
      cases hcallee : c.callee? h with
      | none => rfl
      | some f =>
        rcases callee?_eq_some_iff.mp hcallee with hsite | hsite
        · rw [hrole] at hsite
          cases hsite
        · rw [hrole] at hsite
          cases hsite
    rcases role?_after_cases hc hrole later with ⟨hstays, hstill⟩ | ⟨hremoved, hgone⟩
    · refine Or.inl ⟨?_, Or.inl ⟨name, hstill⟩⟩
      rintro (hremoved | ⟨f, hf, -⟩)
      · exact hstays hremoved
      · rw [hnone] at hf
        cases hf
    · exact Or.inr ⟨Or.inl hremoved, parameterCount_of_none hgone⟩
  · obtain ⟨role, hrole⟩ := exists_role_of_callee? hcallee
    rcases role?_after_cases hc hrole later with ⟨hstays, hstill⟩ | ⟨hremoved, hgone⟩
    · have hsite : (c.after later).callee? h = some f :=
        (callee?_congr (hstill.trans hrole.symm)).trans hcallee
      rcases role?_after_cases hc hfunction later with ⟨hstays', hstill'⟩ | ⟨hremoved', hgone'⟩
      · refine Or.inl ⟨?_, Or.inr ⟨f, name, hsite, hstill'⟩⟩
        rintro (hremoved | ⟨f', hf', hremoved'⟩)
        · exact hstays hremoved
        · obtain rfl : f = f' := Option.some.inj (hcallee.symm.trans hf')
          exact hstays' hremoved'
      · refine Or.inr ⟨Or.inr ⟨f, hcallee, hremoved'⟩, ?_⟩
        rw [(sound_after hc later).parameterCount_of_callee hsite, parameterCount_of_none hgone']
    · exact Or.inr ⟨Or.inl hremoved, parameterCount_of_none hgone⟩

/-- What a holder grants is the view of an index that is in range. -/
theorem view_of_granted {holder : Holder} {view : Collection Context}
    (hview : (((holder.attributes store).collectionAt index).run.run c).answer = .ok view) :
    view = View.collection store ⟨holder.handle, index⟩ ∧
      ∃ count, c.parameterCount holder.handle = .ok count ∧
        Placement.InRange index (some count) := by
  rcases c.collectionAt_cases holder index with ⟨e, hrefused⟩ | ⟨hgranted, hcount⟩
  · rw [hview] at hrefused
    cases hrefused
  · exact ⟨Except.ok.inj (hview.symm.trans hgranted), hcount⟩

/-- A collection that some holder of an entity grants at an index, in any context. -/
def Granted (h : Handle) (index : Index) (view : Collection Context) : Prop :=
  ∃ (holder : Holder) (c : Context), holder.handle = h ∧
    (((holder.attributes store).collectionAt index).run.run c).answer = .ok view

theorem Granted.eq {view : Collection Context} (hview : Granted h index view) :
    view = View.collection store ⟨h, index⟩ := by
  obtain ⟨holder, c, rfl, hgranted⟩ := hview
  exact (view_of_granted hgranted).1

/-- What becomes of an addition through a view of an index: it is never out of
range, dead handles and illegal kinds are all that can be in the way, and what
was added is the one attribute with its key in every view of that index. -/
structure Adds (view : Collection Context) (h : Handle) (index : Index) (v : Attribute)
    (lost : Prop) (c : Context) : Prop where
  inRange : ∀ position count,
    ((view.add v).run.run c).answer ≠ .error (.parameterOutOfRange position count)
  dead : ((view.add v).run.run c).answer = .error .deadHandle ↔ lost
  illegal : ∀ kind, ((view.add v).run.run c).answer = .error (.illegalPlace kind index) ↔
    ¬ lost ∧ v.kind? = some kind ∧ kind.legalOn index = false
  legal : ((view.add v).run.run c).answer = .ok () ↔ ¬ lost ∧ Placement.Legal v index
  listed : ((view.add v).run.run c).answer = .ok () → ∀ view', Granted h index view' →
    (view'.attributes.peek ((view.add v).run.run c).state).filter
      (fun w => w.key = v.key) = [v]

/-- A check in range is about the kind alone. -/
private theorem check_of_inRange (v : Attribute) (hin : Placement.InRange index (some count)) :
    (∃ kind, v.kind? = some kind ∧ kind.legalOn index = false ∧
        Placement.check v index (some count) = .error (.illegalPlace kind index)) ∨
      (Placement.Legal v index ∧ Placement.check v index (some count) = .ok ()) := by
  by_cases hlegal : Placement.Legal v index
  · exact Or.inr ⟨hlegal, (Placement.check_eq_ok_iff v index (some count)).mpr ⟨hin, hlegal⟩⟩
  · simp only [Placement.Legal, Option.mem_def, not_forall] at hlegal
    obtain ⟨kind, hkind, hillegal⟩ := hlegal
    have hnot := eq_false_of_ne_true hillegal
    exact Or.inl ⟨kind, hkind, hnot, Placement.check_of_illegal hin hkind hnot⟩

/-- Nothing can be added where parameters cannot be counted. -/
private theorem adds_of_uncounted {lost : Prop} (hlost : lost)
    (hcount : c.parameterCount h = .error .deadHandle) (v : Attribute) :
    Adds (View.collection store ⟨h, index⟩) h index v lost c := by
  have hanswer : (((View.collection store ⟨h, index⟩).add v).run.run c).answer =
      .error .deadHandle := (view_add_of_uncounted hcount index v).1
  constructor <;> simp [hanswer, hlost]

/-- An illegal kind is refused for that and nothing else. -/
private theorem adds_of_illegal {lost : Prop} {view : Collection Context} {kind : Kind}
    (hlost : ¬ lost) (hkind : v.kind? = some kind) (hillegal : kind.legalOn index = false)
    (hanswer : ((view.add v).run.run c).answer = .error (.illegalPlace kind index)) :
    Adds view h index v lost c := by
  have hnot : ¬ Placement.Legal v index := fun hlegal =>
    Bool.false_ne_true (hillegal.symm.trans (hlegal kind hkind))
  constructor
  · simp [hanswer]
  · simp [hanswer, hlost]
  · intro kind'
    rw [hanswer]
    constructor
    · intro heq
      cases heq
      exact ⟨hlost, hkind, hillegal⟩
    · rintro ⟨-, hkind', -⟩
      obtain rfl : kind = kind' := Option.some.inj (hkind.symm.trans hkind')
      rfl
  · simp [hanswer, hnot]
  · simp [hanswer]

private theorem adds_of_legal {lost : Prop} {view : Collection Context} (hlost : ¬ lost)
    (hlegal : Placement.Legal v index) (hanswer : ((view.add v).run.run c).answer = .ok ())
    (hlisted : ∀ view', Granted h index view' →
      (view'.attributes.peek ((view.add v).run.run c).state).filter
        (fun w => w.key = v.key) = [v]) :
    Adds view h index v lost c := by
  constructor
  · simp [hanswer]
  · simp [hanswer, hlost]
  · intro kind
    rw [hanswer]
    constructor
    · intro heq
      cases heq
    · rintro ⟨-, hkind, hillegal⟩
      exact absurd (hlegal kind hkind) (Bool.eq_false_iff.mp hillegal)
  · simp [hanswer, hlost, hlegal]
  · exact fun _ => hlisted

/-- Where the entity has the index, the kind alone decides. -/
private theorem adds_of_counted {lost : Prop} (hlost : ¬ lost) (hc : c.Lawful)
    (hparameters : c.HasParameters h count) (hin : Placement.InRange index (some count))
    (hindex : index.raw?.isSome = true) (hv : v.WellFormed) :
    Adds (View.collection store ⟨h, index⟩) h index v lost c := by
  have hcount := hparameters.parameterCount hc.sound
  rcases check_of_inRange v hin with ⟨kind, hkind, hillegal, hcheck⟩ | ⟨hlegal, hcheck⟩
  · exact adds_of_illegal hlost hkind hillegal (view_add_of_error hcount hcheck).1
  · obtain ⟨role, hrole⟩ := hparameters.exists_role
    obtain ⟨c', hput⟩ := exists_put_of_contains (contains_of_role? hrole) hindex v
    have hadded := view_add_of_put hcount hcheck hput
    have hstate : (((View.collection store ⟨h, index⟩).add v).run.run c).state = c' := hadded.2
    have hreads := (stores_iff.mpr hput).reads hc
    rw [hv.normal?_eq] at hreads
    refine adds_of_legal hlost hlegal hadded.1 ?_
    intro view' hview'
    rw [hview'.eq, hstate]
    exact hreads.filter

/-- A view that was granted for a numbered index stays in range for good. From
then on a well-formed attribute is refused by it exactly if the entity or its
callee was removed in the meantime, or else if its kind is illegal there; in
every other case it is added, and every view of that index, whenever it was
granted, lists it as the one attribute with its key. -/
theorem adds_of_granted (ops : List Operation) (holder : Holder) {index : Index}
    (hindex : index.raw?.isSome = true) {view : Collection Context}
    (hview : (((holder.attributes store).collectionAt index).run.run
      (empty.after ops)).answer = .ok view) (later : List Operation) {v : Attribute}
    (hv : v.WellFormed) :
    Adds view holder.handle index v ((empty.after ops).Loses holder.handle later)
      (empty.after (ops ++ later)) := by
  have hsound := sound_reached ops
  obtain ⟨rfl, count, hcount, hin⟩ := view_of_granted hview
  rw [after_append]
  rcases parameterCount_after_cases hsound hcount later with ⟨hstays, hstill⟩ | ⟨hlost, hnone⟩
  · exact adds_of_counted hstays ((lawful_empty.after ops).after later) hstill hin hindex hv
  · exact adds_of_uncounted hlost hnone v

/-- A call of a function with one parameter. -/
def unaryCall : List Operation := [.addFunction "f" 1, .buildCall (.issued 0 0)]

/-- A view of the parameter of the call. -/
def unaryView : Collection Context := View.collection store ⟨.issued 1 0, .parameter 0⟩

/-- The view outlives a change of its index, but not the callee, even if the
next function gets its slot and has more parameters. -/
theorem adds_of_granted_unaryView :
    (Index.parameter 0).raw?.isSome = true ∧ (Attribute.known .alignment (some 8)).WellFormed ∧
      ((((Holder.entity (.issued 1 0)).attributes store).collectionAt (.parameter 0)).run.run
        (empty.after unaryCall)).answer = .ok unaryView ∧
      (unaryView.attributes.peek ((unaryView.add (.known .alignment (some 8))).run.run
        (empty.after (unaryCall ++
          [.onView ⟨.issued 1 0, .parameter 0⟩ (.addPayload .alignment 4)]))).state).filter
            (fun w => w.key = .kind .alignment) = [.known .alignment (some 8)] ∧
      ((unaryView.add (.known .alignment (some 8))).run.run (empty.after (unaryCall ++
        [.removeEntity (.issued 0 0), .addFunction "g" 2]))).answer = .error .deadHandle := by
  have hview : ((((Holder.entity (.issued 1 0)).attributes store).collectionAt
      (.parameter 0)).run.run (empty.after unaryCall)).answer = .ok unaryView := rfl
  have hwell : (Attribute.known .alignment (some 8)).WellFormed := by decide
  have hadds := fun later =>
    adds_of_granted unaryCall (.entity (.issued 1 0)) (by decide) hview later hwell
  refine ⟨by decide, hwell, hview, ?_, ?_⟩
  · refine (hadds _).listed (by decide) unaryView ?_
    exact ⟨.entity (.issued 1 0), empty.after unaryCall, rfl, hview⟩
  · refine (hadds _).dead.mpr (Or.inr ⟨.issued 0 0, ?_, ?_⟩)
    · decide
    · decide

end Context

end IRAttributes
