import IRAttributes.Proofs.Access
import IRAttributes.Proofs.Building
import IRAttributes.Proofs.Copying
import IRAttributes.Proofs.MapLaws

/-!
Shortcuts for additions. A kind can be added without building an attribute first,
with an integer or without, and so can a name with its value. The place is checked
then before there is an attribute, and again when it is added. Where an index is
in range, the kind is all that the place can object to, so the first check finds
what the second one would have found: the shortcut and the detour come to the same
answer, the same effect and the same reports, whatever is wrong.
-/
namespace IRAttributes

variable {σ τ H : Type}

namespace Collection

variable {c : Collection σ} {s : σ} {kind : Kind} {n : UInt64} {v : Attribute}

/-- Adds what a constructor gives, if it gives something. -/
def addBuilt (c : Collection σ) (built : Except Error Attribute) : Action σ Unit := do
  c.add (← Action.ofExcept built)

/-- The three shortcuts are what they are short for, and the integer that was added
is found under its kind. -/
structure Shortcuts (c : Collection σ) (s : σ) : Prop where
  addKind : ∀ kind, (c.addKind kind).run.run s = (c.addBuilt (Attribute.ofKind kind)).run.run s
  addPayload : ∀ kind n, (c.addPayload kind n).run.run s =
    (c.addBuilt (Attribute.ofPayload kind n)).run.run s
  addNamed : ∀ name value, (c.addNamed name value).run.run s =
    (c.addBuilt (Attribute.ofName name value)).run.run s
  find? : ∀ kind n, ((c.addPayload kind n).run.run s).answer = .ok () →
    (c.find? (.kind kind)).peek ((c.addPayload kind n).run.run s).state =
      some (.known kind (some n))

/-- An illegal kind is refused for that, without a trace. -/
def RefusesKinds (c : Collection σ) (s : σ) : Prop :=
  ∀ v kind, v.kind? = some kind → kind.legalOn (c.index s) = false →
    (c.add v).run.run s = ⟨.error (.illegalPlace kind (c.index s)), s, []⟩

theorem RefusesKinds.within {component : Component τ σ} {t : τ}
    (h : c.RefusesKinds (component.get t)) (hput : component.put (component.get t) t = t) :
    (c.within component).RefusesKinds t := by
  intro v kind hkind hillegal
  have hrefused := h v kind hkind hillegal
  have hrun : ((c.within component).add v).run.run t =
      ((c.add v).run.within component).run t := rfl
  rw [hrun, Step.run_within]
  change Outcome.mk ((c.add v).run.run (component.get t)).answer
    (component.put ((c.add v).run.run (component.get t)).state t)
    ((c.add v).run.run (component.get t)).events = _
  rw [hrefused, hput]
  rfl

/-- What is added is legal where illegal kinds are refused. -/
theorem RefusesKinds.legal (h : c.RefusesKinds s) (hdone : ((c.add v).run.run s).answer = .ok ()) :
    Placement.Legal v (c.index s) := by
  intro kind hkind
  refine eq_true_of_ne_false fun hillegal => ?_
  rw [h v kind hkind hillegal] at hdone
  cases hdone

theorem RefusesKinds.run_addBuilt (h : c.RefusesKinds s) (hkind : v.kind? = some kind) {e : Error}
    (he : Placement.checkKind kind (c.index s) = .error e) :
    (c.addBuilt (.ok v)).run.run s = ⟨.error e, s, []⟩ := by
  unfold Placement.checkKind at he
  split at he
  · cases he
  · rename_i hillegal
    cases he
    exact h v kind hkind (eq_false_of_ne_true hillegal)

/-- A check of the place that finds nothing new is not noticed. -/
theorem run_checkedAdd (check : Index → Except Error Unit) (built : Except Error Attribute)
    (h : ∀ e, check (c.index s) = .error e →
      (c.addBuilt built).run.run s = ⟨.error e, s, []⟩) :
    (do
      Action.ofExcept (check (← Action.read c.index))
      c.add (← Action.ofExcept built) : Action σ Unit).run.run s =
      (c.addBuilt built).run.run s := by
  have hread : (do
      Action.ofExcept (check (← Action.read c.index))
      c.add (← Action.ofExcept built) : Action σ Unit).run.run s =
        (Action.ofExcept (check (c.index s)) >>= fun _ => c.addBuilt built).run.run s := rfl
  rw [hread]
  cases hcheck : check (c.index s) with
  | error e =>
    rw [h e hcheck]
    rfl
  | ok u => rfl

theorem RefusesKinds.run_addKind (h : c.RefusesKinds s) (kind : Kind) :
    (c.addKind kind).run.run s = (c.addBuilt (Attribute.ofKind kind)).run.run s := by
  refine run_checkedAdd (Placement.checkFlag kind) (Attribute.ofKind kind) ?_
  intro e he
  unfold Placement.checkFlag at he
  unfold Attribute.ofKind
  split at he
  · rename_i htakes
    cases he
    rw [if_pos htakes]
    rfl
  · rename_i htakes
    rw [if_neg htakes]
    exact h.run_addBuilt rfl he

theorem RefusesKinds.run_addPayload (h : c.RefusesKinds s) (kind : Kind) (n : UInt64) :
    (c.addPayload kind n).run.run s = (c.addBuilt (Attribute.ofPayload kind n)).run.run s := by
  refine run_checkedAdd (Placement.checkPayload kind) (Attribute.ofPayload kind n) ?_
  intro e he
  unfold Placement.checkPayload at he
  unfold Attribute.ofPayload
  split at he
  · rename_i htakes
    rw [if_pos htakes]
    exact h.run_addBuilt rfl he
  · rename_i htakes
    cases he
    rw [if_neg htakes]
    rfl

/-- Where illegal kinds are refused, it is enough that what is added is found. -/
theorem RefusesKinds.shortcuts (h : c.RefusesKinds s)
    (hfound : ∀ v, v.WellFormed → ((c.add v).run.run s).answer = .ok () →
      (c.find? v.key).peek ((c.add v).run.run s).state = some v) : c.Shortcuts s where
  addKind := h.run_addKind
  addPayload := h.run_addPayload
  addNamed _ _ := rfl
  find? kind n := by
    rw [h.run_addPayload]
    cases hbuilt : Attribute.ofPayload kind n with
    | error e =>
      intro hdone
      cases hdone
    | ok v =>
      intro hdone
      have hv := hfound v (Attribute.wellFormed_of_ofPayload hbuilt) hdone
      have heq : v = .known kind (some n) := by
        unfold Attribute.ofPayload at hbuilt
        split at hbuilt
        · exact (Except.ok.inj hbuilt).symm
        · cases hbuilt
      subst heq
      exact hv

end Collection

theorem OwnedCollection.refusesKinds (c : OwnedCollection) : collection.RefusesKinds c := by
  intro v kind hkind hillegal
  have hin : Placement.InRange c.index none := by cases c.index <;> trivial
  have hcheck := Placement.check_of_illegal hin hkind hillegal
  have hadd : (add v).run.run c = ⟨.error (.illegalPlace kind c.index), c, []⟩ := by
    simp only [add, ExceptT.run_mk, hcheck]
  exact hadd

/-- A view of an index that is in range. -/
theorem View.refusesKinds {S : Store σ H} {s : σ} {view : View H} {count : UInt32}
    (hcount : (S.parameterCount view.entity).run.run s = ⟨.ok count, s, []⟩)
    (hin : Placement.InRange view.index (some count)) : (view.collection S).RefusesKinds s := by
  intro v kind hkind hillegal
  have hchecked : (Action.ofExcept (Placement.check v view.index (some count)) :
      Action σ Unit).run.run s = ⟨.error (.illegalPlace kind view.index), s, []⟩ := by
    rw [Placement.check_of_illegal hin hkind hillegal]
    rfl
  refine (Action.run_bind_of_ok _ hcount).trans ?_
  rw [Action.run_bind_of_error _ hchecked]
  rfl

namespace CollectionRef

open Workspace

variable {w : Workspace} {k : Nat} {view : View Handle}

/-- Some set gives out the view. -/
def Grants (w : Workspace) (k : Nat) (view : View Handle) : Prop :=
  ∃ (set : SetRef) (index : Index),
    ((set.collectionAt index).run.run w).answer = .ok (.view k view)

/-- A collection that exists at the end of a run: an owned one, one that an owned set
has at an index, or a view that was given out in the course of the run and whose
entity is there, as is its callee if it is a call site. -/
def Exists (contexts : Nat) (parameterCounts : List (Option UInt32))
    (activities : List Activity) : CollectionRef → Prop
  | .view k view =>
      (∃ earlier later, activities = earlier ++ later ∧
        Grants (reached contexts parameterCounts earlier) k view) ∧
      ∃ count, ((reached contexts parameterCounts activities).contextAt k).HasParameters
        view.entity count
  | .recordedView _ _ => False
  | .owned n => n < (reached contexts parameterCounts activities).collections.length
  | .ownedAt n index =>
      (ownedAt n index).accessed (reached contexts parameterCounts activities) = true

theorem inRange_of_grants (h : Grants w k view) :
    ∃ count, (w.contextAt k).parameterCount view.entity = .ok count ∧
      Placement.InRange view.index (some count) := by
  obtain ⟨set, index, hgranted⟩ := h
  cases hreached : ((set.attributes.collectionAt index).run.run w).answer with
  | error e =>
    have hanswer := (Action.bind_of_error (fun _ => pure (set.place index)) hreached).1
    cases hanswer.symm.trans hgranted
  | ok d =>
    have hanswer := (Action.bind_of_ok (fun _ => pure (set.place index)) hreached).1
    have hplace : set.place index = .view k view := Except.ok.inj (hanswer.symm.trans hgranted)
    rcases set.holder_cases with ⟨k', holder, -, hattributes, hview⟩ | ⟨n, e, rfl⟩ | ⟨n, rfl⟩
    · rw [hview] at hplace
      cases hplace
      rw [hattributes] at hreached
      obtain ⟨d', hd'⟩ := (granted_context w k holder index).mp ⟨d, hreached⟩
      exact (Context.view_of_granted hd').2
    · cases hplace
    · cases hplace

/-- A view that was given out is still of an index that is in range, if its entity is
there with its callee. -/
theorem inRange_of_exists {contexts : Nat} {parameterCounts : List (Option UInt32)}
    {activities : List Activity}
    (h : (CollectionRef.view k view).Exists contexts parameterCounts activities) :
    ∃ count, ((reached contexts parameterCounts activities).contextAt k).HasParameters
        view.entity count ∧ Placement.InRange view.index (some count) := by
  obtain ⟨⟨earlier, later, rfl, hgranted⟩, count, hparameters⟩ := h
  obtain ⟨declared, hcount, hin⟩ := inRange_of_grants hgranted
  have hsound := (lawful_reached contexts parameterCounts earlier k).sound
  have hstocked := stocked_of_run contexts parameterCounts earlier
  obtain ⟨ops, hafter⟩ := exists_contextAt_after hstocked k later
  have hreached : reached contexts parameterCounts (earlier ++ later) =
      (reached contexts parameterCounts earlier).after later :=
    after_append _ earlier later
  rw [hreached, hafter] at hparameters ⊢
  rcases Context.parameterCount_after_cases hsound hcount ops with ⟨-, hstill⟩ | ⟨-, hdead⟩
  · exact ⟨declared, hstill, hin⟩
  · have hcounted := hparameters.parameterCount (Context.sound_after hsound ops)
    rw [hdead] at hcounted
    cases hcounted

/-- What is added to a collection of some shelf is found. -/
theorem find?_of_added {r : CollectionRef} (hrefuses : r.collection.RefusesKinds w)
    (hshelved : r.collection.Shelved w) {v : Attribute} (hv : v.WellFormed)
    (hdone : ((r.collection.add v).run.run w).answer = .ok ()) :
    (r.collection.find? v.key).peek ((r.collection.add v).run.run w).state = some v := by
  obtain ⟨ν, κ, _, form, place, I, hshelves, hw⟩ := hshelved
  rw [hshelves.find?_of_add hw hv (hrefuses.legal hdone), if_pos rfl]

/-- Nothing can be added under an index without a number. -/
theorem numbered_of_added (hk : k < w.contexts.length) {v : Attribute}
    (hdone : (((CollectionRef.view k view).collection.add v).run.run w).answer = .ok ()) :
    view.index.raw?.isSome = true := by
  have hadded : ((View.add Context.store view v).run.run (w.contextAt k)).answer = .ok () :=
    ((fits_context hk).run_view_add Context.store view v).1.symm.trans hdone
  rcases (w.contextAt k).view_add_cases view.entity view.index v with
    ⟨e, herror, -⟩ | ⟨count, c', -, -, hput, -⟩
  · cases hadded.symm.trans herror
  · cases Context.moves_put hput with
    | put _ _ _ hindex => exact hindex

/-- An index that was accessed is one of a set that exists. -/
theorem lt_of_accessed {n : Nat} {index : Index} (h : (ownedAt n index).accessed w = true) :
    n < w.sets.length := by
  apply Nat.lt_of_not_le
  intro hle
  have hempty : w.getSet n = .empty := by
    change (w.sets[n]?).getD .empty = .empty
    rw [List.getElem?_eq_none hle, Option.getD_none]
  have hsome : ((w.getSet n).get? index).isSome = true := h
  rw [hempty] at hsome
  cases hsome

section

variable {contexts : Nat} {parameterCounts : List (Option UInt32)} {activities : List Activity}
  {r : CollectionRef}

theorem refusesKinds_of_exists (hr : r.Exists contexts parameterCounts activities) :
    r.collection.RefusesKinds (reached contexts parameterCounts activities) := by
  cases r with
  | view k view =>
    obtain ⟨count, hparameters, hin⟩ := inRange_of_exists hr
    have hsound := (lawful_reached contexts parameterCounts activities k).sound
    refine View.refusesKinds ?_ hin
    rw [run_parameterCount, hparameters.parameterCount hsound]
  | recordedView n view => exact hr.elim
  | owned n => exact (OwnedCollection.refusesKinds _).within (fits_ownedCollection hr).put_get
  | ownedAt n index =>
    have hbeside : Beside _ none _ _ := (stocked_of_run contexts parameterCounts activities).beside
    obtain ⟨d, hd⟩ := Option.isSome_iff_exists.mp hr
    have hsame := OwnedSet.access_of_get? (hbeside.getSet n).ascending hd
    exact ((OwnedCollection.refusesKinds _).within hsame).within
      (fits_ownedSet (lt_of_accessed hr)).put_get

/-- Where something can be added, attributes can be kept. -/
theorem open_of_added (hr : r.Exists contexts parameterCounts activities) {v : Attribute}
    (hdone : ((r.collection.add v).run.run
      (reached contexts parameterCounts activities)).answer = .ok ()) :
    r.Open (reached contexts parameterCounts activities) := by
  cases r with
  | view k view =>
    obtain ⟨count, hparameters, hin⟩ := inRange_of_exists hr
    obtain ⟨role, hrole⟩ := hparameters.exists_role
    exact ⟨count, hparameters,
      Index.within_of_raw hin (numbered_of_added (lt_of_role? hrole) hdone)⟩
  | recordedView n view => exact hr.elim
  | owned n => exact hr
  | ownedAt n index => exact lt_of_accessed hr

end

/-- After any run, for every collection that exists: a shortcut does and reports what
building the attribute and adding it does and reports, down to the error that comes
first, and an integer that was added is found under its kind. -/
theorem shortcuts_of_run (contexts : Nat) (parameterCounts : List (Option UInt32))
    (activities : List Activity) {r : CollectionRef}
    (hr : r.Exists contexts parameterCounts activities) :
    r.collection.Shortcuts (reached contexts parameterCounts activities) := by
  have hrefuses := refusesKinds_of_exists hr
  refine hrefuses.shortcuts ?_
  intro v hv hdone
  have hshelved := shelved_of_run contexts parameterCounts activities (open_of_added hr hdone)
  exact find?_of_added hrefuses hshelved hv hdone

/-- A function whose parameter was aligned after a view of it was given out. -/
def alignedParameter : List Activity :=
  [.addFunction 0 "f" 1,
    .onSet (.function ⟨0, .issued 0 0⟩) (.addPayload (.parameter 0) .alignment 4)]

/-- A flag of functions with an integer is wrong in two ways, of which both additions
name the same; the greatest integer there is comes back. -/
theorem shortcuts_of_run_alignedParameter :
    (CollectionRef.view 0 ⟨.issued 0 0, .parameter 0⟩).Exists 1 [] alignedParameter ∧
      (((CollectionRef.view 0 ⟨.issued 0 0, .parameter 0⟩).collection.addPayload .cold 1).run.run
        (reached 1 [] alignedParameter)).answer = .error (.payloadNotTaken .cold) ∧
      ((CollectionRef.view 0 ⟨.issued 0 0, .parameter 0⟩).collection.find?
        (.kind .alignment)).peek (((CollectionRef.view 0
          ⟨.issued 0 0, .parameter 0⟩).collection.addPayload .alignment
            18446744073709551615).run.run (reached 1 [] alignedParameter)).state =
          some (.known .alignment (some 18446744073709551615)) := by
  have hexists : (CollectionRef.view 0 ⟨.issued 0 0, .parameter 0⟩).Exists 1 []
      alignedParameter := by
    refine ⟨⟨[.addFunction 0 "f" 1], _, rfl, ?_⟩, 1, Or.inl ⟨"f", rfl⟩⟩
    exact ⟨.function ⟨0, .issued 0 0⟩, .parameter 0, rfl⟩
  have hshortcuts := shortcuts_of_run 1 [] alignedParameter hexists
  refine ⟨hexists, ?_, ?_⟩
  · rw [hshortcuts.addPayload]
    rfl
  · exact hshortcuts.find? .alignment 18446744073709551615 rfl

end CollectionRef

end IRAttributes
