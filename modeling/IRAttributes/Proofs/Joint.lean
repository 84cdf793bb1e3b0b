import IRAttributes.Proofs.Creation
import IRAttributes.Proofs.Mirror

/-!
An owned set and a new entity of a context under the same requests. They start
out mirroring each other, and every request made of both leaves them mirroring
each other, as does whatever else happens to the context. So the two storages
cannot be told apart by any sequence of requests.
-/
namespace IRAttributes

/-- A request made of an owned set and of an entity at once, or something else that
happens to the context of the entity in between. -/
inductive Joint
  | both (request : SetRequest)
  | aside (op : Operation)

namespace Joint

/-- What the owned set answers to its requests, one after the other. -/
def runOwned : List Joint → Step OwnedSet (List (Except Error Answer))
  | [] => pure []
  | .both request :: rest => do
      let answer ← (request.run OwnedSet.attributeSet).run
      return answer :: (← runOwned rest)
  | .aside _ :: rest => runOwned rest

/-- What the entity answers to the same requests, while everything else goes on. -/
def runStored (e : Handle) : List Joint → Step Context (List (Except Error Answer))
  | [] => pure []
  | .both request :: rest => do
      let answer ← (request.run (Context.store.attributeSet e)).run
      return answer :: (← runStored e rest)
  | .aside op :: rest => do
      let _ ← (op.run Context.host).run
      runStored e rest

/-- Requests go to indices that the subject has and bring well-formed attributes;
what happens in between is not addressed to the subject and does not remove its
callee. -/
def Allowed (subject : Subject) : Joint → Prop
  | .both request => (∃ index, request.index? = some index ∧ index.Within subject.count) ∧
      ∀ v ∈ request.values, v.WellFormed
  | .aside op => (∀ index, ¬ op.Addresses subject.entity index) ∧
      ∀ f ∈ subject.callee, op ≠ .removeEntity f

/-- No index has more attributes than 32 bits can count, neither at the start nor
after any step. -/
def Countable (count : UInt32) (s : OwnedSet) : List Joint → Prop
  | [] => Subject.Fits count s
  | step :: rest => Subject.Fits count s ∧ Countable count ((runOwned [step]).run s).state rest

variable {subject : Subject} {s : OwnedSet} {c : Context}

theorem Countable.of_append {count : UInt32} {before rest : List Joint}
    (h : Countable count s (before ++ rest)) : Countable count s before := by
  induction before generalizing s with
  | nil =>
    cases rest with
    | nil => exact h
    | cons step rest => exact h.1
  | cons step before ih => exact ⟨h.1, ih h.2⟩

theorem run_mirrors (steps : List Joint) (h : subject.Mirrors s c)
    (hsteps : ∀ step ∈ steps, step.Allowed subject) (hsize : Countable subject.count s steps) :
    ((runOwned steps).run s).answer = ((runStored subject.entity steps).run c).answer ∧
      subject.Mirrors ((runOwned steps).run s).state
        ((runStored subject.entity steps).run c).state := by
  induction steps generalizing s c with
  | nil => exact ⟨rfl, h⟩
  | cons step rest ih =>
    have hrest : ∀ step ∈ rest, step.Allowed subject :=
      fun step' hmem => hsteps step' (List.mem_cons_of_mem step hmem)
    have hallowed := hsteps step List.mem_cons_self
    cases step with
    | both request =>
      -- sizes are compared only by readings, and those see the state before the step
      obtain ⟨⟨index, hat, hindex⟩, hvalues⟩ := hallowed
      obtain ⟨hanswer, hmirrors⟩ :=
        Mirror.run_request ⟨h, hsize.1⟩ hat hindex hvalues
      obtain ⟨hanswers, hlast⟩ := ih hmirrors hrest hsize.2
      refine ⟨?_, hlast⟩
      simp only [runOwned, runStored, Step.run_bind, Step.run_pure]
      rw [hanswer, hanswers]
    | aside op =>
      obtain ⟨haddress, hcallee⟩ := hallowed
      obtain ⟨moves, hpath, hpermits⟩ := c.path_perform op
      exact ih (h.elsewhere hpath hpermits haddress hcallee) hrest hsize.2

/-- An owned set and an entity refine each other. Start with an empty set and with an
entity that has no attributes yet, in any context a run leads to: after each part of
any sequence of requests made of both, whatever happens to the rest of the context in
between, both have given the same answers and hold the same attributes in the same
order at every index the entity has. -/
theorem owned_mirrors_stored (ops : List Operation) (e : Handle) (count : UInt32)
    (hparameters : (Context.empty.after ops).HasParameters e count)
    (hfresh : ∀ index : Index, index.Within count → (Context.empty.after ops).native e index = [])
    (steps : List Joint)
    (hsteps : ∀ step ∈ steps, step.Allowed ⟨e, (Context.empty.after ops).callee? e, count⟩)
    (hsize : Countable count OwnedSet.empty steps) :
    ∀ before rest, steps = before ++ rest →
      ((runOwned before).run OwnedSet.empty).answer =
          ((runStored e before).run (Context.empty.after ops)).answer ∧
        ∀ index : Index, index.Within count →
          (((runOwned before).run OwnedSet.empty).state.getOrEmpty index).attributes =
            ((runStored e before).run (Context.empty.after ops)).state.attributes e index := by
  intro before rest hsplit
  have hstart : Subject.Mirrors ⟨e, (Context.empty.after ops).callee? e, count⟩ OwnedSet.empty
      (Context.empty.after ops) := by
    refine ⟨⟨Context.sound_reached ops, hparameters, rfl⟩, hfresh, ?_⟩
    intro index _ v hv
    cases hv
  have hbefore : Countable count OwnedSet.empty before := (hsplit ▸ hsize).of_append
  obtain ⟨hanswers, hmirrors⟩ := run_mirrors before hstart
    (fun step hmem => hsteps step (hsplit ▸ List.mem_append_left rest hmem)) hbefore
  exact ⟨hanswers, fun index hindex => (hmirrors.attributes hindex).symm⟩

theorem owned_mirrors_stored_meanwhile :
    ((runOwned [.both (.add .function (.named "k" "1")), .aside (.addFunction "g" 0),
        .both (.has .function (.name "k"))]).run OwnedSet.empty).answer =
      ((runStored (.issued 0 0) [.both (.add .function (.named "k" "1")),
        .aside (.addFunction "g" 0), .both (.has .function (.name "k"))]).run
          (Context.empty.after [.addFunction "f" 1])).answer := by
  have hfits : Subject.Fits 1 ⟨[⟨.function, [.named "k" "1"]⟩]⟩ := by
    intro index _
    cases index <;>
      simp [OwnedSet.getOrEmpty, OwnedSet.get?, KeyedList.find?, OwnedCollection.empty]
  have hempty : Subject.Fits 1 OwnedSet.empty := by
    intro index _
    exact Nat.zero_lt_succ _
  have hadded : (Context.empty.perform (.addFunction "f" 1)).answer =
      .ok (.entity (.issued 0 0)) := rfl
  have hfresh := Context.native_of_created Context.sound_empty hadded
  refine (owned_mirrors_stored [.addFunction "f" 1] (.issued 0 0) 1 (Or.inl ⟨"f", rfl⟩)
    (fun index _ => hfresh index) _ ?_ ?_ _ [] (List.append_nil _).symm).1
  · intro step hstep
    simp only [List.mem_cons, List.not_mem_nil, or_false] at hstep
    rcases hstep with rfl | rfl | rfl
    · exact ⟨⟨.function, rfl, trivial⟩, by decide⟩
    · exact ⟨fun _ h => h, fun _ h => by cases h⟩
    · exact ⟨⟨.function, rfl, trivial⟩, by decide⟩
  · exact ⟨hempty, hfits, hfits, hfits⟩

end Joint

end IRAttributes
