import IRAttributes.Proofs.Stock

/-!
What a run of a workspace is for one of its contexts. An activity comes to at
most one operation, on one context; what it copies from elsewhere has become a
list of attributes by then. So what a run makes of a context is what the
operations make of it that the activities come to, and everything that is known
about runs of contexts holds in workspaces.
-/
namespace IRAttributes

variable {σ α β : Type}

/-- Turning the result into something else leaves the state alone. -/
theorem Action.state_map (x : Action σ α) (f : α → β) (s : σ) :
    ((do return f (← x) : Action σ β).run.run s).state = (x.run.run s).state := by
  cases hx : (x.run.run s).answer with
  | error e => exact (Action.bind_of_error (fun a => pure (f a)) hx).2
  | ok a => exact (Action.bind_of_ok (fun a => pure (f a)) hx).2

/-- The attributes at an index, if the set gives access to it. -/
def AttributeSet.held (S : AttributeSet σ) (index : Index) : Action σ (List Attribute) := do
  (← S.collectionAt index).attributes

theorem AttributeSet.addFrom_eq (S T : AttributeSet σ) (index : Index) :
    S.addFrom index T = (do S.addAll index (← T.held index)) := by
  simp only [addFrom, addCollection, held, bind_assoc]

/-- An operation on the holder in a context that a set belongs to. -/
def SetRef.operation? (r : SetRef) (f : Holder → Operation) : Option (Nat × Operation) :=
  r.holder?.map fun (k, holder) => (k, f holder)

namespace Activity

/-- The operation that an activity comes to, and the context it is carried out on. -/
def operation? (w : Workspace) : Activity → Option (Nat × Operation)
  | .addFunction k name parameterCount => some (k, .addFunction name parameterCount)
  | .buildCall k callee => some (k, .buildCall callee.handle)
  | .buildInvoke k callee => some (k, .buildInvoke callee.handle)
  | .removeEntity k h => some (k, .removeEntity h)
  | .onStore k h request => some (k, .onStore h request)
  | .onSet r request => r.operation? (.onSet · request)
  | .onCollection (.view k v) request => some (k, .onView v request)
  | .setAlignment a alignment =>
      some (a.function.context, .setAlignment a.function.handle a.position alignment)
  | .addCollection target index source =>
      target.operation? (.onSet · (.addAll index (source.collection.attributes.peek w)))
  | .addFrom target index source =>
      match (source.attributes.held index).run.peek w with
      | .ok vs => target.operation? (.onSet · (.addAll index vs))
      | .error _ => none
  | .apply source target => target.operation? (.applySet (w.getSet source))
  | _ => none

/-- The operations on a context that an activity comes to, none or one. -/
def operations (k : Nat) (w : Workspace) (a : Activity) : List Operation :=
  match a.operation? w with
  | some (k', op) => if k' = k then [op] else []
  | none => []

end Activity

namespace Workspace

/-- A context as part of the workspace, with everything it offers. -/
def host (k : Nat) : Host Workspace where
  toStore := contextStore k
  addFunction name parameterCount := (Context.addFunction name parameterCount).within (context k)
  buildCall callee := Action.within (context k) (Context.buildCall callee)
  buildInvoke callee := Action.within (context k) (Context.buildInvoke callee)
  removeEntity h := (Context.remove h).within (context k)

/-- The workspace shows a context under a number. -/
structure Shows (k : Nat) (w : Workspace) (c : Context) : Prop where
  contextAt : w.contextAt k = c
  lt : k < w.contexts.length

variable {k : Nat} {w w' : Workspace} {c : Context}

/-- Inside and outside of the workspace a context gives the same answers. -/
private theorem related_context {Q : α → α → Prop} (hQ : ∀ a, Q a a) (x : Step Context α) :
    Step.Related (Shows k) Q (x.within (context k)) x := by
  rintro w c ⟨rfl, hlt⟩
  refine ⟨hQ _, ?_, ?_⟩
  · rw [Step.run_within, contextAt_put, if_pos ⟨rfl, hlt⟩]
    rfl
  · exact List.length_set.symm ▸ hlt

theorem host_reads (h : Handle) (index : Index) :
    (contextStore k).Reads (Shows k) (fun _ => True) Context.store h index where
  parameterCount := related_context Action.agree_self _
  count := related_context (fun _ => rfl) _
  attributes := related_context (fun _ => ⟨rfl, fun _ _ => trivial⟩) _
  find? _ := related_context (fun _ => rfl) _

theorem host_writes (h : Handle) (index : Index) :
    (contextStore k).Writes (Shows k) (fun _ => True) Context.store h index where
  parameterCount := related_context Action.agree_self _
  add _ _ := related_context Action.agree_self _
  remove _ := related_context (fun _ => rfl) _

theorem host_related (op : Operation) :
    Host.Related (Shows k) (fun _ => True) (host k) Context.host op where
  wellFormed _ _ := trivial
  values _ _ := trivial
  addFunction _ _ _ := related_context (fun _ => rfl) _
  buildCall _ _ := related_context Action.agree_self _
  buildInvoke _ _ := related_context Action.agree_self _
  removeEntity _ _ := related_context (fun _ => rfl) _
  reads h index := host_reads h index
  direct h request _ :=
    request.run_related (fun _ _ => trivial) (host_reads h) fun index _ => host_writes h index
  views h index _ := (host_writes h index).view

theorem shows_run (h : w.Shows k c) (op : Operation) :
    Shows k ((op.run (host k)).run.run w).state (c.perform op).state :=
  (Operation.run_related (host_related op) w c h).2

variable {P : Attribute → Prop} {a : Activity} {op : Operation}

/-- Reading at a place leaves all contexts as they are. -/
private theorem shows_read (hP : ∀ v, v.WellFormed → P v) (hw : w.Stocked P) (h : w.Shows k c)
    (r : CollectionRef) : Shows k (r.collection.attributes.run w).state c := by
  have hkept : Beside P none w (r.collection.attributes.run w).state :=
    (r.reads hP).attributes.kept hw.beside
  exact ⟨(hkept.contextAt k (by simp)).trans h.contextAt, hkept.size.symm ▸ h.lt⟩

private theorem related_held (hP : ∀ v, v.WellFormed → P v) (r : SetRef) (index : Index) :
    Action.Related (Diagonal (Beside P none w)) (SharedList P) (r.attributes.held index)
      (r.attributes.held index) := by
  refine Action.Related.bind (r.reads hP index).collectionAt ?_
  intro c d hcd
  exact Action.Related.lift hcd.attributes

private theorem shows_held (hP : ∀ v, v.WellFormed → P v) (hw : w.Stocked P) (h : w.Shows k c)
    (r : SetRef) (index : Index) : Shows k ((r.attributes.held index).run.run w).state c := by
  have hheld := related_held (w := w) hP r index
  have hkept : Beside P none w ((r.attributes.held index).run.run w).state :=
    Step.Related.kept hheld hw.beside
  exact ⟨(hkept.contextAt k (by simp)).trans h.contextAt, hkept.size.symm ▸ h.lt⟩

private theorem holder_of_operation? {r : SetRef} {f : Holder → Operation}
    (h : r.operation? f = some (k, op)) :
    ∃ holder, r.context? = some k ∧ r.attributes = holder.attributes (contextStore k) ∧
      op = f holder := by
  rcases r.holder_cases with ⟨k', holder, hholder, hattributes, -⟩ | ⟨n, entity, rfl⟩ | ⟨n, rfl⟩
  · rw [SetRef.operation?, hholder, Option.map_some] at h
    cases h
    exact ⟨holder, by rw [SetRef.context?, hholder, Option.map_some], hattributes, rfl⟩
  · cases h
  · cases h

/-- An operation that adds a function, or goes directly to the store, does so
because the activity does. -/
theorem origin_of_operation? (hop : a.operation? w = some (k, op)) :
    (∀ name count, op = .addFunction name count → a = .addFunction k name count) ∧
      ∀ h request, op = .onStore h request → a = .onStore k h request := by
  cases a with
  | addFunction | buildCall | buildInvoke | removeEntity | onStore | setAlignment =>
    cases hop
    refine ⟨?_, ?_⟩ <;> intro _ _ heq <;> cases heq <;> rfl
  | onSet r request =>
    rw [Activity.operation?] at hop
    obtain ⟨holder, -, -, rfl⟩ := holder_of_operation? hop
    exact ⟨fun _ _ => Operation.noConfusion, fun _ _ => Operation.noConfusion⟩
  | onCollection r request =>
    cases r with
    | view k' v =>
      cases hop
      exact ⟨fun _ _ => Operation.noConfusion, fun _ _ => Operation.noConfusion⟩
    | recordedView | owned | ownedAt => cases hop
  | addCollection target index source =>
    rw [Activity.operation?] at hop
    obtain ⟨holder, -, -, rfl⟩ := holder_of_operation? hop
    exact ⟨fun _ _ => Operation.noConfusion, fun _ _ => Operation.noConfusion⟩
  | addFrom target index source =>
    simp only [Activity.operation?] at hop
    split at hop
    · obtain ⟨holder, -, -, rfl⟩ := holder_of_operation? hop
      exact ⟨fun _ _ => Operation.noConfusion, fun _ _ => Operation.noConfusion⟩
    · cases hop
  | apply source target =>
    rw [Activity.operation?] at hop
    obtain ⟨holder, -, -, rfl⟩ := holder_of_operation? hop
    exact ⟨fun _ _ => Operation.noConfusion, fun _ _ => Operation.noConfusion⟩
  | newSet | copySet | newCollection | copyCollection | copyAt | onRecorder | reach | merge =>
    cases hop

/-- Adding a list of attributes as an operation. -/
private theorem state_run_addAll (holder : Holder) (index : Index) (vs : List Attribute)
    (w : Workspace) :
    (((Operation.onSet holder (.addAll index vs)).run (host k)).run.run w).state =
      (((holder.attributes (contextStore k)).addAll index vs).run.run w).state := by
  rw [Operation.run, Action.state_map, SetRequest.run, Action.state_map]
  rfl

/-- An activity that comes to an operation changes the context as the operation does. -/
theorem shows_perform (hP : ∀ v, v.WellFormed → P v) (hw : w.Stocked P) (h : w.Shows k c)
    (hop : a.operation? w = some (k, op)) : Shows k (w.perform a).state (c.perform op).state := by
  cases a with
  | addFunction k' name count =>
    cases hop
    exact shows_run h (.addFunction name count)
  | buildCall k' callee =>
    cases hop
    have hstate : (w.perform (.buildCall k callee)).state =
        (((Operation.buildCall callee.handle).run (host k)).run.run w).state := by
      simp only [perform, Activity.run, buildCall, Operation.run, host, Action.state_map]
    rw [hstate]
    exact shows_run h _
  | buildInvoke k' callee =>
    cases hop
    have hstate : (w.perform (.buildInvoke k callee)).state =
        (((Operation.buildInvoke callee.handle).run (host k)).run.run w).state := by
      simp only [perform, Activity.run, buildInvoke, Operation.run, host, Action.state_map]
    rw [hstate]
    exact shows_run h _
  | removeEntity k' e =>
    cases hop
    exact shows_run h (.removeEntity e)
  | onStore k' e request =>
    cases hop
    exact shows_run h (.onStore e request)
  | onSet r request =>
    rw [Activity.operation?] at hop
    obtain ⟨holder, -, hattributes, rfl⟩ := holder_of_operation? hop
    have hrun : (Activity.onSet r request).run = (Operation.onSet holder request).run (host k) := by
      simp only [Activity.run, Operation.run, hattributes]
      rfl
    rw [perform, hrun]
    exact shows_run h _
  | onCollection r request =>
    cases r with
    | view k' v =>
      cases hop
      exact shows_run h (.onView v request)
    | recordedView | owned | ownedAt => cases hop
  | setAlignment a alignment =>
    cases hop
    have hrun : (Activity.setAlignment a alignment).run =
        (Operation.setAlignment a.function.handle a.position alignment).run
          (host a.function.context) := by
      simp only [Activity.run, Argument.setAlignment, Operation.run, bind_assoc, pure_bind]
      rfl
    rw [perform, hrun]
    exact shows_run h _
  | addCollection target index source =>
    rw [Activity.operation?] at hop
    obtain ⟨holder, -, hattributes, rfl⟩ := holder_of_operation? hop
    have hread : ((liftM source.collection.attributes : Action Workspace _).run.run w).answer =
        .ok (source.collection.attributes.peek w) := rfl
    have hrest := (Action.bind_of_ok (target.attributes.addAll index) hread).2
    have hstate : (w.perform (.addCollection target index source)).state =
        (((holder.attributes (contextStore k)).addAll index
          (source.collection.attributes.peek w)).run.run
            (source.collection.attributes.run w).state).state := by
      rw [← hattributes]
      exact (Action.state_map _ _ w).trans hrest
    rw [hstate, ← state_run_addAll]
    exact shows_run (shows_read hP hw h source) _
  | addFrom target index source =>
    simp only [Activity.operation?] at hop
    split at hop
    · rename_i vs hread
      obtain ⟨holder, -, hattributes, rfl⟩ := holder_of_operation? hop
      have hrest := (Action.bind_of_ok (target.attributes.addAll index) hread).2
      have hstate : (w.perform (.addFrom target index source)).state =
          (((holder.attributes (contextStore k)).addAll index vs).run.run
            ((source.attributes.held index).run.run w).state).state := by
        rw [← hattributes, perform, Activity.run, Action.state_map, AttributeSet.addFrom_eq]
        exact hrest
      rw [hstate, ← state_run_addAll]
      exact shows_run (shows_held hP hw h source index) _
    · cases hop
  | apply source target =>
    rw [Activity.operation?] at hop
    obtain ⟨holder, -, hattributes, rfl⟩ := holder_of_operation? hop
    have hrun : (w.perform (.apply source target)).state =
        (((Operation.applySet (w.getSet source) holder).run (host k)).run.run w).state := by
      rw [perform, Activity.run, Action.state_map, apply, hattributes, Operation.run,
        Action.state_map]
      rfl
    rw [hrun]
    exact shows_run h _
  | newSet | copySet | newCollection | copyCollection | copyAt | onRecorder | reach | merge =>
    cases hop

/-- Only copying from a set that refuses comes to nothing although a context is addressed. -/
private theorem operation?_cases (w : Workspace) (hcontext : a.context? = some k) :
    (∃ op, a.operation? w = some (k, op)) ∨
      ∃ target index source e, a = .addFrom target index source ∧
        ((source.attributes.held index).run.run w).answer = .error e := by
  have hholder : ∀ (r : SetRef) (f : Holder → Operation), r.context? = some k →
      ∃ op, r.operation? f = some (k, op) := by
    intro r f hr
    obtain ⟨⟨k', holder⟩, hholder, rfl⟩ := Option.map_eq_some_iff.mp hr
    exact ⟨f holder, by rw [SetRef.operation?, hholder, Option.map_some]⟩
  cases a with
  | addFunction | buildCall | buildInvoke | removeEntity | onStore | setAlignment =>
    cases hcontext
    exact Or.inl ⟨_, rfl⟩
  | onSet r request =>
    rw [Activity.operation?]
    exact Or.inl (hholder r _ hcontext)
  | onCollection r request =>
    cases r with
    | view k' v =>
      cases hcontext
      exact Or.inl ⟨_, rfl⟩
    | recordedView | owned | ownedAt => cases hcontext
  | addCollection target index source =>
    rw [Activity.operation?]
    exact Or.inl (hholder target _ hcontext)
  | addFrom target index source =>
    simp only [Activity.operation?]
    cases hread : (source.attributes.held index).run.peek w with
    | error e => exact Or.inr ⟨target, index, source, e, rfl, hread⟩
    | ok vs => exact Or.inl (hholder target _ hcontext)
  | apply source target => exact Or.inl (hholder target _ hcontext)
  | newSet | copySet | newCollection | copyCollection | copyAt | onRecorder | reach | merge =>
    cases hcontext

/-- An activity that comes to no operation on a context leaves it as it is. -/
theorem shows_perform_other (hP : ∀ v, v.WellFormed → P v) (hw : w.Stocked P) (h : w.Shows k c)
    (hvalues : ∀ v ∈ a.values, P v) (hop : ∀ op, a.operation? w ≠ some (k, op)) :
    Shows k (w.perform a).state c := by
  by_cases hcontext : a.context? = some k
  · rcases operation?_cases w hcontext with ⟨op, hsome⟩ | ⟨target, index, source, e, rfl, hread⟩
    · exact absurd hsome (hop op)
    · have hrest := (Action.bind_of_error (target.attributes.addAll index) hread).2
      have hstate : (w.perform (.addFrom target index source)).state =
          ((source.attributes.held index).run.run w).state := by
        rw [perform, Activity.run, Action.state_map, AttributeSet.addFrom_eq]
        exact hrest
      rw [hstate]
      exact shows_held hP hw h source index
  · have hkept := hw.perform hP hvalues
    exact ⟨(hkept.contextAt k hcontext).trans h.contextAt, hkept.size.symm ▸ h.lt⟩

theorem shows_operations (hP : ∀ v, v.WellFormed → P v) (hw : w.Stocked P) (h : w.Shows k c)
    (hvalues : ∀ v ∈ a.values, P v) :
    Shows k (w.perform a).state (c.after (a.operations k w)) := by
  unfold Activity.operations
  split
  · rename_i k' op hop
    split
    · rename_i hk
      subst hk
      exact shows_perform hP hw h hop
    · rename_i hk
      refine shows_perform_other hP hw h hvalues ?_
      intro op' hop'
      rw [hop] at hop'
      cases hop'
      exact hk rfl
  · rename_i hop
    refine shows_perform_other hP hw h hvalues ?_
    intro op' hop'
    rw [hop] at hop'
    cases hop'

/-- The operations on a context that a run comes to. -/
def operations (k : Nat) : Workspace → List Activity → List Operation
  | _, [] => []
  | w, a :: rest => a.operations k w ++ operations k (w.perform a).state rest

/-- What a run of the workspace makes of a context is what the operations it
comes to make of it. -/
theorem shows_after (hP : ∀ v, v.WellFormed → P v) (hw : w.Stocked P) (h : w.Shows k c)
    (activities : List Activity) (hvalues : ∀ a ∈ activities, ∀ v ∈ a.values, P v) :
    Shows k (w.after activities) (c.after (w.operations k activities)) := by
  induction activities generalizing w c with
  | nil => exact h
  | cons a rest ih =>
    have hfirst := hvalues a List.mem_cons_self
    rw [operations, Context.after_append]
    refine ih (hw.perform hP hfirst).stocked (shows_operations hP hw h hfirst) ?_
    intro b hb
    exact hvalues b (List.mem_cons_of_mem a hb)

/-- From a workspace in order, well-formed activities come to well-formed operations:
what they copy is well-formed. -/
theorem wellFormed_of_operation? (hw : w.Stocked Attribute.WellFormed) (ha : a.WellFormed)
    (hop : a.operation? w = some (k, op)) : op.WellFormed := by
  cases a with
  | addFunction | buildCall | buildInvoke | removeEntity | setAlignment =>
    cases hop
    intro v hv
    cases hv
  | onStore k' e request =>
    cases hop
    exact ha
  | onSet r request =>
    rw [Activity.operation?] at hop
    obtain ⟨holder, -, -, rfl⟩ := holder_of_operation? hop
    exact ha
  | onCollection r request =>
    cases r with
    | view k' v =>
      cases hop
      exact ha
    | recordedView | owned | ownedAt => cases hop
  | addCollection target index source =>
    rw [Activity.operation?] at hop
    obtain ⟨holder, -, -, rfl⟩ := holder_of_operation? hop
    have hreads : source.collection.Reads (Diagonal (Beside Attribute.WellFormed none w))
        Attribute.WellFormed source.collection := source.reads fun _ hv => hv
    exact (hreads.attributes w w ⟨rfl, hw.beside⟩).1.2
  | addFrom target index source =>
    simp only [Activity.operation?] at hop
    split at hop
    · rename_i vs hread
      obtain ⟨holder, -, -, rfl⟩ := holder_of_operation? hop
      have hanswer := (related_held (fun _ hv => hv) source index w w ⟨rfl, hw.beside⟩).1
      have hvs : ((source.attributes.held index).run.run w).answer = .ok vs := hread
      rw [hvs] at hanswer
      exact hanswer.2
    · cases hop
  | apply source target =>
    rw [Activity.operation?] at hop
    obtain ⟨holder, -, -, rfl⟩ := holder_of_operation? hop
    intro v hv
    obtain ⟨c, hc, hvc⟩ := List.mem_flatMap.mp hv
    have hbeside : Beside Attribute.WellFormed none w w := hw.beside
    exact ((hbeside.getSet source).collections c hc).admissible v hvc
  | newSet | copySet | newCollection | copyCollection | copyAt | onRecorder | reach | merge =>
    cases hop

end Workspace

end IRAttributes
