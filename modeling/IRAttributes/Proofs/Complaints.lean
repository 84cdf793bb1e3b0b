import IRAttributes.Proofs.Compartments
import IRAttributes.Proofs.Creation
import IRAttributes.Proofs.Mirror

/-!
What requests complain about. Every action either fails with an error or gives a
result, and what is known about both is put together like the actions are. In
this way it is shown of everything that can be done to a workspace that a
complaint about a parameter index is justified: no position is called out of
range that lies below the number of parameters it is compared with. One position
is left open, the greatest that any function can declare, since an index has to
have a number to be stored and this one has none.
-/
namespace IRAttributes

variable {σ τ α β H : Type}

namespace Action

/-- What is known about the error of an action that fails and about the result of
one that succeeds, whatever state it starts in. -/
def Answers (E : Error → Prop) (Q : α → Prop) (x : Action σ α) : Prop :=
  ∀ s, (∀ e, (x.run.run s).answer = .error e → E e) ∧ ∀ a, (x.run.run s).answer = .ok a → Q a

namespace Answers

variable {E : Error → Prop} {Q : α → Prop} {R : β → Prop} {x : Action σ α}

theorem ofExcept {r : Except Error α} (he : ∀ e, r = .error e → E e) (ha : ∀ a, r = .ok a → Q a) :
    Answers E Q (Action.ofExcept r : Action σ α) :=
  fun _ => ⟨he, ha⟩

theorem pure {a : α} (h : Q a) : Answers E Q (Pure.pure a : Action σ α) := by
  refine ofExcept (r := .ok a) nofun ?_
  rintro _ ⟨⟩
  exact h

theorem throw {e : Error} (h : E e) : Answers E Q (throw e : Action σ α) := by
  refine ofExcept (r := .error e) ?_ nofun
  rintro _ ⟨⟩
  exact h

/-- A step gives a result in any case. -/
theorem lift (x : Step σ α) : Answers E (fun _ => True) (liftM x : Action σ α) :=
  fun _ => ⟨nofun, fun _ _ => trivial⟩

theorem bind {f : α → Action σ β} (hx : Answers E Q x) (hf : ∀ a, Q a → Answers E R (f a)) :
    Answers E R (x >>= f) := by
  intro s
  obtain ⟨herror, hok⟩ := hx s
  cases hanswer : (x.run.run s).answer with
  | error e =>
    rw [(bind_of_error f hanswer).1]
    refine ⟨?_, nofun⟩
    rintro _ ⟨⟩
    exact herror e hanswer
  | ok a =>
    rw [(bind_of_ok f hanswer).1]
    exact hf a (hok a hanswer) _

theorem within (component : Component τ σ) (h : Answers E Q x) :
    Answers E Q (Action.within component x) :=
  fun t => h (component.get t)

end Answers

end Action

/-- A position that is said to be out of range is not below the count, unless it
is the greatest one below all counts. -/
def Error.Fair : Error → Prop
  | .parameterOutOfRange position count => count ≤ position ∨ position = 4294967294
  | _ => True

/-- A check fails with fair errors only. -/
def FailsFairly (r : Except Error α) : Prop := ∀ e, r = .error e → e.Fair

theorem fair_error {e : Error} (h : e.Fair) : FailsFairly (.error e : Except Error α) := by
  rintro _ ⟨⟩
  exact h

theorem fair_ok (a : α) : FailsFairly (.ok a : Except Error α) := nofun

namespace Placement

theorem fair_checkRange (index : Index) (count : Option UInt32) :
    FailsFairly (checkRange index count) := by
  unfold checkRange
  split
  · split
    · rename_i hle
      exact fair_error (Or.inl hle)
    · exact fair_ok ()
  · exact fair_ok ()

theorem fair_checkKind (kind : Kind) (index : Index) : FailsFairly (checkKind kind index) := by
  unfold checkKind
  split
  · exact fair_ok ()
  · exact fair_error trivial

theorem fair_checkFlag (kind : Kind) (index : Index) : FailsFairly (checkFlag kind index) := by
  unfold checkFlag
  split
  · exact fair_error trivial
  · exact fair_checkKind kind index

theorem fair_checkPayload (kind : Kind) (index : Index) :
    FailsFairly (checkPayload kind index) := by
  unfold checkPayload
  split
  · exact fair_checkKind kind index
  · exact fair_error trivial

theorem fair_check (v : Attribute) (index : Index) (count : Option UInt32) :
    FailsFairly (check v index count) := by
  unfold check
  cases hrange : checkRange index count with
  | error e => exact fair_error (fair_checkRange index count e hrange)
  | ok u =>
    cases v.kind? with
    | none => exact fair_ok ()
    | some kind => exact fair_checkKind kind index

end Placement

namespace Attribute

theorem fair_ofKind (kind : Kind) : FailsFairly (ofKind kind) := by
  unfold ofKind
  split
  · exact fair_error trivial
  · exact fair_ok _

theorem fair_ofPayload (kind : Kind) (n : UInt64) : FailsFairly (ofPayload kind n) := by
  unfold ofPayload
  split
  · exact fair_ok _
  · exact fair_error trivial

theorem fair_ofName (name value : String) : FailsFairly (ofName name value) := by
  unfold ofName
  split
  · exact fair_error trivial
  · exact fair_ok _

end Attribute

namespace Action

def Fair (x : Action σ α) : Prop := Answers Error.Fair (fun _ => True) x

theorem fair_ofExcept {r : Except Error α} (h : FailsFairly r) :
    Fair (Action.ofExcept r : Action σ α) :=
  Answers.ofExcept h fun _ _ => trivial

theorem fair_lift (x : Step σ α) : Fair (liftM x : Action σ α) := Answers.lift x

variable {x : Action σ α}

theorem Fair.bind {f : α → Action σ β} (hx : Fair x) (hf : ∀ a, Fair (f a)) : Fair (x >>= f) :=
  Answers.bind hx fun a _ => hf a

theorem Fair.map (h : Fair x) (f : α → β) : Fair (do return f (← x)) :=
  h.bind fun _ => Answers.pure trivial

theorem Fair.forM {f : α → Action σ Unit} (h : ∀ a, Fair (f a)) (items : List α) :
    Fair (items.forM f) := by
  induction items with
  | nil => exact Answers.pure trivial
  | cons a rest ih => exact (h a).bind fun _ => ih

end Action

namespace Collection

/-- Nothing but additions can fail. -/
def Fair (c : Collection σ) : Prop := ∀ v, Action.Fair (c.add v)

variable {c : Collection σ}

theorem Fair.addKind (h : c.Fair) (kind : Kind) : Action.Fair (c.addKind kind) := by
  refine Action.Fair.bind (Action.fair_lift _) fun index => ?_
  refine Action.Fair.bind (Action.fair_ofExcept (Placement.fair_checkFlag kind index)) fun _ => ?_
  exact Action.Fair.bind (Action.fair_ofExcept (Attribute.fair_ofKind kind)) h

theorem Fair.addPayload (h : c.Fair) (kind : Kind) (n : UInt64) :
    Action.Fair (c.addPayload kind n) := by
  refine Action.Fair.bind (Action.fair_lift _) fun index => ?_
  refine Action.Fair.bind (Action.fair_ofExcept (Placement.fair_checkPayload kind index))
    fun _ => ?_
  exact Action.Fair.bind (Action.fair_ofExcept (Attribute.fair_ofPayload kind n)) h

theorem Fair.addNamed (h : c.Fair) (name value : String) : Action.Fair (c.addNamed name value) :=
  Action.Fair.bind (Action.fair_ofExcept (Attribute.fair_ofName name value)) h

theorem Fair.within (component : Component τ σ) (h : c.Fair) : (c.within component).Fair :=
  fun v => (h v).within component

end Collection

theorem CollectionRequest.fair {c : Collection σ} (h : c.Fair) (request : CollectionRequest) :
    Action.Fair (request.run c) := by
  cases request with
  | add v => exact (h v).map _
  | addKind kind => exact (h.addKind kind).map _
  | addPayload kind n => exact (h.addPayload kind n).map _
  | addNamed name value => exact (h.addNamed name value).map _
  | summary | index | find | attributes | size | isEmpty | has | text | removeLike | remove =>
    exact (Action.fair_lift _).map _

namespace AttributeSet

/-- Access to an index fails fairly or gives a fair collection. -/
def Fair (S : AttributeSet σ) : Prop :=
  ∀ index, Action.Answers Error.Fair Collection.Fair (S.collectionAt index)

variable {S : AttributeSet σ}

/-- What is done with the collection at an index. -/
theorem Fair.at (h : S.Fair) (index : Index) {f : Collection σ → Action σ α}
    (hf : ∀ c : Collection σ, c.Fair → Action.Fair (f c)) :
    Action.Fair (S.collectionAt index >>= f) :=
  Action.Answers.bind (h index) hf

theorem Fair.addAll (h : S.Fair) (index : Index) (vs : List Attribute) :
    Action.Fair (S.addAll index vs) :=
  h.at index fun _ hc => Action.Fair.forM hc vs

theorem Fair.payload (h : S.Fair) (index : Index) (kind : Kind) :
    Action.Fair (S.payload index kind) := by
  refine h.at index fun c _ => ?_
  refine Action.Fair.bind (Action.fair_lift _) fun found => ?_
  cases found with
  | none => exact Action.Answers.throw trivial
  | some v =>
    simp only
    cases v.payload? with
    | none => exact Action.Answers.throw trivial
    | some n => exact Action.Answers.pure trivial

theorem Fair.restrict (h : S.Fair) (only : Index) : (S.restrict only).Fair := by
  intro index
  simp only [AttributeSet.restrict]
  split
  · exact h index
  · exact Action.Answers.throw trivial

theorem Fair.within (component : Component τ σ) (h : S.Fair) : (S.within component).Fair :=
  fun index => Action.Answers.bind ((h index).within component) fun _ hc =>
    Action.Answers.pure (hc.within component)

theorem Fair.applyTo (h : S.Fair) (s : OwnedSet) : Action.Fair (s.applyTo S) := by
  unfold OwnedSet.applyTo
  exact Action.Fair.forM (fun c => h.addAll c.index c.attributes) s.collections

end AttributeSet

theorem SetRequest.fair {S : AttributeSet σ} (h : S.Fair) (request : SetRequest) :
    Action.Fair (request.run S) := by
  cases request with
  | parameterSummary position =>
    have hat : Action.Fair (S.parameterSummary position) := by
      refine Action.Answers.bind (Q := Collection.Fair) ?_ fun c _ => Action.fair_lift _
      refine Action.Answers.bind (Action.fair_lift _) fun count _ => ?_
      exact Action.Answers.bind (Action.fair_ofExcept (Placement.fair_checkRange _ count))
        fun _ _ => h _
    exact hat.map _
  | parameterCount => exact (Action.fair_lift _).map _
  | addKind index kind => exact (h.at index fun c hc => hc.addKind kind).map _
  | addKinds index kinds =>
    exact (h.at index fun c hc => Action.Fair.forM hc.addKind kinds).map _
  | addPayload index kind n => exact (h.at index fun c hc => hc.addPayload kind n).map _
  | add index v => exact (h.at index fun c hc => hc v).map _
  | addAll index vs => exact (h.addAll index vs).map _
  | hasAny index =>
    have hat : Action.Fair (S.hasAny index) :=
      h.at index fun c _ => (Action.fair_lift c.isEmpty).map _
    exact hat.map _
  | payload index kind => exact (h.payload index kind).map _
  | summary index | remove index | has index | text index =>
    exact (h.at index fun c _ => Action.fair_lift _).map _

namespace Store

/-- Counting the parameters and adding an attribute fail fairly. -/
structure Fair (S : Store σ H) : Prop where
  parameterCount : ∀ entity, Action.Fair (S.parameterCount entity)
  add : ∀ entity index v, Action.Fair (S.add entity index v)

variable {S : Store σ H}

theorem Fair.view (h : S.Fair) (view : View H) : (view.collection S).Fair := by
  intro v
  refine (h.parameterCount view.entity).bind fun count => ?_
  refine Action.Fair.bind (Action.fair_ofExcept (Placement.fair_check v view.index _)) fun _ => ?_
  exact Action.Fair.bind (Action.fair_lift _) fun _ => h.add view.entity view.index v

theorem Fair.attributeSet (h : S.Fair) (entity : H) : (S.attributeSet entity).Fair := by
  intro index
  refine Action.Answers.bind (Q := fun _ => True) ?_ fun view _ => Action.Answers.pure (h.view view)
  refine (h.parameterCount entity).bind fun count => ?_
  exact (Action.fair_ofExcept (Placement.fair_checkRange index _)).bind fun _ =>
    Action.Answers.pure trivial

theorem Fair.within (component : Component τ σ) (h : S.Fair) : (S.within component).Fair where
  parameterCount entity := (h.parameterCount entity).within component
  add entity index v := (h.add entity index v).within component

theorem Fair.recorded (h : S.Fair) : S.recorded.Fair where
  parameterCount entity r := h.parameterCount entity r.store
  add entity index v r := h.add entity index v r.store

end Store

theorem StoreRequest.fair {S : Store σ H} (h : S.Fair) (entity : H) (request : StoreRequest) :
    Action.Fair (request.run S entity) := by
  cases request with
  | parameterCount => exact (h.parameterCount entity).map _
  | createKind kind => exact (Action.fair_ofExcept (Attribute.fair_ofKind kind)).map _
  | createPayload kind n => exact (Action.fair_ofExcept (Attribute.fair_ofPayload kind n)).map _
  | createNamed name value =>
    exact (Action.fair_ofExcept (Attribute.fair_ofName name value)).map _
  | add index v => exact (h.add entity index v).map _
  | remove | count | attributes | find => exact (Action.fair_lift _).map _

namespace Context

theorem fair_parameterCount (c : Context) (h : Handle) : FailsFairly (c.parameterCount h) := by
  have hvisits : ∀ visits h r, c.countWithin visits h = some r → FailsFairly r := by
    intro visits
    induction visits with
    | zero => exact fun h r hr => nomatch hr
    | succ visits ih =>
      intro h r hr
      rw [countWithin] at hr
      split at hr
      · cases hr
        exact fair_error trivial
      · cases hr
        exact fair_ok _
      · exact ih _ r hr
      · exact ih _ r hr
  unfold parameterCount
  cases hcount : c.countWithin (c.entities.size + 1) h with
  | none => exact fair_error trivial
  | some r => exact hvisits _ _ r hcount

/-- Only a position without a number is refused where the kind and the range are in order. -/
theorem fair_put (c : Context) (h : Handle) (index : Index) (v : Attribute) :
    FailsFairly (c.put h index v) := by
  unfold put
  cases hraw : index.raw? with
  | some raw =>
    simp only
    split
    · exact fair_ok _
    · exact fair_error trivial
  | none =>
    cases index with
    | returnValue | function => cases hraw
    | parameter position =>
      cases hcount : c.parameterCount h with
      | error e => exact fair_error (c.fair_parameterCount h e hcount)
      | ok count =>
        refine fair_error (e := .parameterOutOfRange position count) ?_
        by_cases heq : position = 4294967294
        · exact Or.inr heq
        · refine Or.inl (UInt32.not_lt.mp fun hlt => ?_)
          have hindex : (Index.parameter position).Within count :=
            .of_inRange hlt fun hsame => heq (Index.parameter.inj hsame)
          obtain ⟨raw, hsome⟩ := hindex.exists_raw
          rw [hraw] at hsome
          cases hsome

theorem fair_store : store.Fair where
  parameterCount h c := ⟨c.fair_parameterCount h, fun _ _ => trivial⟩
  add h index v c := by
    refine ⟨?_, fun _ _ => trivial⟩
    intro e he
    refine c.fair_put h index v e ?_
    cases hput : c.put h index v with
    | error e' => simpa [store, hput] using he
    | ok c' => simp [store, hput] at he

end Context

/-- A call site is refused only because its callee is no function. -/
theorem Context.fair_buildSite (site : Handle → Role) (callee : Handle) :
    Action.Fair (buildSite site callee) := by
  intro c
  refine ⟨?_, fun _ _ => trivial⟩
  intro e he
  rcases c.buildSite_cases site callee with ⟨-, hanswer, -⟩ | ⟨-, hanswer, -⟩
  · rw [hanswer] at he
    cases he
  · rw [hanswer] at he
    cases he
    exact trivial

theorem OpenStore.fair_store : store.Fair where
  parameterCount _ s := by
    refine ⟨?_, fun _ _ => trivial⟩
    intro e he
    cases hcount : s.parameterCount with
    | none =>
      simp only [store, ExceptT.run_mk, Step.run_read, hcount] at he
      cases he
      exact trivial
    | some count => simp [store, hcount] at he
  add _ _ _ := Action.fair_lift _

theorem OwnedCollection.fair_collection : collection.Fair := by
  intro v c
  refine ⟨?_, fun _ _ => trivial⟩
  intro e he
  rcases c.add_cases v with ⟨e', hcheck, hanswer, -⟩ | ⟨-, hanswer, -⟩
  · obtain rfl : e' = e := Except.error.inj (hanswer.symm.trans he)
    exact Placement.fair_check v c.index none e' hcheck
  · rw [show ((collection.add v).run.run c).answer = .ok () from hanswer] at he
    cases he

theorem OwnedSet.fair_attributeSet : attributeSet.Fair := by
  intro index
  refine Action.Answers.bind (Action.fair_lift _) fun _ _ => Action.Answers.pure ?_
  exact OwnedCollection.fair_collection.within (component index)

theorem SetRef.fair_attributes (r : SetRef) : r.attributes.Fair := by
  rcases r.holder_cases with ⟨k, holder, -, hattributes, -⟩ | ⟨n, entity, rfl⟩ | ⟨n, rfl⟩
  · have hset := (Context.fair_store.within (Workspace.context k)).attributeSet holder.handle
    rw [hattributes]
    cases holder with
    | entity h => exact hset
    | argument h position => exact hset.restrict (.parameter position)
  · exact (OpenStore.fair_store.recorded.within (Workspace.recorder n)).attributeSet entity
  · exact OwnedSet.fair_attributeSet.within (Workspace.ownedSet n)

theorem CollectionRef.fair_collection (r : CollectionRef) : r.collection.Fair := by
  cases r with
  | view k v => exact (Context.fair_store.within (Workspace.context k)).view v
  | recordedView n v => exact (OpenStore.fair_store.recorded.within (Workspace.recorder n)).view v
  | owned n => exact OwnedCollection.fair_collection.within (Workspace.ownedCollection n)
  | ownedAt n index =>
    exact (OwnedCollection.fair_collection.within (OwnedSet.component index)).within
      (Workspace.ownedSet n)

/-- Whatever is done, and in whatever state: a position is called out of range
only where it is, the greatest position aside. -/
theorem Activity.fair_run (a : Activity) : Action.Fair a.run := by
  cases a with
  | addFunction | removeEntity | newSet | newCollection => exact (Action.fair_lift _).map _
  | copySet | copyCollection | copyAt =>
    exact Action.Fair.bind (Action.fair_lift _) fun _ => (Action.fair_lift _).map _
  | buildCall k callee =>
    have hbuilt := (Context.fair_buildSite Role.call callee.handle).within (Workspace.context k)
    exact (Action.Fair.map hbuilt _).map _
  | buildInvoke k callee =>
    have hbuilt := (Context.fair_buildSite Role.invoke callee.handle).within (Workspace.context k)
    exact (Action.Fair.map hbuilt _).map _
  | onStore k h request => exact (request.fair (Context.fair_store.within _) h).map _
  | onRecorder n entity request =>
    exact (request.fair (OpenStore.fair_store.recorded.within _) entity).map _
  | reach r index =>
    have hreach : Action.Fair (r.collectionAt index) :=
      r.fair_attributes.at index fun _ _ => Action.Answers.pure trivial
    exact hreach.map _
  | onSet r request => exact (request.fair r.fair_attributes).map _
  | onCollection r request => exact (request.fair r.fair_collection).map _
  | setAlignment a alignment =>
    have hset : Action.Fair (a.setAlignment alignment) := by
      refine Action.Fair.bind
        (Action.fair_ofExcept (Attribute.fair_ofPayload .alignment alignment)) fun v => ?_
      have hadd := (SetRef.function a.function).fair_attributes.at a.index fun c hc => hc v
      exact hadd.map _
    exact hset.map _
  | addCollection target index source =>
    have hcopied : Action.Fair (target.attributes.addCollection index source.collection) :=
      Action.Fair.bind (Action.fair_lift _) fun vs => target.fair_attributes.addAll index vs
    exact hcopied.map _
  | addFrom target index source =>
    have hcopied : Action.Fair (target.attributes.addFrom index source.attributes) :=
      source.fair_attributes.at index fun c _ =>
        Action.Fair.bind (Action.fair_lift _) fun vs => target.fair_attributes.addAll index vs
    exact hcopied.map _
  | merge source target =>
    have hmerged : Action.Fair (Workspace.merge source target) :=
      Action.Fair.bind (Action.fair_lift _) fun s =>
        (OwnedSet.fair_attributeSet.applyTo s).within (Workspace.ownedSet target)
    exact hmerged.map _
  | apply source target =>
    have happlied : Action.Fair (Workspace.apply source target) :=
      Action.Fair.bind (Action.fair_lift _) fun s => target.fair_attributes.applyTo s
    exact happlied.map _

end IRAttributes
