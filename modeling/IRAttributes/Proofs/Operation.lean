import IRAttributes.Context
import IRAttributes.OwnedSet
import IRAttributes.Proofs.RelatedRequests

/-!
Everything that can be done to a context, as data, and runs of it. A run is any
list of operations: entities come and go, their attributes are changed directly
in the store, through sets, through arguments and through views that were taken
at any time, and attributes are copied from place to place. Copying from
somewhere outside of the context is adding the list of attributes found there.
Handles, views and attributes are arbitrary.
-/
namespace IRAttributes

/-- What a context offers, on any state that has a context in it. -/
structure Host (σ : Type) extends Store σ Handle where
  addFunction : String → UInt32 → Step σ Handle
  buildCall : Handle → Action σ Handle
  buildInvoke : Handle → Action σ Handle
  removeEntity : Handle → Step σ Bool

def Context.host : Host Context where
  toStore := Context.store
  addFunction := Context.addFunction
  buildCall := Context.buildCall
  buildInvoke := Context.buildInvoke
  removeEntity := Context.remove

/-- Whose attributes are meant: those of an entity, or those of one argument of it. -/
inductive Holder
  | entity (h : Handle)
  | argument (h : Handle) (position : UInt32)
  deriving DecidableEq

namespace Holder

def handle : Holder → Handle
  | .entity h => h
  | .argument h _ => h

def attributes {σ : Type} (store : Store σ Handle) : Holder → AttributeSet σ
  | .entity h => store.attributeSet h
  | .argument h position => (store.attributeSet h).restrict (.parameter position)

end Holder

inductive Operation
  | addFunction (name : String) (parameterCount : UInt32)
  | buildCall (callee : Handle)
  | buildInvoke (callee : Handle)
  | removeEntity (h : Handle)
  | onStore (h : Handle) (request : StoreRequest)
  | onSet (holder : Holder) (request : SetRequest)
  | onView (view : View Handle) (request : CollectionRequest)
  | setAlignment (h : Handle) (position : UInt32) (alignment : UInt64)
  | addCollection (target : Holder) (index : Index) (source : View Handle)
  | addFrom (target : Holder) (index : Index) (source : Holder)
  | applySet (source : OwnedSet) (target : Holder)
  deriving DecidableEq

inductive Reply
  | entity (h : Handle)
  | answer (a : Answer)
  deriving DecidableEq

namespace Operation

variable {σ τ : Type}

def run (S : Host σ) : Operation → Action σ Reply
  | .addFunction name parameterCount => return .entity (← S.addFunction name parameterCount)
  | .buildCall callee => return .entity (← S.buildCall callee)
  | .buildInvoke callee => return .entity (← S.buildInvoke callee)
  | .removeEntity h => return .answer (.truth (← S.removeEntity h))
  | .onStore h request => return .answer (← request.run S.toStore h)
  | .onSet holder request => return .answer (← request.run (holder.attributes S.toStore))
  | .onView view request => return .answer (← request.run (view.collection S.toStore))
  | .setAlignment h position alignment => do
      let v ← Action.ofExcept (Attribute.ofPayload .alignment alignment)
      (S.toStore.attributeSet h).add (.parameter position) v
      return .answer .done
  | .addCollection target index source => do
      (target.attributes S.toStore).addCollection index (source.collection S.toStore)
      return .answer .done
  | .addFrom target index source => do
      (target.attributes S.toStore).addFrom index (source.attributes S.toStore)
      return .answer .done
  | .applySet source target => do
      source.applyTo (target.attributes S.toStore)
      return .answer .done

/-- Carries out one operation after the other, whether or not they succeed. -/
def runAll (S : Host σ) : List Operation → Step σ (List (Except Error Reply))
  | [] => pure []
  | op :: rest => do
      let reply ← (op.run S).run
      return reply :: (← runAll S rest)

/-- The places of a context that an operation is addressed to; what it only
copies from does not count. -/
def Addresses : Operation → Handle → Index → Prop
  | .removeEntity h', h, _ => h = h'
  | .onStore h' request, h, index => h = h' ∧ request.index? = some index
  | .onSet holder request, h, index => h = holder.handle ∧ request.index? = some index
  | .onView view _, h, index => h = view.entity ∧ index = view.index
  | .setAlignment h' position _, h, index => h = h' ∧ index = .parameter position
  | .addCollection target index' _, h, index => h = target.handle ∧ index = index'
  | .addFrom target index' _, h, index => h = target.handle ∧ index = index'
  | .applySet source target, h, index =>
      h = target.handle ∧ ∃ c ∈ source.collections, c.index = index
  | _, _, _ => False

/-- What kind of entity an operation creates, if any. -/
def role? : Operation → Option Role
  | .addFunction name parameterCount => some (.function name parameterCount)
  | .buildCall callee => some (.call callee)
  | .buildInvoke callee => some (.invoke callee)
  | _ => none

/-- The attributes that an operation brings into a context from outside. -/
def values : Operation → List Attribute
  | .onStore _ request => request.values
  | .onSet _ request => request.values
  | .onView _ request => request.values
  | .applySet source _ => source.collections.flatMap OwnedCollection.attributes
  | _ => []

/-- All attributes brought along were built by the checked constructors. -/
def WellFormed (op : Operation) : Prop := ∀ v ∈ op.values, v.WellFormed

instance (op : Operation) : Decidable op.WellFormed := by
  unfold WellFormed
  infer_instance

end Operation

section Related

variable {σ τ : Type} {R : σ → τ → Prop} {P : Attribute → Prop} {S : Host σ} {T : Host τ}

/-- Two hosts that an operation cannot tell apart: they read alike everywhere,
their views write alike where the operation is addressed to, and they treat it
alike if it is a direct request. -/
structure Host.Related (R : σ → τ → Prop) (P : Attribute → Prop) (S : Host σ) (T : Host τ)
    (op : Operation) : Prop where
  wellFormed : ∀ v, v.WellFormed → P v
  values : ∀ v ∈ op.values, P v
  addFunction : ∀ name count, op = .addFunction name count →
    Step.Related R Eq (S.addFunction name count) (T.addFunction name count)
  buildCall : ∀ callee, op = .buildCall callee →
    Action.Related R Eq (S.buildCall callee) (T.buildCall callee)
  buildInvoke : ∀ callee, op = .buildInvoke callee →
    Action.Related R Eq (S.buildInvoke callee) (T.buildInvoke callee)
  removeEntity : ∀ h, op = .removeEntity h →
    Step.Related R Eq (S.removeEntity h) (T.removeEntity h)
  reads : ∀ h index, S.toStore.Reads R P T.toStore h index
  direct : ∀ h request, op = .onStore h request →
    Action.Related R Eq (request.run S.toStore h) (request.run T.toStore h)
  views : ∀ h index, op.Addresses h index →
    (View.collection S.toStore ⟨h, index⟩).Writes R P (View.collection T.toStore ⟨h, index⟩)

namespace Holder

variable {S : Store σ Handle} {T : Store τ Handle}

theorem related_collectionAt {Q : Collection σ → Collection τ → Prop} (holder : Holder)
    {index : Index}
    (hcount : Action.Related R Eq (S.parameterCount holder.handle)
      (T.parameterCount holder.handle))
    (hview : Q (View.collection S ⟨holder.handle, index⟩)
      (View.collection T ⟨holder.handle, index⟩)) :
    Action.Related R Q ((holder.attributes S).collectionAt index)
      ((holder.attributes T).collectionAt index) := by
  cases holder with
  | entity h => exact Store.related_collectionAt hcount hview
  | argument h position =>
    exact AttributeSet.restrict_related _ fun _ => Store.related_collectionAt hcount hview

theorem related_parameterCount (holder : Holder)
    (hcount : Action.Related R Eq (S.parameterCount holder.handle)
      (T.parameterCount holder.handle)) :
    Step.Related R Eq (holder.attributes S).parameterCount
      (holder.attributes T).parameterCount := by
  cases holder with
  | entity h => exact Store.related_parameterCount hcount
  | argument h position => exact Store.related_parameterCount hcount

theorem reads (holder : Holder) {index : Index} (h : S.Reads R P T holder.handle index) :
    (holder.attributes S).Reads R P (holder.attributes T) index :=
  AttributeSet.Reads.of_count (holder.related_parameterCount h.parameterCount)
    (holder.related_collectionAt h.parameterCount h.view)

end Holder

/-- What is addressed to an index of a holder writes alike there. -/
private theorem Host.Related.writes {op : Operation} (h : Host.Related R P S T op)
    (holder : Holder) (index : Index) (haddress : op.Addresses holder.handle index) :
    (holder.attributes S.toStore).Writes R P (holder.attributes T.toStore) index :=
  holder.related_collectionAt (h.reads holder.handle index).parameterCount
    (h.views holder.handle index haddress)

theorem OwnedSet.applyTo_related {S : AttributeSet σ} {T : AttributeSet τ} (source : OwnedSet)
    (hvalues : ∀ c ∈ source.collections, ∀ v ∈ c.attributes, P v)
    (h : ∀ c ∈ source.collections, S.Writes R P T c.index) :
    Action.Related R Eq (source.applyTo S) (source.applyTo T) :=
  Action.Related.forM _ fun c hc => (h c hc).addAll (hvalues c hc)

theorem Operation.run_related {op : Operation} (h : Host.Related R P S T op) :
    Action.Related R Eq (op.run S) (op.run T) := by
  cases op with
  | addFunction name count =>
    exact Action.Related.map (Action.Related.lift (h.addFunction name count rfl)) _
  | buildCall callee => exact Action.Related.map (h.buildCall callee rfl) _
  | buildInvoke callee => exact Action.Related.map (h.buildInvoke callee rfl) _
  | removeEntity e => exact Action.Related.map (Action.Related.lift (h.removeEntity e rfl)) _
  | onStore e request => exact Action.Related.map (h.direct e request rfl) _
  | onSet holder request =>
    have hcount := holder.related_parameterCount (h.reads holder.handle .function).parameterCount
    refine Action.Related.map (SetRequest.run_related h.wellFormed h.values hcount ?_ ?_) _
    · intro index hindex
      exact holder.reads (h.reads _ _)
    · intro index hindex
      exact h.writes holder index ⟨rfl, hindex⟩
  | onView view request =>
    have hreads := (h.reads view.entity view.index).view
    have hwrites := h.views view.entity view.index ⟨rfl, rfl⟩
    exact Action.Related.map (request.run_related h.wellFormed h.values hreads hwrites) _
  | setAlignment e position alignment =>
    have hwrites := h.writes (.entity e) (.parameter position) ⟨rfl, rfl⟩
    refine Action.Related.bind (P := fun v w => v = w ∧ P v) ?_ ?_
    · cases hv : Attribute.ofPayload .alignment alignment with
      | error e => exact Action.Related.throw e
      | ok v =>
        exact Action.Related.pure ⟨rfl, h.wellFormed v (Attribute.wellFormed_of_ofPayload hv)⟩
    · rintro v _ ⟨rfl, hv⟩
      refine Action.Related.map (Action.Related.bind hwrites ?_) _
      intro c d hcd
      exact hcd.add v hv
  | addCollection target index source =>
    have hwrites := h.writes target index ⟨rfl, rfl⟩
    exact Action.Related.map (hwrites.addCollection (h.reads _ _).view) _
  | addFrom target index source =>
    have hwrites := h.writes target index ⟨rfl, rfl⟩
    have hsource := source.reads (h.reads source.handle index)
    refine Action.Related.map (Action.Related.bind hsource.collectionAt ?_) _
    intro c d hcd
    exact hwrites.addCollection hcd
  | applySet source target =>
    refine Action.Related.map (source.applyTo_related (P := P) ?_ ?_) _
    · intro c hc v hv
      exact h.values v (List.mem_flatMap.mpr ⟨c, hc, hv⟩)
    · intro c hc
      exact h.writes target c.index ⟨rfl, c, hc, rfl⟩

end Related

namespace Context

def perform (op : Operation) (c : Context) : Outcome Context (Except Error Reply) :=
  (op.run host).run.run c

/-- The context after a list of operations. -/
def after (c : Context) (ops : List Operation) : Context :=
  ((Operation.runAll host ops).run c).state

/-- What was replied to each operation of a list. -/
def replies (c : Context) (ops : List Operation) : List (Except Error Reply) :=
  ((Operation.runAll host ops).run c).answer

theorem after_nil (c : Context) : c.after [] = c := rfl

theorem after_cons (c : Context) (op : Operation) (rest : List Operation) :
    c.after (op :: rest) = (c.perform op).state.after rest := rfl

theorem replies_cons (c : Context) (op : Operation) (rest : List Operation) :
    c.replies (op :: rest) = (c.perform op).answer :: (c.perform op).state.replies rest := rfl

theorem after_append (c : Context) (before rest : List Operation) :
    c.after (before ++ rest) = (c.after before).after rest := by
  induction before generalizing c with
  | nil => rfl
  | cons op before ih => simp only [List.cons_append, after_cons, ih]

end Context

end IRAttributes
