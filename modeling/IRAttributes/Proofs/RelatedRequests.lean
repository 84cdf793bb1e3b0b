import IRAttributes.Proofs.Related

/-!
Requests made of two sets, or of two stores, that cannot be told apart. A
request is answered alike if the collections it reaches read alike, or write
alike, depending on what it does; a view of a store reads and writes like the
store does at its place.
-/
namespace IRAttributes

variable {σ τ H : Type} {R : σ → τ → Prop} {P : Attribute → Prop}

namespace SetRequest

/-- The index that a request is addressed to. -/
def index? : SetRequest → Option Index
  | .summary index => some index
  | .parameterSummary position => some (.parameter position)
  | .parameterCount => none
  | .addKind index _ => some index
  | .addKinds index _ => some index
  | .addPayload index _ _ => some index
  | .add index _ => some index
  | .addAll index _ => some index
  | .remove index _ => some index
  | .has index _ => some index
  | .hasAny index => some index
  | .text index => some index
  | .payload index _ => some index

/-- The attributes that a request brings along. -/
def values : SetRequest → List Attribute
  | .add _ v => [v]
  | .addAll _ vs => vs
  | _ => []

/-- Whether a request only looks at the attributes of its index. -/
def isReading : SetRequest → Bool
  | .summary _ | .parameterSummary _ | .parameterCount | .has _ _ | .hasAny _ | .text _
  | .payload _ _ => true
  | _ => false

end SetRequest

def CollectionRequest.values : CollectionRequest → List Attribute
  | .add v => [v]
  | _ => []

namespace StoreRequest

/-- The index that a request about an entity is addressed to. -/
def index? : StoreRequest → Option Index
  | .add index _ => some index
  | .remove index _ => some index
  | .count index => some index
  | .attributes index => some index
  | .find index _ => some index
  | _ => none

def values : StoreRequest → List Attribute
  | .add _ v => [v]
  | _ => []

end StoreRequest

namespace AttributeSet

variable {S : AttributeSet σ} {T : AttributeSet τ} {index : Index}

/-- Access to the collection at an index is granted alike, and it reads alike. -/
structure Reads (R : σ → τ → Prop) (P : Attribute → Prop) (S : AttributeSet σ)
    (T : AttributeSet τ) (index : Index) : Prop where
  collectionAt : Action.Related R (Collection.Reads R P) (S.collectionAt index)
    (T.collectionAt index)
  parameterCollection : ∀ position, index = .parameter position →
    Action.Related R (Collection.Reads R P) (S.parameterCollection position)
      (T.parameterCollection position)

def Writes (R : σ → τ → Prop) (P : Attribute → Prop) (S : AttributeSet σ)
    (T : AttributeSet τ) (index : Index) : Prop :=
  Action.Related R (Collection.Writes R P) (S.collectionAt index) (T.collectionAt index)

theorem Reads.hasAny (h : Reads R P S T index) :
    Action.Related R Eq (S.hasAny index) (T.hasAny index) := by
  refine Action.Related.bind h.collectionAt ?_
  intro c d hcd
  refine Action.Related.bind (Action.Related.lift hcd.isEmpty) ?_
  rintro empty _ rfl
  exact Action.Related.pure rfl

theorem Reads.payload (h : Reads R P S T index) (kind : Kind) :
    Action.Related R Eq (S.payload index kind) (T.payload index kind) := by
  refine Action.Related.bind h.collectionAt ?_
  intro c d hcd
  refine Action.Related.bind (Action.Related.lift (hcd.find? (.kind kind))) ?_
  rintro found _ rfl
  cases found with
  | none => exact Action.Related.throw _
  | some v =>
    simp only
    cases v.payload? with
    | none => exact Action.Related.throw _
    | some n => exact Action.Related.pure rfl

/-- Attributes that are added one after the other at an index. -/
theorem Writes.addAll (h : S.Writes R P T index) {vs : List Attribute} (hvs : ∀ v ∈ vs, P v) :
    Action.Related R Eq (S.addAll index vs) (T.addAll index vs) :=
  Action.Related.bind h fun _ _ hcd => hcd.addAll hvs

theorem Writes.addCollection (h : S.Writes R P T index) {c : Collection σ} {d : Collection τ}
    (hcd : c.Reads R P d) :
    Action.Related R Eq (S.addCollection index c) (T.addCollection index d) := by
  refine Action.Related.bind (Action.Related.lift hcd.attributes) ?_
  rintro vs _ ⟨rfl, hvs⟩
  exact h.addAll hvs

/-- A count that both sides agree on grants the same parameters. -/
theorem Reads.of_count (hcount : Step.Related R Eq S.parameterCount T.parameterCount)
    (hat : Action.Related R (Collection.Reads R P) (S.collectionAt index)
      (T.collectionAt index)) : S.Reads R P T index where
  collectionAt := hat
  parameterCollection position hposition := by
    subst hposition
    refine Action.Related.bind (Action.Related.lift hcount) ?_
    rintro count _ rfl
    exact Action.Related.bind (Action.Related.ofExcept _) fun _ _ _ => hat

/-- Outside of its only index a restricted set refuses both sides alike. -/
theorem restrict_related {Q : Collection σ → Collection τ → Prop} (only : Index)
    (h : index = only → Action.Related R Q (S.collectionAt index) (T.collectionAt index)) :
    Action.Related R Q ((S.restrict only).collectionAt index)
      ((T.restrict only).collectionAt index) := by
  by_cases hindex : index = only
  · simpa only [restrict, hindex, if_true] using h hindex
  · simp only [restrict, hindex, if_false]
    exact Action.Related.throw _

end AttributeSet

namespace SetRequest

variable {S : AttributeSet σ} {T : AttributeSet τ}

/-- A reading of the collection at an index, as a request. -/
private theorem related_reading {α : Type} {index : Index} (h : S.Reads R P T index)
    {x : Collection σ → Step σ α} {y : Collection τ → Step τ α}
    (hxy : ∀ c d, Collection.Reads R P c d → Step.Related R Eq (x c) (y d)) :
    Action.Related R Eq (do x (← S.collectionAt index)) (do y (← T.collectionAt index)) :=
  Action.Related.bind h.collectionAt fun c d hcd => Action.Related.lift (hxy c d hcd)

theorem run_reading {request : SetRequest} {index : Index} (hread : request.isReading = true)
    (hindex : request.index? = some index) (h : S.Reads R P T index) :
    Action.Related R Eq (request.run S) (request.run T) := by
  cases request with
  | summary i =>
    obtain rfl : i = index := Option.some.inj hindex
    exact Action.Related.map (related_reading h fun c d hcd => hcd.summary) _
  | parameterSummary position =>
    obtain rfl : .parameter position = index := Option.some.inj hindex
    refine Action.Related.map (Action.Related.bind (h.parameterCollection position rfl) ?_) _
    intro c d hcd
    exact Action.Related.lift hcd.summary
  | parameterCount => cases hindex
  | has i key =>
    obtain rfl : i = index := Option.some.inj hindex
    exact Action.Related.map (related_reading h fun c d hcd => hcd.has key) _
  | hasAny i =>
    obtain rfl : i = index := Option.some.inj hindex
    exact Action.Related.map h.hasAny _
  | text i =>
    obtain rfl : i = index := Option.some.inj hindex
    exact Action.Related.map (related_reading h fun c d hcd => hcd.text) _
  | payload i kind =>
    obtain rfl : i = index := Option.some.inj hindex
    exact Action.Related.map (h.payload kind) _
  | addKind | addKinds | addPayload | add | addAll | remove => cases hread

/-- A change of the collection at an index, as a request. -/
private theorem related_writing {index : Index} (h : S.Writes R P T index)
    {x : Collection σ → Action σ Unit} {y : Collection τ → Action τ Unit}
    (hxy : ∀ c d, Collection.Writes R P c d → Action.Related R Eq (x c) (y d)) :
    Action.Related R Eq (do x (← S.collectionAt index)) (do y (← T.collectionAt index)) :=
  Action.Related.bind h hxy

theorem run_writing {request : SetRequest} {index : Index} (hwrite : request.isReading = false)
    (hindex : request.index? = some index) (hP : ∀ v, v.WellFormed → P v)
    (hvalues : ∀ v ∈ request.values, P v) (h : S.Writes R P T index) :
    Action.Related R Eq (request.run S) (request.run T) := by
  cases request with
  | addKind i kind =>
    obtain rfl : i = index := Option.some.inj hindex
    exact Action.Related.map (related_writing h fun c d hcd => hcd.addKind hP kind) _
  | addKinds i kinds =>
    obtain rfl : i = index := Option.some.inj hindex
    exact Action.Related.map (related_writing h fun c d hcd => hcd.addKinds hP kinds) _
  | addPayload i kind n =>
    obtain rfl : i = index := Option.some.inj hindex
    exact Action.Related.map (related_writing h fun c d hcd => hcd.addPayload hP kind n) _
  | add i v =>
    obtain rfl : i = index := Option.some.inj hindex
    have hv : P v := hvalues v (List.mem_singleton_self v)
    exact Action.Related.map (related_writing h fun c d hcd => hcd.add v hv) _
  | addAll i vs =>
    obtain rfl : i = index := Option.some.inj hindex
    exact Action.Related.map (related_writing h fun c d hcd => hcd.addAll hvalues) _
  | remove i key =>
    obtain rfl : i = index := Option.some.inj hindex
    exact Action.Related.map
      (related_writing h fun c d hcd => Action.Related.lift (hcd.remove key)) _
  | summary | parameterSummary | parameterCount | has | hasAny | text | payload => cases hwrite

theorem run_related {request : SetRequest} (hP : ∀ v, v.WellFormed → P v)
    (hvalues : ∀ v ∈ request.values, P v)
    (hcount : Step.Related R Eq S.parameterCount T.parameterCount)
    (hreads : ∀ index, request.index? = some index → S.Reads R P T index)
    (hwrites : ∀ index, request.index? = some index → S.Writes R P T index) :
    Action.Related R Eq (request.run S) (request.run T) := by
  cases hindex : request.index? with
  | none =>
    cases request with
    | parameterCount => exact Action.Related.map (Action.Related.lift hcount) _
    | _ => cases hindex
  | some index =>
    cases hread : request.isReading with
    | true => exact run_reading hread hindex (hreads index hindex)
    | false => exact run_writing hread hindex hP hvalues (hwrites index hindex)

end SetRequest

/-- Whether a request only looks at the attributes of its collection. -/
def CollectionRequest.isReading : CollectionRequest → Bool
  | .summary | .index | .find _ | .attributes | .size | .isEmpty | .has _ | .text => true
  | _ => false

theorem CollectionRequest.run_reading {c : Collection σ} {d : Collection τ}
    {request : CollectionRequest} (hread : request.isReading = true) (h : c.Reads R P d) :
    Action.Related R Eq (request.run c) (request.run d) := by
  cases request with
  | summary => exact Action.Related.map (Action.Related.lift h.summary) _
  | index => exact Action.Related.map (Action.Related.lift (Step.Related.read h.index)) _
  | find key => exact Action.Related.map (Action.Related.lift (h.find? key)) _
  | attributes => exact Action.Related.map (Action.Related.lift h.plainAttributes) _
  | size => exact Action.Related.map (Action.Related.lift h.size) _
  | isEmpty => exact Action.Related.map (Action.Related.lift h.isEmpty) _
  | has key => exact Action.Related.map (Action.Related.lift (h.has key)) _
  | text => exact Action.Related.map (Action.Related.lift h.text) _
  | add | addKind | addPayload | addNamed | removeLike | remove => cases hread

theorem CollectionRequest.run_related {c : Collection σ} {d : Collection τ}
    (request : CollectionRequest) (hP : ∀ v, v.WellFormed → P v)
    (hvalues : ∀ v ∈ request.values, P v) (hreads : c.Reads R P d) (hwrites : c.Writes R P d) :
    Action.Related R Eq (request.run c) (request.run d) := by
  cases request with
  | summary | index | find | attributes | size | isEmpty | has | text =>
    exact run_reading rfl hreads
  | add v => exact Action.Related.map (hwrites.add v (hvalues v (List.mem_singleton_self v))) _
  | addKind kind => exact Action.Related.map (hwrites.addKind hP kind) _
  | addPayload kind n => exact Action.Related.map (hwrites.addPayload hP kind n) _
  | addNamed name value => exact Action.Related.map (hwrites.addNamed hP name value) _
  | removeLike v => exact Action.Related.map (Action.Related.lift (hwrites.remove v.key)) _
  | remove key => exact Action.Related.map (Action.Related.lift (hwrites.remove key)) _

namespace Store

variable {S : Store σ H} {T : Store τ H} {entity : H} {index : Index}

structure Reads (R : σ → τ → Prop) (P : Attribute → Prop) (S : Store σ H) (T : Store τ H)
    (entity : H) (index : Index) : Prop where
  parameterCount : Action.Related R Eq (S.parameterCount entity) (T.parameterCount entity)
  count : Step.Related R Eq (S.count entity index) (T.count entity index)
  attributes : Step.Related R (SharedList P) (S.attributes entity index)
    (T.attributes entity index)
  find? : ∀ key, Step.Related R Eq (S.find? entity index key) (T.find? entity index key)

structure Writes (R : σ → τ → Prop) (P : Attribute → Prop) (S : Store σ H) (T : Store τ H)
    (entity : H) (index : Index) : Prop where
  parameterCount : Action.Related R Eq (S.parameterCount entity) (T.parameterCount entity)
  add : ∀ v, P v → Action.Related R Eq (S.add entity index v) (T.add entity index v)
  remove : ∀ key, Step.Related R Eq (S.remove entity index key) (T.remove entity index key)

theorem Reads.view (h : S.Reads R P T entity index) :
    (View.collection S ⟨entity, index⟩).Reads R P (View.collection T ⟨entity, index⟩) where
  index _ _ _ := rfl
  find? key := by
    simp only [View.collection, View.find?]
    split
    · exact Step.Related.pure rfl
    · exact h.find? key
  attributes := h.attributes
  size := by
    refine Step.Related.bind h.count ?_
    rintro count _ rfl
    exact Step.Related.pure rfl

theorem Writes.view (h : S.Writes R P T entity index) :
    (View.collection S ⟨entity, index⟩).Writes R P (View.collection T ⟨entity, index⟩) where
  index _ _ _ := rfl
  add v hv := by
    refine Action.Related.bind h.parameterCount ?_
    rintro count _ rfl
    refine Action.Related.bind (Action.Related.ofExcept _) ?_
    intro _ _ _
    refine Action.Related.bind (P := Eq) (Action.Related.report _ _) ?_
    intro _ _ _
    exact h.add v hv
  remove key := by
    simp only [View.collection, View.remove]
    split
    · exact Step.Related.pure rfl
    · refine Step.Related.bind (Step.Related.report _ _) ?_
      intro _ _ _
      exact h.remove key

/-- Access to an index depends on the number of parameters alone. -/
theorem related_collectionAt {Q : Collection σ → Collection τ → Prop}
    (hcount : Action.Related R Eq (S.parameterCount entity) (T.parameterCount entity))
    (hview : Q (View.collection S ⟨entity, index⟩) (View.collection T ⟨entity, index⟩)) :
    Action.Related R Q ((S.attributeSet entity).collectionAt index)
      ((T.attributeSet entity).collectionAt index) := by
  refine Action.Related.bind (P := fun v w => v = ⟨entity, index⟩ ∧ w = ⟨entity, index⟩) ?_ ?_
  · refine Action.Related.bind hcount ?_
    rintro count _ rfl
    refine Action.Related.bind (Action.Related.ofExcept _) ?_
    intro _ _ _
    exact Action.Related.pure ⟨rfl, rfl⟩
  · rintro _ _ ⟨rfl, rfl⟩
    exact Action.Related.pure hview

theorem related_parameterCount
    (hcount : Action.Related R Eq (S.parameterCount entity) (T.parameterCount entity)) :
    Step.Related R Eq (S.attributeSet entity).parameterCount
      (T.attributeSet entity).parameterCount := by
  refine Step.Related.bind hcount ?_
  intro r r' hr
  obtain rfl : r = r' := Action.agree_eq_iff.mp hr
  exact Step.Related.pure rfl

end Store

theorem StoreRequest.run_related {S : Store σ H} {T : Store τ H} {entity : H}
    (request : StoreRequest) (hvalues : ∀ v ∈ request.values, P v)
    (hreads : ∀ index, S.Reads R P T entity index)
    (hwrites : ∀ index, request.index? = some index → S.Writes R P T entity index) :
    Action.Related R Eq (request.run S entity) (request.run T entity) := by
  cases request with
  | parameterCount => exact Action.Related.map (hreads .function).parameterCount _
  | createKind kind => exact Action.Related.map (Action.Related.ofExcept _) _
  | createPayload kind n => exact Action.Related.map (Action.Related.ofExcept _) _
  | createNamed name value => exact Action.Related.map (Action.Related.ofExcept _) _
  | add index v =>
    have hv : P v := hvalues v (List.mem_singleton_self v)
    exact Action.Related.map ((hwrites index rfl).add v hv) _
  | remove index key =>
    exact Action.Related.map (Action.Related.lift ((hwrites index rfl).remove key)) _
  | count index => exact Action.Related.map (Action.Related.lift (hreads index).count) _
  | attributes index =>
    refine Action.Related.map (Action.Related.lift ?_) _
    exact (hreads index).attributes.mono fun _ _ hvs => hvs.1
  | find index key => exact Action.Related.map (Action.Related.lift ((hreads index).find? key)) _

end IRAttributes
