import IRAttributes.Proofs.Kept
import IRAttributes.Proofs.Vetting

/-!
What requests keep, and on what conditions. Something that holds of a state may
survive every reading, but only some additions and removals, or additions only
if they are refused. Whatever is known about adding one attribute and removing
one key at a place passes to all requests that are made there: a request adds
attributes under a few keys, each after some checks, or removes one key, or
only reads.
-/
namespace IRAttributes

variable {σ τ α β H : Type} {always : Prop} {J : σ → Prop} {I : τ → Prop}
  {P : Attribute → Prop} {K : Key → Prop} {component : Component τ σ}

namespace Action

/-- What holds before an action holds afterwards if it fails, and, where that is
so always, if it succeeds as well. -/
def Keeps (always : Prop) (J : σ → Prop) (x : Action σ α) : Prop :=
  ∀ s, J s → ((∃ a, (x.run.run s).answer = .ok a) → always) → J (x.run.run s).state

variable {x : Action σ α}

theorem Keeps.of_related {Q : α → α → Prop} (h : Related (Diagonal J) Q x x) :
    Keeps always J x :=
  fun _ hs _ => Step.Related.kept h hs

theorem Keeps.kept (h : Keeps True J x) {s : σ} (hs : J s) : J (x.run.run s).state :=
  h s hs fun _ => trivial

theorem Keeps.kept_of_error (h : Keeps always J x) {s : σ} (hs : J s) {e : Error}
    (he : (x.run.run s).answer = .error e) : J (x.run.run s).state := by
  refine h s hs ?_
  rintro ⟨a, ha⟩
  rw [he] at ha
  cases ha

/-- An action in two parts, the first of which keeps what holds in any case. -/
theorem Keeps.bind {Q : α → α → Prop} {f : α → Action σ β} (hx : Related (Diagonal J) Q x x)
    (hf : ∀ a, Q a a → Keeps always J (f a)) : Keeps always J (x >>= f) := by
  intro s hs halways
  obtain ⟨hagree, -, hkept⟩ := hx s s ⟨rfl, hs⟩
  cases hanswer : (x.run.run s).answer with
  | error e =>
    rw [(bind_of_error f hanswer).2]
    exact hkept
  | ok a =>
    obtain ⟨hanswer', hstate⟩ := bind_of_ok f hanswer
    rw [hanswer] at hagree
    rw [hstate]
    refine hf a hagree _ hkept ?_
    rintro ⟨b, hb⟩
    exact halways ⟨b, hanswer'.trans hb⟩

/-- What comes second depends on what the first part answers to one state. -/
theorem kept_bind {f : α → Action σ β} {s : σ} (hx : J (x.run.run s).state)
    (hf : ∀ a, (x.run.run s).answer = .ok a → Keeps True J (f a)) :
    J ((x >>= f).run.run s).state := by
  cases hanswer : (x.run.run s).answer with
  | error e =>
    rw [(bind_of_error f hanswer).2]
    exact hx
  | ok a =>
    rw [(bind_of_ok f hanswer).2]
    exact (hf a hanswer).kept hx

/-- A check comes first, and nothing happens if it fails. -/
theorem Keeps.checked {f : α → Action σ β} (r : Except Error α)
    (hf : ∀ a, r = .ok a → Keeps always J (f a)) : Keeps always J (ofExcept r >>= f) := by
  refine Keeps.bind (Q := fun a _ => r = .ok a) ?_ fun a ha => hf a ha
  cases r with
  | error e => exact Related.throw e
  | ok a => exact Related.pure rfl

theorem Keeps.map (h : Keeps always J x) (f : α → β) : Keeps always J (do return f (← x)) := by
  intro s hs halways
  cases hanswer : (x.run.run s).answer with
  | error e =>
    rw [(bind_of_error _ hanswer).2]
    exact h.kept_of_error hs hanswer
  | ok a =>
    obtain ⟨hanswer', hstate⟩ := bind_of_ok (fun a => pure (f a)) hanswer
    rw [hstate]
    exact h s hs fun _ => halways ⟨f a, hanswer'⟩

/-- One item after the other keeps what each of them keeps. -/
theorem Keeps.forM {f : α → Action σ Unit} {items : List α}
    (h : ∀ a ∈ items, Keeps True J (f a)) : Keeps True J (items.forM f) := by
  refine Keeps.of_related (Related.forM items fun a ha => ?_)
  refine Step.Related.diagonal ?_
  intro s hs
  exact ⟨agree_self _, (h a ha).kept hs⟩

theorem Keeps.within (hc : component.Carries J I) (h : Keeps always J x) :
    Keeps always I (Action.within component x) := by
  intro t ht halways
  exact hc.put t _ ht (h _ (hc.get t ht) halways)

end Action

namespace Attribute

variable {v : Attribute} {kind : Kind}

theorem key_of_ofKind (h : ofKind kind = .ok v) : v.key = .kind kind := by
  unfold ofKind at h
  split at h
  · cases h
  · obtain rfl := Except.ok.inj h
    rfl

theorem key_of_ofPayload {n : UInt64} (h : ofPayload kind n = .ok v) : v.key = .kind kind := by
  unfold ofPayload at h
  split at h
  · obtain rfl := Except.ok.inj h
    rfl
  · cases h

theorem key_of_ofName {name value : String} (h : ofName name value = .ok v) :
    v.key = .name name := by
  unfold ofName at h
  split at h
  · cases h
  · obtain rfl := Except.ok.inj h
    rfl

end Attribute

/-- The keys of the attributes that a request is to add. -/
def CollectionRequest.addedKeys : CollectionRequest → List Key
  | .add v => [v.key]
  | .addKind kind => [.kind kind]
  | .addPayload kind _ => [.kind kind]
  | .addNamed name _ => [.name name]
  | _ => []

namespace SetRequest

/-- The keys of the attributes that a request is to add. -/
def addedKeys : SetRequest → List Key
  | .addKind _ kind => [.kind kind]
  | .addKinds _ kinds => kinds.map .kind
  | .addPayload _ kind _ => [.kind kind]
  | .add _ v => [v.key]
  | .addAll _ vs => vs.map Attribute.key
  | _ => []

/-- Whether a request may add several attributes. -/
def isBatch : SetRequest → Bool
  | .addKinds _ _ | .addAll _ _ => true
  | _ => false

end SetRequest

namespace StoreRequest

/-- The keys of the attributes that a request is to add. -/
def addedKeys : StoreRequest → List Key
  | .add _ v => [v.key]
  | _ => []

def removal? : StoreRequest → Option Key
  | .remove _ key => some key
  | _ => none

end StoreRequest

namespace Collection

/-- Reading keeps what holds, and so do adding and removing within limits. -/
structure Keeps (always : Prop) (J : σ → Prop) (P : Attribute → Prop) (K : Key → Prop)
    (c : Collection σ) : Prop where
  reads : c.Reads (Diagonal J) (fun _ => True) c
  add : ∀ v, P v → Action.Keeps always J (c.add v)
  remove : ∀ key, K key → Action.Keeps always J (liftM (c.remove key) : Action σ Unit)

variable {c : Collection σ}

/-- What all shortcut additions have in common: a check of the place, then the attribute. -/
private theorem Keeps.checkedAdd (h : c.Keeps always J P K) (check : Index → Except Error Unit)
    (r : Except Error Attribute) (hr : ∀ v, r = .ok v → P v) :
    Action.Keeps always J
      (do Action.ofExcept (check (← Action.read c.index)); c.add (← Action.ofExcept r)) := by
  refine Action.Keeps.bind (Q := fun _ _ => True)
    (Step.Related.look (fun _ => rfl) fun _ _ => trivial) ?_
  intro index _
  refine Action.Keeps.checked (check index) ?_
  intro _ _
  refine Action.Keeps.checked r ?_
  intro v hv
  exact h.add v (hr v hv)

theorem Keeps.addKind (h : c.Keeps always J P K) {kind : Kind}
    (hP : ∀ v, v.key = .kind kind → P v) : Action.Keeps always J (c.addKind kind) :=
  h.checkedAdd (Placement.checkFlag kind) (Attribute.ofKind kind)
    fun v hv => hP v (Attribute.key_of_ofKind hv)

theorem Keeps.addPayload (h : c.Keeps always J P K) {kind : Kind}
    (hP : ∀ v, v.key = .kind kind → P v) (n : UInt64) :
    Action.Keeps always J (c.addPayload kind n) :=
  h.checkedAdd (Placement.checkPayload kind) (Attribute.ofPayload kind n)
    fun v hv => hP v (Attribute.key_of_ofPayload hv)

theorem Keeps.addNamed (h : c.Keeps always J P K) {name : String}
    (hP : ∀ v, v.key = .name name → P v) (value : String) :
    Action.Keeps always J (c.addNamed name value) :=
  Action.Keeps.checked (Attribute.ofName name value)
    fun v hv => h.add v (hP v (Attribute.key_of_ofName hv))

theorem Keeps.addKinds (h : c.Keeps True J P K) {kinds : List Kind}
    (hP : ∀ v, v.key ∈ kinds.map Key.kind → P v) : Action.Keeps True J (c.addKinds kinds) := by
  refine Action.Keeps.forM ?_
  intro kind hkind
  exact h.addKind fun v hv => hP v (hv ▸ List.mem_map_of_mem hkind)

theorem Keeps.addAll (h : c.Keeps True J P K) {vs : List Attribute} (hP : ∀ v ∈ vs, P v) :
    Action.Keeps True J (c.addAll vs) :=
  Action.Keeps.forM fun v hv => h.add v (hP v hv)

theorem Keeps.within (hc : component.Carries J I) (h : c.Keeps always J P K) :
    (c.within component).Keeps always I P K where
  reads := h.reads.within hc
  add v hv := (h.add v hv).within hc
  remove key hkey := (h.remove key hkey).within hc

end Collection

theorem CollectionRequest.keeps {c : Collection σ} (h : c.Keeps always J P K)
    (request : CollectionRequest) (hP : ∀ v, v.key ∈ request.addedKeys → P v)
    (hK : ∀ key, request.removal? = some key → K key) :
    Action.Keeps always J (request.run c) := by
  cases request with
  | add v => exact (h.add v (hP v (List.mem_singleton_self _))).map _
  | addKind kind => exact (h.addKind fun v hv => hP v (List.mem_singleton.mpr hv)).map _
  | addPayload kind n => exact (h.addPayload (fun v hv => hP v (List.mem_singleton.mpr hv)) n).map _
  | addNamed name value =>
    exact (h.addNamed (fun v hv => hP v (List.mem_singleton.mpr hv)) value).map _
  | removeLike v => exact (h.remove v.key (hK v.key rfl)).map _
  | remove key => exact (h.remove key (hK key rfl)).map _
  | summary | index | find | attributes | size | isEmpty | has | text =>
    exact Action.Keeps.of_related (run_reading rfl h.reads)

namespace AttributeSet

/-- Access to the collection at an index keeps what holds, and so does the collection. -/
def Keeps (always : Prop) (J : σ → Prop) (P : Attribute → Prop) (K : Key → Prop)
    (S : AttributeSet σ) (index : Index) : Prop :=
  Action.Related (Diagonal J) (fun c d => c = d ∧ c.Keeps always J P K) (S.collectionAt index)
    (S.collectionAt index)

variable {S : AttributeSet σ} {index : Index}

theorem Keeps.reads (h : S.Keeps always J P K index)
    (hcount : Step.Related (Diagonal J) Eq S.parameterCount S.parameterCount) :
    S.Reads (Diagonal J) (fun _ => True) S index := by
  refine Reads.of_count hcount (Action.Related.mono h ?_)
  rintro c _ ⟨rfl, hkeeps⟩
  exact hkeeps.reads

/-- What is done with the collection at an index. -/
theorem Keeps.at (h : S.Keeps always J P K index) {f : Collection σ → Action σ α}
    (hf : ∀ c : Collection σ, c.Keeps always J P K → Action.Keeps always J (f c)) :
    Action.Keeps always J (S.collectionAt index >>= f) :=
  Action.Keeps.bind h fun c hc => hf c hc.2

theorem Keeps.addAll (h : S.Keeps True J P K index) {vs : List Attribute} (hP : ∀ v ∈ vs, P v) :
    Action.Keeps True J (S.addAll index vs) :=
  h.at fun _ hc => hc.addAll hP

end AttributeSet

theorem SetRequest.keeps {S : AttributeSet σ} (request : SetRequest)
    (hcount : Step.Related (Diagonal J) Eq S.parameterCount S.parameterCount)
    (hS : ∀ index, S.Keeps always J P K index) (hbatch : request.isBatch = true → always)
    (hP : ∀ v, v.key ∈ request.addedKeys → P v)
    (hK : ∀ key, request.removal? = some key → K key) :
    Action.Keeps always J (request.run S) := by
  cases request with
  | addKind index kind =>
    exact ((hS index).at fun c hc =>
      hc.addKind fun v hv => hP v (List.mem_singleton.mpr hv)).map _
  | addPayload index kind n =>
    exact ((hS index).at fun c hc =>
      hc.addPayload (fun v hv => hP v (List.mem_singleton.mpr hv)) n).map _
  | add index v =>
    exact ((hS index).at fun c hc => hc.add v (hP v (List.mem_singleton_self _))).map _
  | addKinds index kinds =>
    obtain rfl : always = True := eq_true (hbatch rfl)
    exact ((hS index).at fun c hc => hc.addKinds hP).map _
  | addAll index vs =>
    obtain rfl : always = True := eq_true (hbatch rfl)
    exact ((hS index).addAll fun v hv => hP v (List.mem_map_of_mem hv)).map _
  | remove index key => exact ((hS index).at fun c hc => hc.remove key (hK key rfl)).map _
  | parameterCount =>
    exact Action.Keeps.of_related (Action.Related.map (Action.Related.lift hcount) _)
  | summary index | parameterSummary position | has index key | hasAny index | text index
  | payload index kind =>
    exact Action.Keeps.of_related (run_reading rfl rfl ((hS _).reads hcount))

namespace Store

/-- Reading at a place keeps what holds, and so do adding and removing within limits. -/
structure Keeps (always : Prop) (J : σ → Prop) (P : Attribute → Prop) (K : Key → Prop)
    (S : Store σ H) (entity : H) (index : Index) : Prop where
  reads : S.Reads (Diagonal J) (fun _ => True) S entity index
  add : ∀ v, P v → Action.Keeps always J (S.add entity index v)
  remove : ∀ key, K key → Action.Keeps always J (liftM (S.remove entity index key) : Action σ Unit)

variable {S : Store σ H} {entity : H} {index : Index}

theorem Keeps.view (h : S.Keeps always J P K entity index) :
    (View.collection S ⟨entity, index⟩).Keeps always J P K where
  reads := h.reads.view
  add v hv := by
    refine Action.Keeps.bind h.reads.parameterCount ?_
    intro count _
    refine Action.Keeps.checked _ ?_
    intro _ _
    refine Action.Keeps.bind (Action.Related.report _ _) ?_
    intro _ _
    exact h.add v hv
  remove key hkey := by
    simp only [View.collection, View.remove]
    split
    · exact Action.Keeps.of_related (Action.Related.pure rfl)
    · intro s hs halways
      exact h.remove key hkey s hs halways

theorem Keeps.within (hc : component.Carries J I) (h : S.Keeps always J P K entity index) :
    (S.within component).Keeps always I P K entity index where
  reads := h.reads.within hc
  add v hv := (h.add v hv).within hc
  remove key hkey := (h.remove key hkey).within hc

theorem Keeps.recorded (h : S.Keeps always J P K entity index) :
    S.recorded.Keeps always (fun r => J r.store) P K entity index where
  reads := h.reads.recorded
  add v hv r hr halways := h.add v hv r.store hr halways
  remove key hkey r hr halways := h.remove key hkey r.store hr halways

end Store

theorem StoreRequest.keeps {S : Store σ H} {entity : H} (request : StoreRequest)
    (h : ∀ index, S.Keeps always J P K entity index)
    (hP : ∀ v, v.key ∈ request.addedKeys → P v)
    (hK : ∀ key, request.removal? = some key → K key) :
    Action.Keeps always J (request.run S entity) := by
  cases request with
  | parameterCount =>
    exact Action.Keeps.of_related (Action.Related.map (h .function).reads.parameterCount _)
  | createKind | createPayload | createNamed =>
    exact Action.Keeps.of_related (Action.Related.map (Action.Related.ofExcept _) _)
  | add index v => exact ((h index).add v (hP v (List.mem_singleton_self _))).map _
  | remove index key => exact ((h index).remove key (hK key rfl)).map _
  | count index =>
    exact Action.Keeps.of_related (Action.Related.map (Action.Related.lift (h index).reads.count) _)
  | attributes index =>
    refine Action.Keeps.of_related (Action.Related.map (Action.Related.lift ?_) _)
    exact (h index).reads.attributes.mono fun _ _ hvs => hvs.1
  | find index key =>
    exact Action.Keeps.of_related
      (Action.Related.map (Action.Related.lift ((h index).reads.find? key)) _)

namespace OwnedSet

variable {J : OwnedSet → Prop} {index : Index}

/-- What only looks at the collection at an index accesses that index. -/
private theorem related_looking {Q : α → α → Prop} {x : Step OwnedCollection α}
    (hJ : ∀ s, J s → J (s.access index)) (hstate : ∀ d, (x.run d).state = d)
    (hanswer : ∀ d, Q (x.run d).answer (x.run d).answer) :
    Step.Related (Diagonal J) Q (x.within (OwnedSet.component index))
      (x.within (OwnedSet.component index)) := by
  refine Step.Related.diagonal ?_
  intro s h
  have haccess : ((x.within (OwnedSet.component index)).run s).state = s.access index :=
    congrArg (fun d => s.put d) (hstate (s.getOrEmpty index))
  exact ⟨hanswer _, haccess.symm ▸ hJ s h⟩

/-- Reading the collection at an index keeps what accesses keep. -/
theorem reads_of_access (hJ : ∀ s, J s → J (s.access index)) :
    (collection index).Reads (Diagonal J) (fun _ => True) (collection index) where
  index := by
    rintro s _ ⟨rfl, -⟩
    rfl
  find? _ := related_looking hJ (fun _ => rfl) fun _ => rfl
  attributes := related_looking hJ (fun _ => rfl) fun _ => ⟨rfl, fun _ _ => trivial⟩
  size := related_looking hJ (fun _ => rfl) fun _ => rfl

/-- An attribute that is refused at an index leaves no more than an access. -/
theorem keeps_of_access (hJ : ∀ s, J s → J (s.access index)) :
    (collection index).Keeps False J P K where
  reads := reads_of_access hJ
  add v _ := by
    intro s hs hok
    rcases (s.getOrEmpty index).add_cases v with ⟨_, -, -, hstate⟩ | ⟨-, hanswer, -⟩
    · have haccess : (((collection index).add v).run.run s).state = s.access index :=
        congrArg (fun d => s.put d) hstate
      exact haccess.symm ▸ hJ s hs
    · exact absurd ⟨(), hanswer⟩ hok
  remove key _ := fun s _ hok => absurd ⟨(), rfl⟩ hok

end OwnedSet

end IRAttributes
