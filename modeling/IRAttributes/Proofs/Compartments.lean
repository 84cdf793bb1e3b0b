import IRAttributes.Proofs.Activity
import IRAttributes.Proofs.Keeping
import IRAttributes.Proofs.Lawful

/-!
A workspace in compartments. Something that holds of a workspace is often made
up of what holds of each context, each recorded store, each owned set and each
owned collection. It survives whatever is asked of a set or a collection in the
workspace as soon as it survives the few operations of each compartment, and
the accesses to the owned sets.
-/
namespace IRAttributes

/-- The context that a set belongs to, and whose attributes it has there. -/
def SetRef.holder? : SetRef → Option (Nat × Holder)
  | .function f => some (f.context, .entity f.handle)
  | .call c => some (c.context, .entity c.handle)
  | .invoke i => some (i.context, .entity i.handle)
  | .argument a => some (a.function.context, .argument a.function.handle a.position)
  | .entity context h => some (context, .entity h)
  | .recorded _ _ | .owned _ => none

/-- A set is that of a holder in a context, or that of a recorded entity, or an owned one. -/
theorem SetRef.holder_cases (r : SetRef) :
    (∃ k holder, r.holder? = some (k, holder) ∧
        r.attributes = holder.attributes (Workspace.contextStore k) ∧
        ∀ index, r.place index = .view k ⟨holder.handle, index⟩) ∨
      (∃ n entity, r = .recorded n entity) ∨ ∃ n, r = .owned n := by
  cases r with
  | function f => exact Or.inl ⟨f.context, .entity f.handle, rfl, rfl, fun _ => rfl⟩
  | call c => exact Or.inl ⟨c.context, .entity c.handle, rfl, rfl, fun _ => rfl⟩
  | invoke i => exact Or.inl ⟨i.context, .entity i.handle, rfl, rfl, fun _ => rfl⟩
  | argument a =>
    exact Or.inl ⟨a.function.context, .argument a.function.handle a.position, rfl, rfl,
      fun _ => rfl⟩
  | entity context h => exact Or.inl ⟨context, .entity h, rfl, rfl, fun _ => rfl⟩
  | recorded n entity => exact Or.inr (Or.inl ⟨n, entity, rfl⟩)
  | owned n => exact Or.inr (Or.inr ⟨n, rfl⟩)

namespace SetRef

/-- Access to an index depends on counting parameters, and in an owned set on what
an access keeps there. -/
theorem related_collectionAt {J : Workspace → Prop} (r : SetRef) {index : Index}
    (hcontext : ∀ k h, Action.Related (Diagonal J) Eq
      ((Workspace.contextStore k).parameterCount h) ((Workspace.contextStore k).parameterCount h))
    (hrecorder : ∀ n entity, Action.Related (Diagonal J) Eq
      ((Workspace.recorderStore n).parameterCount entity)
      ((Workspace.recorderStore n).parameterCount entity))
    (howned : ∀ n, r = .owned n → ∃ I, (Workspace.ownedSet n).Carries I J ∧
      ∀ s, I s → I (s.access index))
    {Q : Collection Workspace → Collection Workspace → Prop}
    (hQ : Q (r.place index).collection (r.place index).collection) :
    Action.Related (Diagonal J) Q (r.attributes.collectionAt index)
      (r.attributes.collectionAt index) := by
  rcases r.holder_cases with ⟨k, holder, -, hattributes, hplace⟩ | ⟨n, entity, rfl⟩ | ⟨n, rfl⟩
  · rw [hplace] at hQ
    rw [hattributes]
    exact holder.related_collectionAt (hcontext k holder.handle) hQ
  · exact Store.related_collectionAt (hrecorder n entity) hQ
  · -- the set is put back after the access, and the collection is lifted to the workspace
    obtain ⟨I, hcarries, hI⟩ := howned n rfl
    have haccess : Action.Related (Diagonal I)
        (fun c d => c = OwnedSet.collection index ∧ d = OwnedSet.collection index)
        (OwnedSet.attributeSet.collectionAt index) (OwnedSet.attributeSet.collectionAt index) :=
      OwnedSet.related_access hI ⟨rfl, rfl⟩
    refine Action.Related.bind (haccess.within hcarries) ?_
    rintro _ _ ⟨rfl, rfl⟩
    exact Action.Related.pure hQ

theorem related_parameterCount {J : Workspace → Prop} (r : SetRef)
    (hcontext : ∀ k h, Action.Related (Diagonal J) Eq
      ((Workspace.contextStore k).parameterCount h) ((Workspace.contextStore k).parameterCount h))
    (hrecorder : ∀ n entity, Action.Related (Diagonal J) Eq
      ((Workspace.recorderStore n).parameterCount entity)
      ((Workspace.recorderStore n).parameterCount entity))
    (howned : ∀ n, ∃ I, (Workspace.ownedSet n).Carries I J) :
    Step.Related (Diagonal J) Eq r.attributes.parameterCount r.attributes.parameterCount := by
  rcases r.holder_cases with ⟨k, holder, -, hattributes, -⟩ | ⟨n, entity, rfl⟩ | ⟨n, rfl⟩
  · rw [hattributes]
    exact holder.related_parameterCount (hcontext k holder.handle)
  · exact Store.related_parameterCount (hrecorder n entity)
  · obtain ⟨I, hcarries⟩ := howned n
    exact Step.Related.within hcarries (Step.Related.pure rfl)

end SetRef

namespace Workspace

/-- What is found at a number after one element was replaced. -/
theorem getD_set {α : Type} (l : List α) (n : Nat) (a d : α) (n' : Nat) :
    ((l.set n a)[n']?).getD d = if n = n' ∧ n < l.length then a else (l[n']?).getD d := by
  rw [List.getElem?_set]
  by_cases hn : n = n'
  · subst hn
    by_cases hlt : n < l.length
    · simp [hlt]
    · simp [hlt]
  · simp [hn]

/-- Putting back what is found at a number changes nothing. -/
theorem set_getD_self {α : Type} (l : List α) (n : Nat) (d : α) :
    l.set n ((l[n]?).getD d) = l := by
  by_cases hn : n < l.length
  · rw [List.getElem?_eq_getElem hn, Option.getD_some, List.set_getElem_self]
  · exact List.set_eq_of_length_le (Nat.le_of_not_lt hn)

/-- What holds number by number still does after one element was replaced. -/
theorem forall_getD_set {α : Type} {p : Nat → α → Prop} {l : List α} {n : Nat} {a d : α}
    (ha : p n a) (hl : ∀ n', p n' ((l[n']?).getD d)) (n' : Nat) :
    p n' (((l.set n a)[n']?).getD d) := by
  rw [getD_set]
  split
  · rename_i hat
    obtain ⟨rfl, -⟩ := hat
    exact ha
  · exact hl n'

/-- What holds of a workspace, compartment by compartment. -/
structure Compartments (J : Workspace → Prop) where
  context : Nat → Context → Prop
  recorder : Nat → OpenStore → Prop
  set : Nat → OwnedSet → Prop
  collection : Nat → OwnedCollection → Prop
  carries_context : ∀ k, (Workspace.context k).Carries (context k) J
  carries_recorder : ∀ n, (Workspace.recorder n).Carries (fun r => recorder n r.store) J
  carries_set : ∀ n, (ownedSet n).Carries (set n) J
  carries_collection : ∀ n, (ownedCollection n).Carries (collection n) J
  access : ∀ n s index, set n s → set n (s.access index)

namespace Compartments

variable {J : Workspace → Prop} {always : Prop} {P : Attribute → Prop} {K : Key → Prop}

/-- Counting the parameters of an entity changes nothing. -/
private theorem related_count_context (C : Compartments J) (k : Nat) (h : Handle) :
    Action.Related (Diagonal J) Eq ((contextStore k).parameterCount h)
      ((contextStore k).parameterCount h) :=
  Action.Related.within (C.carries_context k)
    (Step.Related.look (fun _ => rfl) fun _ _ => Action.agree_self _)

/-- A count of a recorded store is noted, and the store stays as it is. -/
private theorem related_count_recorder (C : Compartments J) (n : Nat) (entity : UInt32) :
    Action.Related (Diagonal J) Eq ((recorderStore n).parameterCount entity)
      ((recorderStore n).parameterCount entity) :=
  Action.Related.within (C.carries_recorder n)
    (Step.Related.diagonal fun _ hr => ⟨Action.agree_self _, hr⟩)

/-- Reaching for the collection at an index gives the one at its place. -/
theorem related_collectionAt (C : Compartments J) (r : SetRef) {index : Index}
    {Q : Collection Workspace → Collection Workspace → Prop}
    (hQ : Q (r.place index).collection (r.place index).collection) :
    Action.Related (Diagonal J) Q (r.attributes.collectionAt index)
      (r.attributes.collectionAt index) :=
  r.related_collectionAt C.related_count_context C.related_count_recorder
    (fun n _ => ⟨C.set n, C.carries_set n, fun s hs => C.access n s index hs⟩) hQ

theorem related_parameterCount (C : Compartments J) (r : SetRef) :
    Step.Related (Diagonal J) Eq r.attributes.parameterCount r.attributes.parameterCount :=
  r.related_parameterCount C.related_count_context C.related_count_recorder
    fun n => ⟨C.set n, C.carries_set n⟩

/-- In each compartment, additions and removals within limits keep what holds there. -/
structure Keep (C : Compartments J) (always : Prop) (P : Attribute → Prop) (K : Key → Prop) :
    Prop where
  context : ∀ k h index, Context.store.Keeps always (C.context k) P K h index
  recorder : ∀ n entity index, OpenStore.store.Keeps always (C.recorder n) P K entity index
  set : ∀ n index, (OwnedSet.collection index).Keeps always (C.set n) P K
  collection : ∀ n, OwnedCollection.collection.Keeps always (C.collection n) P K

namespace Keep

variable {C : Compartments J}

theorem at_collection (h : C.Keep always P K) (r : CollectionRef) :
    r.collection.Keeps always J P K := by
  cases r with
  | view k v => exact ((h.context k v.entity v.index).within (C.carries_context k)).view
  | recordedView n v =>
    exact ((h.recorder n v.entity v.index).recorded.within (C.carries_recorder n)).view
  | owned n => exact (h.collection n).within (C.carries_collection n)
  | ownedAt n index => exact (h.set n index).within (C.carries_set n)

theorem at_set (h : C.Keep always P K) (r : SetRef) (index : Index) :
    r.attributes.Keeps always J P K index :=
  C.related_collectionAt r ⟨rfl, h.at_collection (r.place index)⟩

/-- Each owned set takes what is within limits at all of its indices. -/
theorem at_owned (h : C.Keep always P K) (n : Nat) (index : Index) :
    OwnedSet.attributeSet.Keeps always (C.set n) P K index :=
  OwnedSet.related_access (fun s hs => C.access n s index hs) ⟨rfl, h.set n index⟩

theorem run_onStore (h : C.Keep always P K) (k : Nat) (e : Handle) {request : StoreRequest}
    (hP : ∀ v, v.key ∈ request.addedKeys → P v)
    (hK : ∀ key, request.removal? = some key → K key) :
    Action.Keeps always J (Activity.onStore k e request).run :=
  (request.keeps (fun index => (h.context k e index).within (C.carries_context k)) hP hK).map _

theorem run_onRecorder (h : C.Keep always P K) (n : Nat) (entity : UInt32)
    {request : StoreRequest} (hP : ∀ v, v.key ∈ request.addedKeys → P v)
    (hK : ∀ key, request.removal? = some key → K key) :
    Action.Keeps always J (Activity.onRecorder n entity request).run :=
  (request.keeps
    (fun index => (h.recorder n entity index).recorded.within (C.carries_recorder n)) hP hK).map _

theorem run_onSet (h : C.Keep always P K) (r : SetRef) {request : SetRequest}
    (hbatch : request.isBatch = true → always) (hP : ∀ v, v.key ∈ request.addedKeys → P v)
    (hK : ∀ key, request.removal? = some key → K key) :
    Action.Keeps always J (Activity.onSet r request).run :=
  (request.keeps (C.related_parameterCount r) (h.at_set r) hbatch hP hK).map _

theorem run_onCollection (h : C.Keep always P K) (r : CollectionRef) {request : CollectionRequest}
    (hP : ∀ v, v.key ∈ request.addedKeys → P v)
    (hK : ∀ key, request.removal? = some key → K key) :
    Action.Keeps always J (Activity.onCollection r request).run :=
  (request.keeps (h.at_collection r) hP hK).map _

theorem run_setAlignment (h : C.Keep always P K) (a : Argument) (alignment : UInt64)
    (hP : ∀ v, v.key = .kind .alignment → P v) :
    Action.Keeps always J (Activity.setAlignment a alignment).run := by
  have hadd : ∀ v, Attribute.ofPayload .alignment alignment = .ok v →
      Action.Keeps always J (a.function.attributes.add a.index v) := by
    intro v hv
    refine (h.at_set (.function a.function) a.index).at ?_
    intro c hc
    exact hc.add v (hP v (Attribute.key_of_ofPayload hv))
  have haligned : Action.Keeps always J (a.setAlignment alignment) :=
    Action.Keeps.checked _ fun v hv => (hadd v hv).map _
  exact haligned.map _

end Keep

/-- Reaching for an index keeps what accesses keep. -/
theorem related_reach (C : Compartments J) (r : SetRef) (index : Index) :
    Action.Related (Diagonal J) Eq (Activity.reach r index).run (Activity.reach r index).run := by
  have hreach : Action.Related (Diagonal J) (fun _ _ => True) (r.attributes.collectionAt index)
      (r.attributes.collectionAt index) := C.related_collectionAt r trivial
  refine Action.Related.bind (P := Eq) (Action.Related.bind hreach ?_) ?_
  · intro _ _ _
    exact Action.Related.pure rfl
  · intro _ _ _
    exact Action.Related.pure rfl

end Compartments

end Workspace

end IRAttributes
