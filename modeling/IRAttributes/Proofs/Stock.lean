import IRAttributes.Proofs.Compartments
import IRAttributes.Proofs.Ledger

/-!
What a workspace has in stock: the sets, the collections and the recorded
stores, without the contexts. Every activity keeps the sets and collections of
a workspace lawful and the attributes in its stores admissible, as long as only
admissible attributes are brought along; and it changes no context but the one
it is addressed to. Both facts have one proof, since everything that is asked
of a set or a collection comes down to the same few operations on its place.
-/
namespace IRAttributes

variable {P : Attribute → Prop}

namespace OpenStore

/-- Every attribute in the store is admissible. -/
def Holds (P : Attribute → Prop) (s : OpenStore) : Prop :=
  ∀ entity index, ∀ v ∈ s.attributes entity index, P v

theorem attributes_setAttributes (s : OpenStore) (entity : UInt32) (index : Index)
    (vs : List Attribute) (entity' : UInt32) (index' : Index) :
    (s.setAttributes entity index vs).attributes entity' index' =
      if (entity, index) = (entity', index') then vs else s.attributes entity' index' := by
  unfold attributes setAttributes
  split
  · rename_i hsame
    rw [← hsame]
    have hput := KeyedList.find?_put_self Prod.fst ((entity, index), vs) s.slots
    simp only at hput
    rw [hput, Option.map_some, Option.getD_some]
  · rename_i hother
    rw [KeyedList.find?_put_of_ne Prod.fst ((entity, index), vs) s.slots hother]

variable {s : OpenStore}

theorem Holds.setAttributes (h : s.Holds P) {entity : UInt32} {index : Index}
    {vs : List Attribute} (hvs : ∀ v ∈ vs, P v) : (s.setAttributes entity index vs).Holds P := by
  intro entity' index' v hv
  rw [attributes_setAttributes] at hv
  split at hv
  · exact hvs v hv
  · exact h entity' index' v hv

theorem Holds.erase (h : s.Holds P) (entity : UInt32) (index : Index) (key : Key) :
    (s.erase entity index key).Holds P := by
  refine h.setAttributes ?_
  intro v hv
  exact h entity index v (List.mem_filter.mp hv).1

theorem Holds.add (h : s.Holds P) (entity : UInt32) (index : Index) {v : Attribute} (hv : P v) :
    (s.add entity index v).Holds P := by
  refine h.setAttributes ?_
  intro w hw
  rcases List.mem_append.mp hw with hw | hw
  · exact h entity index w (List.mem_filter.mp hw).1
  · obtain rfl := List.mem_singleton.mp hw
    exact hv

/-- Looking at a store keeps everything. -/
theorem reads {J : OpenStore → Prop} (hJ : ∀ s, J s → s.Holds P) (entity : UInt32)
    (index : Index) : store.Reads (Diagonal J) P store entity index where
  parameterCount := Step.Related.look (fun _ => rfl) fun _ _ => Action.agree_self _
  count := Step.Related.look (fun _ => rfl) fun _ _ => rfl
  attributes := Step.Related.look (fun _ => rfl) fun s h => ⟨rfl, hJ s h entity index⟩
  find? _ := Step.Related.look (fun _ => rfl) fun _ _ => rfl

theorem writes (entity : UInt32) (index : Index) :
    store.Writes (Diagonal (Holds P)) P store entity index where
  parameterCount := (reads (fun _ h => h) entity index).parameterCount
  add v hv := by
    refine Step.Related.diagonal ?_
    intro s h
    exact ⟨rfl, h.add entity index hv⟩
  remove key := by
    refine Step.Related.diagonal ?_
    intro s h
    exact ⟨rfl, h.erase entity index key⟩

end OpenStore

namespace Context

variable {J : Context → Prop}

/-- Looking at a context keeps everything, and shows well-formed attributes only. -/
theorem reads (J : Context → Prop) (hP : ∀ v, v.WellFormed → P v) (h : Handle) (index : Index) :
    store.Reads (Diagonal J) P store h index where
  parameterCount := Step.Related.look (fun _ => rfl) fun _ _ => Action.agree_self _
  count := Step.Related.look (fun _ => rfl) fun _ _ => rfl
  attributes := by
    refine Step.Related.look (fun _ => rfl) ?_
    intro c _
    refine ⟨rfl, ?_⟩
    intro v hv
    exact hP v (wellFormed_of_mem_attributes hv)
  find? _ := Step.Related.look (fun _ => rfl) fun _ _ => rfl

/-- What holds of all contexts is kept by all changes. -/
theorem writes_of_forall (hJ : ∀ c, J c) (h : Handle) (index : Index) :
    store.Writes (Diagonal J) P store h index where
  parameterCount := Step.Related.look (fun _ => rfl) fun _ _ => Action.agree_self _
  add _ _ := Step.Related.diagonal fun _ _ => ⟨Action.agree_self _, hJ _⟩
  remove _ := Step.Related.diagonal fun _ _ => ⟨rfl, hJ _⟩

end Context

def SetRef.context? (r : SetRef) : Option Nat := r.holder?.map Prod.fst

def CollectionRef.context? : CollectionRef → Option Nat
  | .view context _ => some context
  | .recordedView _ _ | .owned _ | .ownedAt _ _ => none

/-- The context that an activity may change, if there is one. -/
def Activity.context? : Activity → Option Nat
  | .addFunction context _ _ => some context
  | .buildCall context _ => some context
  | .buildInvoke context _ => some context
  | .removeEntity context _ => some context
  | .onStore context _ _ => some context
  | .onSet r _ => r.context?
  | .onCollection r _ => r.context?
  | .setAlignment a _ => some a.function.context
  | .addCollection target _ _ => target.context?
  | .addFrom target _ _ => target.context?
  | .apply _ target => target.context?
  | _ => none

namespace Workspace

structure Stocked (P : Attribute → Prop) (w : Workspace) : Prop where
  sets : ∀ s ∈ w.sets, s.Lawful P
  collections : ∀ c ∈ w.collections, c.Lawful P
  recorders : ∀ r ∈ w.recorders, r.store.Holds P

/-- A workspace with its stock in order that comes from another one by changes of
at most one context. -/
structure Beside (P : Attribute → Prop) (changed : Option Nat) (w₀ w : Workspace) : Prop where
  stocked : w.Stocked P
  size : w.contexts.length = w₀.contexts.length
  contextAt : ∀ k, changed ≠ some k → w.contextAt k = w₀.contextAt k

variable {changed : Option Nat} {w₀ w : Workspace}

theorem Stocked.beside (h : w.Stocked P) : Beside P changed w w := ⟨h, rfl, fun _ _ => rfl⟩

theorem contextAt_put (k : Nat) (c : Context) (w : Workspace) (k' : Nat) :
    ((context k).put c w).contextAt k' =
      if k = k' ∧ k < w.contexts.length then c else w.contextAt k' :=
  getD_set w.contexts k c .empty k'

theorem getSet_put (n : Nat) (s : OwnedSet) (w : Workspace) (n' : Nat) :
    ((ownedSet n).put s w).getSet n' = if n = n' ∧ n < w.sets.length then s else w.getSet n' :=
  getD_set w.sets n s .empty n'

theorem put_contextAt (k : Nat) (w : Workspace) : (context k).put (w.contextAt k) w = w :=
  congrArg (fun contexts => { w with contexts := contexts }) (set_getD_self w.contexts k .empty)

theorem run_parameterCount (w : Workspace) (k : Nat) (h : Handle) :
    ((contextStore k).parameterCount h).run.run w =
      ⟨(w.contextAt k).parameterCount h, w, []⟩ :=
  congrArg (fun w' => Outcome.mk ((w.contextAt k).parameterCount h) w' []) (put_contextAt k w)

/-- What holds of all elements and of the default holds of what is found at a place. -/
private theorem getD_of_forall {α : Type} {p : α → Prop} {l : List α} {d : α}
    (hl : ∀ a ∈ l, p a) (hd : p d) (n : Nat) : p ((l[n]?).getD d) := by
  cases hn : l[n]? with
  | none => exact hd
  | some a => exact hl a (List.mem_of_getElem? hn)

private theorem forall_set {α : Type} {p : α → Prop} {l : List α} (hl : ∀ a ∈ l, p a) {b : α}
    (hb : p b) (n : Nat) : ∀ a ∈ l.set n b, p a := by
  intro a ha
  rcases List.mem_or_eq_of_mem_set ha with hmem | rfl
  · exact hl a hmem
  · exact hb

/-- A context may become anything if it is the one that changes, and stays as it is if not. -/
theorem carries_context (k : Nat) :
    (context k).Carries (fun c => changed ≠ some k → c = w₀.contextAt k)
      (Beside P changed w₀) where
  get w h := h.contextAt k
  put w c h hc := by
    refine ⟨⟨h.stocked.sets, h.stocked.collections, h.stocked.recorders⟩, ?_, ?_⟩
    · rw [← h.size]
      exact List.length_set
    · exact forall_getD_set (p := fun k c => changed ≠ some k → c = w₀.contextAt k) hc h.contextAt

theorem carries_recorder (n : Nat) :
    (recorder n).Carries (fun r => r.store.Holds P) (Beside P changed w₀) where
  get w h := by
    refine getD_of_forall h.stocked.recorders ?_ n
    intro entity index v hv
    cases hv
  put w r h hr := by
    refine ⟨⟨h.stocked.sets, h.stocked.collections, ?_⟩, h.size, h.contextAt⟩
    exact forall_set h.stocked.recorders hr n

theorem carries_ownedSet (n : Nat) :
    (ownedSet n).Carries (OwnedSet.Lawful P) (Beside P changed w₀) where
  get w h := getD_of_forall h.stocked.sets OwnedSet.lawful_empty n
  put w s h hs := by
    refine ⟨⟨?_, h.stocked.collections, h.stocked.recorders⟩, h.size, h.contextAt⟩
    exact forall_set h.stocked.sets hs n

theorem carries_ownedCollection (n : Nat) :
    (ownedCollection n).Carries (OwnedCollection.Lawful P) (Beside P changed w₀) where
  get w h := getD_of_forall h.stocked.collections (OwnedCollection.lawful_empty .function) n
  put w c h hc := by
    refine ⟨⟨h.stocked.sets, ?_, h.stocked.recorders⟩, h.size, h.contextAt⟩
    exact forall_set h.stocked.collections hc n

def besideCompartments (P : Attribute → Prop) (changed : Option Nat) (w₀ : Workspace) :
    Compartments (Beside P changed w₀) where
  context k c := changed ≠ some k → c = w₀.contextAt k
  recorder _ s := s.Holds P
  set _ s := s.Lawful P
  collection _ c := c.Lawful P
  carries_context := carries_context
  carries_recorder := carries_recorder
  carries_set := carries_ownedSet
  carries_collection := carries_ownedCollection
  access _ _ index h := h.put (h.getOrEmpty index)

theorem contextStore_reads (hP : ∀ v, v.WellFormed → P v) (k : Nat) (h : Handle) (index : Index) :
    (contextStore k).Reads (Diagonal (Beside P changed w₀)) P (contextStore k) h index :=
  (Context.reads _ hP h index).within (carries_context k)

theorem contextStore_writes {k : Nat} (hk : changed = some k) (h : Handle) (index : Index) :
    (contextStore k).Writes (Diagonal (Beside P changed w₀)) P (contextStore k) h index :=
  (Context.writes_of_forall (fun _ hne => absurd hk hne) h index).within (carries_context k)

theorem recorderStore_reads (n : Nat) (entity : UInt32) (index : Index) :
    (recorderStore n).Reads (Diagonal (Beside P changed w₀)) P (recorderStore n) entity index :=
  (OpenStore.reads (fun _ h => h) entity index).recorded.within (carries_recorder n)

theorem recorderStore_writes (n : Nat) (entity : UInt32) (index : Index) :
    (recorderStore n).Writes (Diagonal (Beside P changed w₀)) P (recorderStore n) entity index :=
  (OpenStore.writes entity index).recorded.within (carries_recorder n)

end Workspace

section References

open Workspace

variable {changed : Option Nat} {w₀ w : Workspace}

theorem CollectionRef.reads (hP : ∀ v, v.WellFormed → P v) (r : CollectionRef) :
    r.collection.Reads (Diagonal (Beside P changed w₀)) P r.collection := by
  cases r with
  | view context v => exact (contextStore_reads hP context v.entity v.index).view
  | recordedView recorder v => exact (recorderStore_reads recorder v.entity v.index).view
  | owned number =>
    exact (OwnedCollection.reads fun _ h => h.admissible).within (carries_ownedCollection number)
  | ownedAt number index =>
    exact (OwnedSet.collection_reads index).within (carries_ownedSet number)

theorem CollectionRef.writes {r : CollectionRef} (hr : r.context? = none ∨ r.context? = changed) :
    r.collection.Writes (Diagonal (Beside P changed w₀)) P r.collection := by
  cases r with
  | view context v =>
    have hcontext : changed = some context := by
      rcases hr with hnone | hsome
      · cases hnone
      · exact hsome.symm
    exact (contextStore_writes hcontext v.entity v.index).view
  | recordedView recorder v => exact (recorderStore_writes recorder v.entity v.index).view
  | owned number => exact OwnedCollection.writes.within (carries_ownedCollection number)
  | ownedAt number index =>
    exact (OwnedSet.collection_writes index).within (carries_ownedSet number)

theorem SetRef.context?_place (r : SetRef) (index : Index) :
    (r.place index).context? = r.context? := by
  cases r <;> rfl

theorem SetRef.reads (hP : ∀ v, v.WellFormed → P v) (r : SetRef) (index : Index) :
    r.attributes.Reads (Diagonal (Beside P changed w₀)) P r.attributes index :=
  AttributeSet.Reads.of_count ((besideCompartments P changed w₀).related_parameterCount r)
    ((besideCompartments P changed w₀).related_collectionAt r ((r.place index).reads hP))

theorem SetRef.writes {r : SetRef} (hr : r.context? = none ∨ r.context? = changed)
    (index : Index) :
    r.attributes.Writes (Diagonal (Beside P changed w₀)) P r.attributes index := by
  refine (besideCompartments P changed w₀).related_collectionAt r (CollectionRef.writes ?_)
  rw [r.context?_place]
  exact hr

end References

namespace Workspace

variable {changed : Option Nat} {w₀ w : Workspace}

/-- What is done to the one context that may change. -/
private theorem related_changing {α : Type} {k : Nat} (hk : changed = some k)
    (x : Step Context α) :
    Step.Related (Diagonal (Beside P changed w₀)) Eq (x.within (context k))
      (x.within (context k)) := by
  refine Step.Related.within (carries_context k) (Step.Related.diagonal ?_)
  intro c _
  exact ⟨rfl, fun hne => absurd hk hne⟩

/-- A copy of something lawful joins the sets. -/
private theorem related_addSet {s : OwnedSet} (hs : s.Lawful P) :
    Step.Related (Diagonal (Beside P changed w₀)) Eq (addSet s) (addSet s) := by
  refine Step.Related.diagonal ?_
  intro w h
  refine ⟨rfl, ⟨?_, h.stocked.collections, h.stocked.recorders⟩, h.size, h.contextAt⟩
  intro s' hs'
  rcases List.mem_append.mp hs' with hmem | hmem
  · exact h.stocked.sets s' hmem
  · exact List.mem_singleton.mp hmem ▸ hs

private theorem related_addCollection {c : OwnedCollection} (hc : c.Lawful P) :
    Step.Related (Diagonal (Beside P changed w₀)) Eq (addCollection c) (addCollection c) := by
  refine Step.Related.diagonal ?_
  intro w h
  refine ⟨rfl, ⟨h.stocked.sets, ?_, h.stocked.recorders⟩, h.size, h.contextAt⟩
  intro c' hc'
  rcases List.mem_append.mp hc' with hmem | hmem
  · exact h.stocked.collections c' hmem
  · exact List.mem_singleton.mp hmem ▸ hc

/-- What is read from the workspace, with what is known about it. -/
private theorem related_read {α : Type} {p : α → Prop} {f : Workspace → α}
    (hf : ∀ w, Beside P changed w₀ w → p (f w)) :
    Action.Related (Diagonal (Beside P changed w₀)) (fun a b => a = b ∧ p a) (Action.read f)
      (Action.read f) := by
  refine Action.Related.lift (Step.Related.read ?_)
  rintro w _ ⟨rfl, h⟩
  exact ⟨rfl, hf w h⟩

theorem Beside.getSet (h : Beside P changed w₀ w) (n : Nat) : (w.getSet n).Lawful P :=
  (carries_ownedSet n).get w h

theorem Beside.getCollection (h : Beside P changed w₀ w) (n : Nat) :
    (w.getCollection n).Lawful P :=
  (carries_ownedCollection n).get w h

/-- A lawful set is applied to anything that can be written. -/
private theorem related_applyTo {σ : Type} {R : σ → σ → Prop} {s : OwnedSet} (hs : s.Lawful P)
    {S : AttributeSet σ} (hS : ∀ index, S.Writes R P S index) :
    Action.Related R Eq (s.applyTo S) (s.applyTo S) :=
  s.applyTo_related (fun c hc => (hs.collections c hc).admissible) fun c _ => hS c.index

/-- An action on the one context that may change. -/
private theorem related_action {α : Type} {k : Nat} (hk : changed = some k)
    (x : Action Context α) :
    Action.Related (Diagonal (Beside P changed w₀)) Eq (Action.within (context k) x)
      (Action.within (context k) x) := by
  refine Step.Related.mono (related_changing hk x.run) ?_
  rintro r _ rfl
  exact Action.agree_self r

private theorem related_setAlignment (hP : ∀ v, v.WellFormed → P v) (a : Argument)
    (alignment : UInt64) :
    Action.Related (Diagonal (Beside P (some a.function.context) w₀)) Eq
      (a.setAlignment alignment) (a.setAlignment alignment) := by
  refine Action.Related.bind (P := fun v w => v = w ∧ P v) ?_ ?_
  · cases hv : Attribute.ofPayload .alignment alignment with
    | error e => exact Action.Related.throw e
    | ok v => exact Action.Related.pure ⟨rfl, hP v (Attribute.wellFormed_of_ofPayload hv)⟩
  · rintro v _ ⟨rfl, hv⟩
    have hwrites : (SetRef.function a.function).attributes.Writes
        (Diagonal (Beside P (SetRef.function a.function).context? w₀)) P
        (SetRef.function a.function).attributes a.index :=
      SetRef.writes (Or.inr rfl) a.index
    refine Action.Related.map (Action.Related.bind hwrites ?_) _
    intro c d hcd
    exact hcd.add v hv

theorem run_related (hP : ∀ v, v.WellFormed → P v) (a : Activity) (hvalues : ∀ v ∈ a.values, P v) :
    Action.Related (Diagonal (Beside P a.context? w₀)) Eq a.run a.run := by
  cases a with
  | addFunction k name count =>
    exact Action.Related.map (Action.Related.lift (Step.Related.map (related_changing rfl _) _)) _
  | buildCall k callee =>
    exact Action.Related.map (Action.Related.map (related_action rfl _) _) _
  | buildInvoke k callee =>
    exact Action.Related.map (Action.Related.map (related_action rfl _) _) _
  | removeEntity k h => exact Action.Related.map (Action.Related.lift (related_changing rfl _)) _
  | newSet =>
    exact Action.Related.map (Action.Related.lift (related_addSet OwnedSet.lawful_empty)) _
  | copySet n =>
    refine Action.Related.bind (related_read fun w h => h.getSet n) ?_
    rintro s _ ⟨rfl, hs⟩
    exact Action.Related.map (Action.Related.lift (related_addSet hs)) _
  | newCollection index =>
    have hempty := OwnedCollection.lawful_empty (P := P) index
    exact Action.Related.map (Action.Related.lift (related_addCollection hempty)) _
  | copyCollection n =>
    refine Action.Related.bind (related_read fun w h => h.getCollection n) ?_
    rintro c _ ⟨rfl, hc⟩
    exact Action.Related.map (Action.Related.lift (related_addCollection hc)) _
  | copyAt n index =>
    refine Action.Related.bind (related_read fun w h => (h.getSet n).getOrEmpty index) ?_
    rintro c _ ⟨rfl, hc⟩
    exact Action.Related.map (Action.Related.lift (related_addCollection hc)) _
  | onStore k h request =>
    refine Action.Related.map (request.run_related hvalues (contextStore_reads hP k h) ?_) _
    intro index _
    exact contextStore_writes rfl h index
  | onRecorder n entity request =>
    refine Action.Related.map (request.run_related hvalues (recorderStore_reads n entity) ?_) _
    intro index _
    exact recorderStore_writes n entity index
  | reach r index => exact (besideCompartments P none w₀).related_reach r index
  | onSet r request =>
    have hcount : Step.Related (Diagonal (Beside P r.context? w₀)) Eq
        r.attributes.parameterCount r.attributes.parameterCount :=
      (besideCompartments P r.context? w₀).related_parameterCount r
    refine Action.Related.map (SetRequest.run_related hP hvalues hcount ?_ ?_) _
    · intro index _
      exact r.reads hP index
    · intro index _
      exact SetRef.writes (Or.inr rfl) index
  | onCollection r request =>
    have hwrites : r.collection.Writes (Diagonal (Beside P r.context? w₀)) P r.collection :=
      CollectionRef.writes (Or.inr rfl)
    exact Action.Related.map (request.run_related hP hvalues (r.reads hP) hwrites) _
  | setAlignment a alignment =>
    refine Action.Related.bind (related_setAlignment hP a alignment) ?_
    intro _ _ _
    exact Action.Related.pure rfl
  | addCollection target index source =>
    have hwrites : target.attributes.Writes (Diagonal (Beside P target.context? w₀)) P
        target.attributes index := SetRef.writes (Or.inr rfl) index
    exact Action.Related.map (hwrites.addCollection (source.reads hP)) _
  | addFrom target index source =>
    have hwrites : target.attributes.Writes (Diagonal (Beside P target.context? w₀)) P
        target.attributes index := SetRef.writes (Or.inr rfl) index
    refine Action.Related.map (Action.Related.bind (source.reads hP index).collectionAt ?_) _
    intro c d hcd
    exact hwrites.addCollection hcd
  | merge source target =>
    refine Action.Related.map (Action.Related.bind (related_read fun w h => h.getSet source) ?_) _
    rintro s _ ⟨rfl, hs⟩
    exact (related_applyTo hs OwnedSet.writes).within (carries_ownedSet target)
  | apply source target =>
    refine Action.Related.map (Action.Related.bind (related_read fun w h => h.getSet source) ?_) _
    rintro s _ ⟨rfl, hs⟩
    exact related_applyTo hs (SetRef.writes (Or.inr rfl))

/-- An activity keeps the stock in order and the contexts it is not addressed to as they are. -/
theorem Stocked.perform (hP : ∀ v, v.WellFormed → P v) (h : w.Stocked P) {a : Activity}
    (hvalues : ∀ v ∈ a.values, P v) : Beside P a.context? w (w.perform a).state :=
  (run_related hP a hvalues).kept h.beside

theorem Stocked.after (hP : ∀ v, v.WellFormed → P v) (h : w.Stocked P)
    (activities : List Activity) (hvalues : ∀ a ∈ activities, ∀ v ∈ a.values, P v) :
    (w.after activities).Stocked P := by
  induction activities generalizing w with
  | nil => exact h
  | cons a rest ih =>
    have hfirst := (h.perform hP (hvalues a List.mem_cons_self)).stocked
    exact ih hfirst fun b hb => hvalues b (List.mem_cons_of_mem a hb)

theorem Stocked.size_after (hP : ∀ v, v.WellFormed → P v) (h : w.Stocked P)
    (activities : List Activity) (hvalues : ∀ a ∈ activities, ∀ v ∈ a.values, P v) :
    (w.after activities).contexts.length = w.contexts.length := by
  induction activities generalizing w with
  | nil => rfl
  | cons a rest ih =>
    have hfirst := h.perform hP (hvalues a List.mem_cons_self)
    refine (ih hfirst.stocked ?_).trans hfirst.size
    intro b hb
    exact hvalues b (List.mem_cons_of_mem a hb)

theorem stocked_ofCounts (contexts : Nat) (parameterCounts : List (Option UInt32)) :
    (ofCounts contexts parameterCounts).Stocked P where
  sets := by simp [ofCounts]
  collections := by simp [ofCounts]
  recorders := by
    intro r hr
    obtain ⟨count, -, rfl⟩ := List.mem_map.mp hr
    intro entity index v hv
    cases hv

theorem stocked_reached (contexts : Nat) (parameterCounts : List (Option UInt32))
    {activities : List Activity} (hwell : ∀ a ∈ activities, a.WellFormed) :
    (reached contexts parameterCounts activities).Stocked Attribute.WellFormed :=
  (stocked_ofCounts contexts parameterCounts).after (fun _ hv => hv) activities hwell

/-- With any attributes at all, sets and collections still are lawful. -/
theorem stocked_of_run (contexts : Nat) (parameterCounts : List (Option UInt32))
    (activities : List Activity) :
    (reached contexts parameterCounts activities).Stocked fun _ => True :=
  (stocked_ofCounts contexts parameterCounts).after (fun _ _ => trivial) activities
    fun _ _ _ _ => trivial

end Workspace

theorem OwnedSet.Reached.lawful {s : OwnedSet} (h : s.Reached) : s.Lawful fun _ => True := by
  obtain ⟨contexts, parameterCounts, activities, hmem⟩ := h
  exact (Workspace.stocked_of_run contexts parameterCounts activities).sets s hmem

/-- A set that can be built is lawful, and its attributes are well-formed. -/
theorem OwnedSet.Built.lawful {s : OwnedSet} (h : s.Built) : s.Lawful Attribute.WellFormed := by
  obtain ⟨contexts, parameterCounts, activities, hwell, hmem⟩ := h
  exact (Workspace.stocked_reached contexts parameterCounts hwell).sets s hmem

end IRAttributes
