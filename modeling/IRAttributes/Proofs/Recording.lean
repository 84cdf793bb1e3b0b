import IRAttributes.Proofs.Filing
import IRAttributes.Proofs.Focus

/-!
What a run of a workspace is for one of its owned sets. An activity comes to a few
uses of the set, often none: it is asked something itself, or what it has at an
index is copied to somewhere else, or it is given a copy, which has become a list
of attributes by then, or another set is merged into it or applied to it. So what
a run makes of an owned set is what these uses make of it, and the set has
collections at exactly the indices that it was used at.
-/
namespace IRAttributes

/-- A use of a set, if that is the owned set with number `n`. -/
def SetRef.uses (n : Nat) (use : SetUse) (r : SetRef) : List SetUse :=
  if r = .owned n then [use] else []

/-- A request of a collection, as a use of the set that has it, if that is the
owned set with number `n`. -/
def CollectionRef.uses (n : Nat) (request : CollectionRequest) : CollectionRef → List SetUse
  | .ownedAt m index => (SetRef.owned m).uses n (.onCollection index request)
  | _ => []

namespace Activity

/-- The collection that an owned set has at an index is only to be had by reaching for it. -/
def withAccess : Activity → List Activity
  | .onCollection (.ownedAt n index) request =>
      [.reach (.owned n) index, .onCollection (.ownedAt n index) request]
  | a => [a]

/-- The uses of the owned set with number `n` that an activity comes to. A copy
from a set that refuses the index never comes to its target. -/
def uses (n : Nat) (w : Workspace) : Activity → List SetUse
  | .reach r index => r.uses n (.reach index)
  | .onSet r request => r.uses n (.onSet request)
  | .onCollection r request => r.uses n request
  | .addCollection target index source =>
      source.uses n .attributes ++
        target.uses n (.onSet (.addAll index (source.collection.attributes.peek w)))
  | .addFrom target index source =>
      source.uses n (.onCollection index .attributes) ++
        match (source.attributes.held index).run.peek w with
        | .ok vs => target.uses n (.onSet (.addAll index vs))
        | .error _ => []
  | .merge source target => (SetRef.owned target).uses n (.merge (w.getSet source))
  | .apply source target => target.uses n (.merge (w.getSet source))
  | _ => []

end Activity

namespace Workspace

/-- The uses of the owned set with number `n` that a run comes to. -/
def uses (n : Nat) : Workspace → List Activity → List SetUse
  | _, [] => []
  | w, a :: rest => a.uses n w ++ uses n (w.after a.withAccess) rest

/-- The workspace has an owned set under a number. -/
structure HasSet (n : Nat) (s : OwnedSet) (w : Workspace) : Prop where
  lt : n < w.sets.length
  getSet : w.getSet n = s

variable {n m : Nat} {s : OwnedSet} {w w' : Workspace}

/-- What is not the set itself may become anything. -/
private theorem carries_hasSet_context (k : Nat) :
    (context k).Carries (fun _ => True) (HasSet n s) where
  get _ _ := trivial
  put _ _ h _ := ⟨h.lt, h.getSet⟩

private theorem carries_hasSet_recorder (k : Nat) :
    (recorder k).Carries (fun r => r.store.Holds fun _ => True) (HasSet n s) where
  get _ _ := fun _ _ _ _ => trivial
  put _ _ h _ := ⟨h.lt, h.getSet⟩

private theorem carries_hasSet_collection (k : Nat) :
    (ownedCollection k).Carries (fun _ => True) (HasSet n s) where
  get _ _ := trivial
  put _ _ h _ := ⟨h.lt, h.getSet⟩

private theorem carries_hasSet_set (m : Nat) :
    (ownedSet m).Carries (fun t => m = n → t = s) (HasSet n s) where
  get _ h heq := heq ▸ h.getSet
  put w t h ht := by
    refine ⟨List.length_set.symm ▸ h.lt, ?_⟩
    rw [getSet_put]
    split
    · rename_i hat
      exact ht hat.1
    · exact h.getSet

private theorem contextStore_reads_hasSet (k : Nat) (h : Handle) (index : Index) :
    (contextStore k).Reads (Diagonal (HasSet n s)) (fun _ => True) (contextStore k) h index :=
  (Context.reads _ (fun _ _ => trivial) h index).within (carries_hasSet_context k)

private theorem contextStore_writes_hasSet (k : Nat) (h : Handle) (index : Index) :
    (contextStore k).Writes (Diagonal (HasSet n s)) (fun _ => True) (contextStore k) h index :=
  (Context.writes_of_forall (fun _ => trivial) h index).within (carries_hasSet_context k)

private theorem recorderStore_reads_hasSet (k : Nat) (entity : UInt32) (index : Index) :
    (recorderStore k).Reads (Diagonal (HasSet n s)) (fun _ => True) (recorderStore k) entity
      index :=
  (OpenStore.reads (fun _ h => h) entity index).recorded.within (carries_hasSet_recorder k)

private theorem recorderStore_writes_hasSet (k : Nat) (entity : UInt32) (index : Index) :
    (recorderStore k).Writes (Diagonal (HasSet n s)) (fun _ => True) (recorderStore k) entity
      index :=
  (OpenStore.writes entity index).recorded.within (carries_hasSet_recorder k)

end Workspace

section Elsewhere

open Workspace

variable {n m : Nat} {s : OwnedSet} {index : Index}

/-- What is put into another set is of no concern. -/
private theorem carries_component_elsewhere (hm : m ≠ n) :
    (OwnedSet.component index).Carries (fun _ => True) fun t => m = n → t = s where
  get _ _ := trivial
  put _ _ _ _ heq := absurd heq hm

/-- Looking at a collection that the set does not have leaves the set alone. -/
theorem CollectionRef.reads_elsewhere {r : CollectionRef} (hr : ∀ index, r ≠ .ownedAt n index) :
    r.collection.Reads (Diagonal (HasSet n s)) (fun _ => True) r.collection := by
  have hreads : OwnedCollection.collection.Reads (Diagonal fun _ => True) (fun _ => True)
      OwnedCollection.collection := OwnedCollection.reads fun _ _ _ _ => trivial
  cases r with
  | view k v => exact (contextStore_reads_hasSet k v.entity v.index).view
  | recordedView k v => exact (recorderStore_reads_hasSet k v.entity v.index).view
  | owned k => exact hreads.within (carries_hasSet_collection k)
  | ownedAt m index =>
    have hm : m ≠ n := fun heq => hr index (heq ▸ rfl)
    exact (hreads.within (carries_component_elsewhere hm)).within (carries_hasSet_set m)

theorem CollectionRef.writes_elsewhere {r : CollectionRef} (hr : ∀ index, r ≠ .ownedAt n index) :
    r.collection.Writes (Diagonal (HasSet n s)) (fun _ => True) r.collection := by
  have hwrites : OwnedCollection.collection.Writes (Diagonal fun _ => True) (fun _ => True)
      OwnedCollection.collection :=
    OwnedCollection.writes_of (fun _ _ _ => trivial) fun _ _ _ => trivial
  cases r with
  | view k v => exact (contextStore_writes_hasSet k v.entity v.index).view
  | recordedView k v => exact (recorderStore_writes_hasSet k v.entity v.index).view
  | owned k => exact hwrites.within (carries_hasSet_collection k)
  | ownedAt m index =>
    have hm : m ≠ n := fun heq => hr index (heq ▸ rfl)
    exact (hwrites.within (carries_component_elsewhere hm)).within (carries_hasSet_set m)

/-- Another set is used at its own places. -/
theorem SetRef.matches_elsewhere {r : SetRef} (hr : r ≠ .owned n) (index : Index) :
    r.attributes.Matches (Diagonal (HasSet n s)) r.attributes index := by
  have hplace : ∀ i, r.place index ≠ .ownedAt n i := by
    cases r with
    | owned m =>
      intro i heq
      obtain ⟨rfl, -⟩ := CollectionRef.ownedAt.inj heq
      exact hr rfl
    | _ => exact fun i => CollectionRef.noConfusion
  refine r.related_collectionAt (fun k h => (contextStore_reads_hasSet k h index).parameterCount)
    (fun k entity => (recorderStore_reads_hasSet k entity index).parameterCount) ?_
    ⟨CollectionRef.reads_elsewhere hplace, CollectionRef.writes_elsewhere hplace⟩
  rintro m rfl
  exact ⟨_, carries_hasSet_set m, fun _ _ heq => absurd (congrArg SetRef.owned heq) hr⟩

theorem SetRef.related_parameterCount_elsewhere (r : SetRef) :
    Step.Related (Diagonal (HasSet n s)) Eq r.attributes.parameterCount
      r.attributes.parameterCount :=
  r.related_parameterCount (fun k h => (contextStore_reads_hasSet k h .function).parameterCount)
    (fun k entity => (recorderStore_reads_hasSet k entity .function).parameterCount)
    fun m => ⟨_, carries_hasSet_set m⟩

end Elsewhere

namespace Workspace

variable {n m : Nat} {s t : OwnedSet} {w w' : Workspace} {a : Activity}

/-- What comes of the set is found in its place. -/
private theorem HasSet.of_focus (h : w.HasSet n s) (hw' : (ownedSet n).Focus w w' t) :
    w'.HasSet n t := by
  obtain rfl := hw'
  refine ⟨List.length_set.symm ▸ h.lt, ?_⟩
  rw [getSet_put, if_pos ⟨rfl, h.lt⟩]

/-- In the workspace a set is used as by itself. -/
theorem HasSet.run_use (h : w.HasSet n s) (r : SetRef) (use : SetUse) :
    ((use.run r.attributes).run.run w).state.HasSet n
      (OwnedSet.attributeSet.after (r.uses n use) s) := by
  by_cases hr : r = .owned n
  · subst hr
    have hfits := fits_ownedSet h.lt
    have hfocus : Action.Related ((ownedSet n).Focus w) Eq (use.run (SetRef.owned n).attributes)
        (use.run OwnedSet.attributeSet) := by
      refine use.run_related (hfits.related_within (fun _ => rfl) _) ?_
      intro index _
      exact hfits.related_collectionAt
        (fun c => ⟨hfits.collection_reads c, hfits.collection_writes c⟩) _ index
    obtain ⟨-, hstate⟩ := hfocus w s (h.getSet ▸ hfits.put_get.symm)
    rw [SetRef.uses, if_pos rfl]
    exact h.of_focus hstate
  · have hkept : Action.Related (Diagonal (HasSet n s)) Eq (use.run r.attributes)
        (use.run r.attributes) :=
      use.run_related r.related_parameterCount_elsewhere fun index _ => r.matches_elsewhere hr index
    rw [SetRef.uses, if_neg hr]
    exact Step.Related.kept hkept h

theorem HasSet.put_of_ne (h : w.HasSet n s) (hm : m ≠ n) (t : OwnedSet) :
    ((ownedSet m).put t w).HasSet n s :=
  (carries_hasSet_set m).put w t h fun heq => absurd heq hm

/-- Sets that join the workspace leave the others alone. -/
theorem HasSet.addSet (h : w.HasSet n s) (t : OwnedSet) :
    ((addSet t).run w).state.HasSet n s where
  lt := by
    rw [Workspace.addSet, List.length_append]
    exact Nat.lt_add_right _ h.lt
  getSet := by
    rw [← h.getSet]
    simp [Workspace.addSet, Workspace.getSet, ownedSet, List.getElem?_append_left h.lt]

theorem HasSet.onStore (h : w.HasSet n s) (k : Nat) (e : Handle) (request : StoreRequest) :
    ((request.run (contextStore k) e).run.run w).state.HasSet n s :=
  Step.Related.kept (request.run_related (fun _ _ => trivial) (contextStore_reads_hasSet k e)
    fun index _ => contextStore_writes_hasSet k e index) h

theorem HasSet.onRecorder (h : w.HasSet n s) (k : Nat) (entity : UInt32)
    (request : StoreRequest) :
    ((request.run (recorderStore k) entity).run.run w).state.HasSet n s :=
  Step.Related.kept (request.run_related (fun _ _ => trivial) (recorderStore_reads_hasSet k entity)
    fun index _ => recorderStore_writes_hasSet k entity index) h

/-- An alignment is kept by a function. -/
theorem HasSet.setAlignment (h : w.HasSet n s) (a : Argument) (alignment : UInt64) :
    ((a.setAlignment alignment).run.run w).state.HasSet n s := by
  have hother : SetRef.function a.function ≠ .owned n := SetRef.noConfusion
  have hwrites := (SetRef.matches_elsewhere (n := n) (s := s) hother a.index).writes
  have haligned : Action.Related (Diagonal (HasSet n s)) Eq (a.setAlignment alignment)
      (a.setAlignment alignment) := by
    refine Action.Related.bind (Action.Related.ofExcept _) ?_
    rintro v _ rfl
    refine Action.Related.map (Action.Related.bind hwrites ?_) _
    intro c d hcd
    exact hcd.add v trivial
  exact Step.Related.kept haligned h

/-- Who holds a collection of an owned set has reached for it in the set. -/
theorem HasSet.onCollection (h : w.HasSet n s) (r : CollectionRef) (request : CollectionRequest) :
    (w.after (Activity.onCollection r request).withAccess).HasSet n
      (OwnedSet.attributeSet.after (r.uses n request) s) := by
  have hrun : ∀ w', ((w' : Workspace).perform (.onCollection r request)).state =
      ((request.run r.collection).run.run w').state := by
    intro w'
    rw [perform, Activity.run, Action.state_map]
  have hother : (∀ index, r ≠ .ownedAt n index) →
      (w.perform (.onCollection r request)).state.HasSet n s := by
    intro hr
    have hkept : Action.Related (Diagonal (HasSet n s)) Eq (request.run r.collection)
        (request.run r.collection) :=
      request.run_related (fun _ _ => trivial) (fun _ _ => trivial)
        (CollectionRef.reads_elsewhere hr) (CollectionRef.writes_elsewhere hr)
    rw [hrun]
    exact Step.Related.kept hkept h
  cases r with
  | ownedAt m index =>
    have hreached : (((SetRef.owned m).attributes.collectionAt index).run.run w).answer =
        .ok (CollectionRef.ownedAt m index).collection := rfl
    have hreach : (w.perform (.reach (.owned m) index)).state =
        (((SetRef.owned m).attributes.collectionAt index).run.run w).state := by
      rw [perform, Activity.run, Action.state_map, SetRef.collectionAt, Action.state_map]
    have huse := h.run_use (.owned m) (.onCollection index request)
    rw [SetUse.run, (Action.bind_of_ok _ hreached).2, ← hreach, ← hrun] at huse
    exact huse
  | view | recordedView | owned => exact hother fun _ => CollectionRef.noConfusion

/-- Attributes that are read at a place of the set are read at one of its indices. -/
theorem HasSet.attributes (h : w.HasSet n s) (r : CollectionRef) :
    (r.collection.attributes.run w).state.HasSet n
      (OwnedSet.attributeSet.after (r.uses n .attributes) s) := by
  have hother : (∀ index, r ≠ .ownedAt n index) →
      (r.collection.attributes.run w).state.HasSet n s :=
    fun hr => Step.Related.kept (CollectionRef.reads_elsewhere hr).attributes h
  cases r with
  | ownedAt m index =>
    by_cases hm : m = n
    · subst hm
      have hread : OwnedSet.attributeSet.after [.onCollection index .attributes] s =
          (s.access index).access index := rfl
      have hput : (((CollectionRef.ownedAt m index).collection.attributes.run w).state) =
          (ownedSet m).put ((w.getSet m).access index) w := rfl
      rw [CollectionRef.uses, SetRef.uses, if_pos rfl, hread, s.access_access, hput, h.getSet]
      exact h.of_focus rfl
    · have hne : SetRef.owned m ≠ .owned n := fun heq => hm (SetRef.owned.inj heq)
      rw [CollectionRef.uses, SetRef.uses, if_neg hne]
      exact hother fun i heq => hm (CollectionRef.ownedAt.inj heq).1
  | view | recordedView | owned => exact hother fun _ => CollectionRef.noConfusion

theorem HasSet.addAll (h : w.HasSet n s) (r : SetRef) (index : Index) (vs : List Attribute) :
    ((r.attributes.addAll index vs).run.run w).state.HasSet n
      (OwnedSet.attributeSet.after (r.uses n (.onSet (.addAll index vs))) s) := by
  have huse := h.run_use r (.onSet (.addAll index vs))
  rwa [SetUse.run, SetRequest.run, Action.state_map] at huse

theorem HasSet.held (h : w.HasSet n s) (r : SetRef) (index : Index) :
    ((r.attributes.held index).run.run w).state.HasSet n
      (OwnedSet.attributeSet.after (r.uses n (.onCollection index .attributes)) s) := by
  have huse := h.run_use r (.onCollection index .attributes)
  have hrun : (SetUse.onCollection index .attributes).run r.attributes =
      (do return .list (← r.attributes.held index)) := by
    simp only [SetUse.run, CollectionRequest.run, AttributeSet.held, bind_assoc]
  rwa [hrun, Action.state_map] at huse

theorem HasSet.addCollection (h : w.HasSet n s) (target : SetRef) (index : Index)
    (source : CollectionRef) :
    ((target.attributes.addCollection index source.collection).run.run w).state.HasSet n
      (OwnedSet.attributeSet.after ((Activity.addCollection target index source).uses n w) s) := by
  have hread : ((liftM source.collection.attributes :
      Action Workspace (List Attribute)).run.run w).answer =
        .ok (source.collection.attributes.peek w) := rfl
  unfold AttributeSet.addCollection
  rw [(Action.bind_of_ok _ hread).2, Activity.uses, AttributeSet.after_append]
  exact (h.attributes source).addAll target index _

theorem HasSet.addFrom (h : w.HasSet n s) (target : SetRef) (index : Index) (source : SetRef) :
    ((target.attributes.addFrom index source.attributes).run.run w).state.HasSet n
      (OwnedSet.attributeSet.after ((Activity.addFrom target index source).uses n w) s) := by
  have hheld := h.held source index
  rw [AttributeSet.addFrom_eq, Activity.uses, AttributeSet.after_append]
  cases hanswer : ((source.attributes.held index).run.run w).answer with
  | error e =>
    have hpeek : (source.attributes.held index).run.peek w = .error e := hanswer
    rw [(Action.bind_of_error _ hanswer).2, hpeek]
    exact hheld
  | ok vs =>
    have hpeek : (source.attributes.held index).run.peek w = .ok vs := hanswer
    rw [(Action.bind_of_ok _ hanswer).2, hpeek]
    exact hheld.addAll target index vs

theorem HasSet.apply (h : w.HasSet n s) (source : Nat) (target : SetRef) :
    ((Workspace.apply source target).run.run w).state.HasSet n
      (OwnedSet.attributeSet.after ((Activity.apply source target).uses n w) s) := by
  have huse := h.run_use target (.merge (w.getSet source))
  rwa [SetUse.run, Action.state_map] at huse

theorem HasSet.merge (h : w.HasSet n s) (source target : Nat) :
    ((Workspace.merge source target).run.run w).state.HasSet n
      (OwnedSet.attributeSet.after ((Activity.merge source target).uses n w) s) := by
  have hput : ((Workspace.merge source target).run.run w).state =
      (ownedSet target).put
        ((OwnedSet.mergeFrom (w.getSet source)).run.run (w.getSet target)).state w := rfl
  rw [hput, Activity.uses]
  by_cases htarget : target = n
  · subst htarget
    rw [SetRef.uses, if_pos rfl, AttributeSet.after_cons, SetUse.run, Action.state_map, h.getSet]
    exact h.of_focus rfl
  · have hne : SetRef.owned target ≠ .owned n := fun heq => htarget (SetRef.owned.inj heq)
    rw [SetRef.uses, if_neg hne]
    exact h.put_of_ne htarget _

/-- What is done with the reply is of no concern. -/
private theorem HasSet.of_run {α : Type} {x : Action Workspace α} {f : α → Reply}
    (hrun : a.run = do return f (← x)) (hone : a.withAccess = [a])
    (h : (x.run.run w).state.HasSet n s) : (w.after a.withAccess).HasSet n s := by
  rw [hone, Workspace.after, Workspace.perform, hrun, Action.state_map]
  exact h

/-- An activity does to the set what the uses do that it comes to. -/
theorem HasSet.perform (h : w.HasSet n s) (a : Activity) :
    (w.after a.withAccess).HasSet n (OwnedSet.attributeSet.after (a.uses n w) s) := by
  cases a with
  | addFunction | removeEntity | newCollection | copyCollection | copyAt =>
    exact ⟨h.lt, h.getSet⟩
  | newSet => exact h.addSet .empty
  | copySet m => exact h.addSet (w.getSet m)
  | buildCall k callee =>
    refine HasSet.of_run rfl rfl (x := Workspace.buildCall k callee) ?_
    rw [buildCall, Action.state_map]
    exact ⟨h.lt, h.getSet⟩
  | buildInvoke k callee =>
    refine HasSet.of_run rfl rfl (x := Workspace.buildInvoke k callee) ?_
    rw [buildInvoke, Action.state_map]
    exact ⟨h.lt, h.getSet⟩
  | onStore k e request => exact HasSet.of_run rfl rfl (h.onStore k e request)
  | onRecorder k entity request => exact HasSet.of_run rfl rfl (h.onRecorder k entity request)
  | setAlignment a alignment => exact HasSet.of_run rfl rfl (h.setAlignment a alignment)
  | reach r index =>
    have huse := h.run_use r (.reach index)
    rw [SetUse.run, Action.state_map] at huse
    refine HasSet.of_run rfl rfl (x := r.collectionAt index) ?_
    rw [SetRef.collectionAt, Action.state_map]
    exact huse
  | onSet r request => exact HasSet.of_run rfl rfl (h.run_use r (.onSet request))
  | onCollection r request => exact h.onCollection r request
  | addCollection target index source =>
    exact HasSet.of_run rfl rfl (h.addCollection target index source)
  | addFrom target index source => exact HasSet.of_run rfl rfl (h.addFrom target index source)
  | merge source target => exact HasSet.of_run rfl rfl (h.merge source target)
  | apply source target => exact HasSet.of_run rfl rfl (h.apply source target)

/-- What a run makes of the set is what the uses make of it that it comes to. -/
theorem HasSet.after (h : w.HasSet n s) (activities : List Activity) :
    (w.after (activities.flatMap Activity.withAccess)).HasSet n
      (OwnedSet.attributeSet.after (w.uses n activities) s) := by
  induction activities generalizing w s with
  | nil => exact h
  | cons a rest ih =>
    rw [List.flatMap_cons, after_append, uses, AttributeSet.after_append]
    exact ih (h.perform a)

theorem uses_append (n : Nat) (w : Workspace) (before rest : List Activity) :
    w.uses n (before ++ rest) =
      w.uses n before ++ (w.after (before.flatMap Activity.withAccess)).uses n rest := by
  induction before generalizing w with
  | nil => rfl
  | cons a before ih =>
    simp only [List.cons_append, uses, ih, List.flatMap_cons, after_append, List.append_assoc]

private theorem lawful_of_mem_set {r : SetRef} {use use' : SetUse} (h : use' ∈ r.uses n use)
    (huse : use.Lawful) : use'.Lawful := by
  unfold SetRef.uses at h
  split at h
  · obtain rfl := List.mem_singleton.mp h
    exact huse
  · cases h

private theorem lawful_of_mem_collection {r : CollectionRef} {request : CollectionRequest}
    {use : SetUse} (h : use ∈ r.uses n request) : use.Lawful := by
  cases r with
  | ownedAt m index => exact lawful_of_mem_set h trivial
  | view | recordedView | owned => cases h

/-- In a workspace in order, a set that is merged or applied is in order. -/
theorem Stocked.lawful_of_mem_uses (hw : w.Stocked fun _ => True) {use : SetUse}
    (h : use ∈ a.uses n w) : use.Lawful := by
  have hmerge : ∀ source, (SetUse.merge (w.getSet source)).Lawful := by
    intro source
    have hbeside : Beside (fun _ => True) none w w := hw.beside
    exact hbeside.getSet source
  cases a with
  | reach | onSet => exact lawful_of_mem_set h trivial
  | onCollection => exact lawful_of_mem_collection h
  | addCollection target index source =>
    rcases List.mem_append.mp h with h | h
    · exact lawful_of_mem_collection h
    · exact lawful_of_mem_set h trivial
  | addFrom target index source =>
    rcases List.mem_append.mp h with h | h
    · exact lawful_of_mem_set h trivial
    · split at h
      · exact lawful_of_mem_set h trivial
      · cases h
  | merge source => exact lawful_of_mem_set h (hmerge source)
  | apply source => exact lawful_of_mem_set h (hmerge source)
  | addFunction | buildCall | buildInvoke | removeEntity | newSet | copySet | newCollection
  | copyCollection | copyAt | onStore | onRecorder | setAlignment => cases h

theorem Stocked.lawful_uses (hw : w.Stocked fun _ => True) (activities : List Activity) :
    ∀ use ∈ w.uses n activities, use.Lawful := by
  induction activities generalizing w with
  | nil => exact fun use h => absurd h List.not_mem_nil
  | cons a rest ih =>
    have hfirst : (w.after a.withAccess).Stocked fun _ => True :=
      hw.after (fun _ _ => trivial) a.withAccess fun _ _ _ _ => trivial
    intro use h
    rcases List.mem_append.mp h with h | h
    · exact hw.lawful_of_mem_uses h
    · exact ih hfirst use h

/-- The owned set with number `n` after a run in which its collections were reached for. -/
def setAfter (n : Nat) (w : Workspace) (activities : List Activity) : OwnedSet :=
  (w.after (activities.flatMap Activity.withAccess)).getSet n

theorem HasSet.setAfter (h : w.HasSet n s) (activities : List Activity) :
    w.setAfter n activities = OwnedSet.attributeSet.after (w.uses n activities) s :=
  (h.after activities).getSet

theorem HasSet.records (h : w.HasSet n .empty) (hw : w.Stocked fun _ => True)
    (activities : List Activity) :
    (w.setAfter n activities).Records ((w.uses n activities).flatMap SetUse.indices) := by
  rw [h.setAfter]
  exact OwnedSet.records_after (hw.lawful_uses activities)

theorem HasSet.files (h : w.HasSet n .empty) (activities : List Activity) :
    (FiledSet.attributeSet.after (w.uses n activities) .empty).Files (w.setAfter n activities) := by
  rw [h.setAfter]
  exact (FiledSet.runAll_files _ _ _ FiledSet.files_empty).2

theorem hasSet_newSet (w : Workspace) : (w.perform .newSet).state.HasSet w.sets.length .empty where
  lt := by
    change w.sets.length < (w.sets ++ [OwnedSet.empty]).length
    rw [List.length_append]
    exact Nat.lt_add_one w.sets.length
  getSet := by
    change ((w.sets ++ [OwnedSet.empty])[w.sets.length]?).getD .empty = .empty
    rw [List.getElem?_concat_length, Option.getD_some]

/-- A new set, whatever else is in the workspace and whatever is done then, has
collections at exactly the indices that it was used at since, also by what failed
or only read, and never loses one. The same uses of a map that keeps collections
under keys, whatever indices these have, would leave the same collections there,
each under its own index. Looking with `get?`, or going through the set to merge,
apply or copy it, is no use of it. -/
theorem records_of_run (contexts : Nat) (parameterCounts : List (Option UInt32))
    (before : List Activity) :
    ∃ n w, (reached contexts parameterCounts before).perform .newSet =
        ⟨.ok (.answer (.number n)), w, []⟩ ∧
      ∀ activities,
        (w.setAfter n activities).Records ((w.uses n activities).flatMap SetUse.indices) ∧
          (FiledSet.attributeSet.after (w.uses n activities) .empty).Files
            (w.setAfter n activities) ∧
          ∀ later, (w.setAfter n activities).indices ⊆
            (w.setAfter n (activities ++ later)).indices := by
  have hstocked := stocked_of_run contexts parameterCounts (before ++ [.newSet])
  rw [reached, after_append, ← reached] at hstocked
  have hnew := hasSet_newSet (reached contexts parameterCounts before)
  refine ⟨(reached contexts parameterCounts before).sets.length,
    ((reached contexts parameterCounts before).perform .newSet).state, rfl, ?_⟩
  intro activities
  have hrecords := hnew.records hstocked activities
  refine ⟨hrecords, hnew.files activities, ?_⟩
  intro later index hindex
  refine ((hnew.records hstocked (activities ++ later)).listed index).mpr ?_
  rw [uses_append, List.flatMap_append]
  exact List.mem_append_left _ ((hrecords.listed index).mp hindex)

/-- An attribute that is refused, and a look, leave their indices behind. -/
example : ((reached 0 [] [.newSet, .onSet (.owned 0) (.addKind .function .alignment),
    .onSet (.owned 0) (.hasAny (.parameter 1)),
    .onSet (.owned 0) (.text .returnValue)]).getSet 0).indices =
      [.returnValue, .parameter 1, .function] := by
  decide

end Workspace

end IRAttributes
