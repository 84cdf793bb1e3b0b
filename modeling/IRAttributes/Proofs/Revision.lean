import IRAttributes.Proofs.Creation
import IRAttributes.Proofs.Portion

/-!
Attributes and their keys. Wherever attributes are kept, no key occurs twice,
whatever was done and with whatever attributes. An activity adds attributes
under some keys, or removes one key, or takes one entity away: what is found
under the other keys stays as it is, and a key for which something is found is
lost only by its own removal. A kind and a name are different keys however the
kind is spelled, so neither ever makes way for the other.
-/
namespace IRAttributes

variable {α : Type} {added : List Key} {removed : Option Key}

/-- What is found under each key before and after. Only its own removal loses a
key, and only an addition under the key itself changes what it stands for. -/
def Revised (added : List Key) (removed : Option Key) (before after : Key → Option α) : Prop :=
  ∀ key, removed ≠ some key →
    ((before key).isSome = true → (after key).isSome = true) ∧
      (key ∉ added → after key = before key)

namespace Revised

variable {before after after' : Key → Option α} {k : Key}

theorem refl (before : Key → Option α) : Revised added removed before before :=
  fun _ _ => ⟨id, fun _ => rfl⟩

theorem put (h : Revised added removed before after) (hk : k ∈ added) {a : α}
    (hself : after' k = some a) (hother : ∀ key, key ≠ k → after' key = after key) :
    Revised added removed before after' := by
  intro key hremoved
  by_cases hkey : key = k
  · subst hkey
    exact ⟨fun _ => by rw [hself]; rfl, fun hadded => absurd hk hadded⟩
  · rw [hother key hkey]
    exact h key hremoved

theorem erase (h : Revised added removed before after) (hk : removed = some k)
    (hother : ∀ key, key ≠ k → after' key = after key) :
    Revised added removed before after' := by
  intro key hremoved
  have hkey : key ≠ k := fun heq => hremoved (heq ▸ hk)
  rw [hother key hkey]
  exact h key hremoved

end Revised

namespace OwnedCollection

/-- The attribute with a key, the empty name included. -/
def stored? (c : OwnedCollection) (key : Key) : Option Attribute :=
  KeyedList.find? Attribute.key key c.attributes

/-- A collection that comes from another one at the same index. -/
structure Revises (added : List Key) (removed : Option Key) (c c' : OwnedCollection) : Prop where
  index : c'.index = c.index
  stored : Revised added removed c.stored? c'.stored?

/-- A collection that there was before is revised under the keys that it is asked to change. -/
theorem Revises.keeps (p : Prop) (c : OwnedCollection) :
    collection.Keeps True (fun c' => p → c.Revises added removed c') (fun v => v.key ∈ added)
      (fun key => removed = some key) where
  reads := reads fun _ _ _ _ => trivial
  add v hv := by
    intro c' hc' _
    rcases c'.add_cases v with ⟨_, -, -, hstate⟩ | ⟨-, -, hstate⟩
    · exact hstate.symm ▸ hc'
    · rw [collection, hstate]
      intro hp
      refine ⟨(hc' hp).index, (hc' hp).stored.put hv
        (KeyedList.find?_put_self Attribute.key v c'.attributes) ?_⟩
      intro key hkey
      exact KeyedList.find?_put_of_ne Attribute.key v c'.attributes hkey.symm
  remove key hkey := by
    intro c' hc' _ hp
    change c.Revises added removed (c'.erase key)
    unfold OwnedCollection.erase
    split
    · exact hc' hp
    · refine ⟨(hc' hp).index, (hc' hp).stored.erase hkey ?_⟩
      intro key' hkey'
      exact KeyedList.find?_erase_of_ne Attribute.key c'.attributes hkey'.symm

end OwnedCollection

namespace OwnedSet

/-- A set that comes from another one, whichever indices were accessed. -/
def Revises (added : List Key) (removed : Option Key) (s s' : OwnedSet) : Prop :=
  ∀ index, (s.getOrEmpty index).Revises added removed (s'.getOrEmpty index)

theorem Revises.access {s s' : OwnedSet} (h : s.Revises added removed s') (index : Index) :
    s.Revises added removed (s'.access index) := by
  intro index'
  rw [getOrEmpty_access]
  exact h index'

theorem Revises.keeps (p : Prop) (s : OwnedSet) (index : Index) :
    (collection index).Keeps True (fun s' => p → s.Revises added removed s')
      (fun v => v.key ∈ added) (fun key => removed = some key) := by
  refine Collection.Keeps.within ?_ (OwnedCollection.Revises.keeps p (s.getOrEmpty index))
  refine ⟨fun s' h hp => h hp index, ?_⟩
  intro s' c h hc hp index'
  change (s.getOrEmpty index').Revises added removed ((s'.put c).getOrEmpty index')
  have hindex : c.index = index := (hc hp).index.trans (s.index_getOrEmpty index)
  rw [getOrEmpty_put, hindex]
  split
  · rename_i hsame
    exact hsame ▸ hc hp
  · exact h hp index'

end OwnedSet

namespace Context

/-- A context that was built up by moves, in which no entity keeps two attributes
of one key at one index. -/
structure Lawful (c : Context) : Prop where
  sound : c.Sound
  unique : ∀ h index, KeyedList.UniqueKeys NativeAttribute.key (c.native h index)

theorem lawful_empty : empty.Lawful where
  sound := sound_empty
  unique h index := by
    have hnone : empty.native h index = [] := by cases h <;> rfl
    rw [hnone]
    exact List.nodup_nil

/-- The attribute with a key that an entity keeps at an index, in native form. -/
def stored? (c : Context) (h : Handle) (index : Index) (key : Key) : Option NativeAttribute :=
  KeyedList.find? NativeAttribute.key key.native (c.native h index)

end Context

/-- No move stores a second attribute under a key. -/
theorem Move.uniqueKeys_stored (m : Move) (h : Handle) (index : Index)
    {attributes : List NativeAttribute}
    (hattributes : KeyedList.UniqueKeys NativeAttribute.key attributes) :
    KeyedList.UniqueKeys NativeAttribute.key (m.stored h index attributes) := by
  cases m with
  | enter _ _ => exact hattributes
  | leave _ =>
    rw [stored]
    split
    · exact List.nodup_nil
    · exact hattributes
  | put _ _ v =>
    rw [stored]
    split
    · exact KeyedList.uniqueKeys_put NativeAttribute.key (.ofAttribute v) attributes hattributes
    · exact hattributes
  | erase _ _ key =>
    rw [stored]
    split
    · exact KeyedList.uniqueKeys_erase NativeAttribute.key key.native attributes hattributes
    · exact hattributes

/-- What can be read back from different keys has different keys. -/
theorem NativeAttribute.uniqueKeys_toAttribute? {attributes : List NativeAttribute}
    (h : KeyedList.UniqueKeys key attributes) :
    KeyedList.UniqueKeys Attribute.key (attributes.filterMap toAttribute?) := by
  unfold KeyedList.UniqueKeys at h ⊢
  rw [List.Nodup, List.pairwise_map] at h ⊢
  rw [List.pairwise_filterMap]
  refine h.imp ?_
  intro a b hne v hv w hw hsame
  have hkey : a.key = w.key.native := (key_of_toAttribute? hv).trans (congrArg Key.native hsame)
  exact hne (hkey.trans (key_of_toAttribute? hw).symm)

/-- A move that adds and removes within limits. -/
def Move.Within (added : List Key) (removed : Option Key) (gone : Handle → Prop) : Move → Prop
  | .enter _ _ => True
  | .leave h => gone h
  | .put _ _ v => v.key ∈ added
  | .erase _ _ key => removed = some key

namespace Context

/-- A context that comes from another one by such moves. -/
structure Revises (added : List Key) (removed : Option Key) (gone : Handle → Prop)
    (c c' : Context) : Prop where
  lawful : c'.Lawful
  stored : ∀ h index, ¬ gone h → Revised added removed (c.stored? h index) (c'.stored? h index)

variable {gone : Handle → Prop} {c c' c'' : Context} {m : Move}

theorem Lawful.step (h : c.Lawful) (hm : c.Moves m c') : c'.Lawful where
  sound := hm.sound h.sound
  unique e index := by
    rw [hm.native h.sound.table]
    exact m.uniqueKeys_stored e index (h.unique e index)

theorem Path.lawful {moves : List Move} (hp : c.Path moves c') (h : c.Lawful) : c'.Lawful := by
  induction hp with
  | nil => exact h
  | snoc _ hm ih => exact ih.step hm

theorem Lawful.after (h : c.Lawful) (ops : List Operation) : (c.after ops).Lawful := by
  obtain ⟨moves, hpath, -⟩ := c.path_after ops
  exact hpath.lawful h

theorem Revises.step (h : c.Revises added removed gone c') (hm : c'.Moves m c'')
    (hwithin : m.Within added removed gone) : c.Revises added removed gone c'' where
  lawful := h.lawful.step hm
  stored e index he := by
    have hnative := hm.native h.lawful.sound.table e index
    have hbefore := h.stored e index he
    unfold stored? at hbefore ⊢
    rw [hnative]
    cases m with
    | enter _ _ => exact hbefore
    | leave e' =>
      have hne : e ≠ e' := fun heq => he (heq ▸ hwithin)
      rwa [Move.stored, if_neg hne]
    | put e' index' v =>
      rw [Move.stored]
      split
      · refine hbefore.put hwithin (a := .ofAttribute v) ?_ ?_
        · rw [← NativeAttribute.key_ofAttribute]
          exact KeyedList.find?_put_self NativeAttribute.key (.ofAttribute v) _
        · intro key hkey
          refine KeyedList.find?_put_of_ne NativeAttribute.key (.ofAttribute v) _ ?_
          exact fun heq => hkey ((NativeAttribute.key_ofAttribute_eq_iff v key).mp heq).symm
      · exact hbefore
    | erase e' index' key =>
      rw [Move.stored]
      split
      · refine hbefore.erase hwithin ?_
        intro key' hkey'
        refine KeyedList.find?_erase_of_ne NativeAttribute.key _ ?_
        exact fun heq => hkey' (Key.native_injective heq).symm
      · exact hbefore

/-- The store of a context revises what it is asked to change. -/
theorem Revises.keeps (c : Context) (h : Handle) (index : Index) :
    store.Keeps True (c.Revises added removed gone) (fun v => v.key ∈ added)
      (fun key => removed = some key) h index where
  reads := reads _ (fun _ _ => trivial) h index
  add v hv := by
    intro c' hc' _
    cases hput : c'.put h index v with
    | error e => simpa [store, hput] using hc'
    | ok c'' => simpa [store, hput] using hc'.step (moves_put hput) hv
  remove key hkey := fun c' hc' _ => hc'.step (moves_erase c' h index key) hkey

theorem Revises.keeps_buildSite (c : Context) {site : Handle → Role} {callee : Handle}
    (hadmits : ∀ c : Context, c.IsFunction callee → c.Admits (site callee)) :
    Action.Keeps True (c.Revises added removed gone) (buildSite site callee) := by
  intro c' hc' _
  rcases c'.buildSite_cases site callee with ⟨hf, -, hstate⟩ | ⟨-, -, hstate⟩
  · rw [hstate]
    exact hc'.step (Moves.enter _ (hadmits c' hf)) trivial
  · exact hstate.symm ▸ hc'

theorem Revises.remove (hc' : c.Revises added removed gone c') {h : Handle} (hgone : gone h) :
    c.Revises added removed gone ((remove h).run c').state := by
  simp only [Context.remove]
  split
  · rename_i hlive
    exact hc'.step (Moves.leave h hlive) hgone
  · exact hc'

end Context

namespace Activity

/-- The keys of the attributes that an activity is to add; what it copies counts as well. -/
def addedKeys (w : Workspace) : Activity → List Key
  | .onStore _ _ request => request.addedKeys
  | .onSet _ request => request.addedKeys
  | .onCollection _ request => request.addedKeys
  | .setAlignment _ _ => [.kind .alignment]
  | .addCollection _ _ source => (source.collection.attributes.peek w).map Attribute.key
  | .addFrom _ index source =>
      match (source.attributes.held index).run.peek w with
      | .ok vs => vs.map Attribute.key
      | .error _ => []
  | .merge source _ | .apply source _ =>
      (w.getSet source).collections.flatMap fun c => c.attributes.map Attribute.key
  | _ => []

/-- The key that an activity is to remove. -/
def removal? : Activity → Option Key
  | .onStore _ _ request => request.removal?
  | .onSet _ request => request.removal?
  | .onCollection _ request => request.removal?
  | _ => none

/-- The entity that an activity takes away with all its attributes. -/
def leaver? : Activity → Option (Nat × Handle)
  | .removeEntity k h => some (k, h)
  | _ => none

end Activity

/-- Recorded stores are not looked at, so they may take anything. -/
theorem OpenStore.keeps_true {P : Attribute → Prop} {K : Key → Prop} (entity : UInt32)
    (index : Index) : store.Keeps True (fun _ => True) P K entity index where
  reads := reads (P := fun _ => True) (fun _ _ _ _ _ _ => trivial) entity index
  add _ _ := fun _ _ _ => trivial
  remove _ _ := fun _ _ _ => trivial

/-- A set is applied to one that takes its attributes. -/
theorem OwnedSet.keeps_applyTo {σ : Type} {J : σ → Prop} {P : Attribute → Prop} {K : Key → Prop}
    {S : AttributeSet σ} {s : OwnedSet} (hS : ∀ index, S.Keeps True J P K index)
    (hP : ∀ c ∈ s.collections, ∀ v ∈ c.attributes, P v) : Action.Keeps True J (s.applyTo S) :=
  Action.Keeps.forM fun c hc => (hS c.index).addAll (hP c hc)

namespace Workspace

variable {gone : Option (Nat × Handle)} {w w' : Workspace}

/-- A workspace that another one became: the slots of its entities were revised,
and so were the owned sets and collections that there were before. -/
structure Revises (added : List Key) (removed : Option Key) (gone : Option (Nat × Handle))
    (w w' : Workspace) : Prop where
  contexts : ∀ k, (w.contextAt k).Revises added removed (fun h => gone = some (k, h))
    (w'.contextAt k)
  sets_le : w.sets.length ≤ w'.sets.length
  sets : ∀ n, n < w.sets.length → (w.getSet n).Revises added removed (w'.getSet n)
  collections_le : w.collections.length ≤ w'.collections.length
  collections : ∀ n, n < w.collections.length →
    (w.getCollection n).Revises added removed (w'.getCollection n)

theorem Revises.refl (hw : ∀ k, (w.contextAt k).Lawful) : w.Revises added removed gone w where
  contexts k := ⟨hw k, fun _ _ _ => Revised.refl _⟩
  sets_le := Nat.le_refl _
  sets _ _ _ := ⟨rfl, Revised.refl _⟩
  collections_le := Nat.le_refl _
  collections _ _ := ⟨rfl, Revised.refl _⟩

private theorem carries_revised_context (k : Nat) :
    (context k).Carries ((w.contextAt k).Revises added removed fun h => gone = some (k, h))
      (w.Revises added removed gone) where
  get w' h := h.contexts k
  put w' c h hc := by
    refine ⟨?_, h.sets_le, h.sets, h.collections_le, h.collections⟩
    exact forall_getD_set (p := fun k c => (w.contextAt k).Revises added removed
      (fun h => gone = some (k, h)) c) hc h.contexts

private theorem carries_revised_recorder (n : Nat) :
    (recorder n).Carries (fun _ => True) (w.Revises added removed gone) where
  get _ _ := trivial
  put _ _ h _ := ⟨h.contexts, h.sets_le, h.sets, h.collections_le, h.collections⟩

private theorem carries_revised_set (n : Nat) :
    (ownedSet n).Carries
      (fun s => n < w.sets.length → (w.getSet n).Revises added removed s)
      (w.Revises added removed gone) where
  get w' h := h.sets n
  put w' s h hs := by
    refine ⟨h.contexts, ?_, ?_, h.collections_le, h.collections⟩
    · exact List.length_set.symm ▸ h.sets_le
    · exact forall_getD_set
        (p := fun n s => n < w.sets.length → (w.getSet n).Revises added removed s) hs h.sets

private theorem carries_revised_collection (n : Nat) :
    (ownedCollection n).Carries
      (fun c => n < w.collections.length → (w.getCollection n).Revises added removed c)
      (w.Revises added removed gone) where
  get w' h := h.collections n
  put w' c h hc := by
    refine ⟨h.contexts, h.sets_le, h.sets, ?_, ?_⟩
    · exact List.length_set.symm ▸ h.collections_le
    · exact forall_getD_set
        (p := fun n c => n < w.collections.length → (w.getCollection n).Revises added removed c)
        hc h.collections

def revisedCompartments (added : List Key) (removed : Option Key) (gone : Option (Nat × Handle))
    (w : Workspace) : Compartments (w.Revises added removed gone) where
  context k := (w.contextAt k).Revises added removed fun h => gone = some (k, h)
  recorder _ _ := True
  set n s := n < w.sets.length → (w.getSet n).Revises added removed s
  collection n c := n < w.collections.length → (w.getCollection n).Revises added removed c
  carries_context := carries_revised_context
  carries_recorder := carries_revised_recorder
  carries_set := carries_revised_set
  carries_collection := carries_revised_collection
  access _ _ index h := fun hn => (h hn).access index

private theorem keep_revised :
    (revisedCompartments added removed gone w).Keep True (fun v => v.key ∈ added)
      (fun key => removed = some key) where
  context k h index := Context.Revises.keeps (w.contextAt k) h index
  recorder _ entity index := OpenStore.keeps_true entity index
  set n index := OwnedSet.Revises.keeps (n < w.sets.length) (w.getSet n) index
  collection n := OwnedCollection.Revises.keeps (n < w.collections.length) (w.getCollection n)

/-- Sets that join the workspace leave the others alone. -/
private theorem Revises.addSet (h : w.Revises added removed gone w') (s : OwnedSet) :
    w.Revises added removed gone ((addSet s).run w').state where
  contexts := h.contexts
  sets_le := by
    refine Nat.le_trans h.sets_le ?_
    simp [Workspace.addSet]
  sets n hn index := by
    have hfound : ((Workspace.addSet s).run w').state.getSet n = w'.getSet n := by
      have hlt : n < w'.sets.length := Nat.lt_of_lt_of_le hn h.sets_le
      simp [Workspace.addSet, getSet, ownedSet, List.getElem?_append_left hlt]
    rw [hfound]
    exact h.sets n hn index
  collections_le := h.collections_le
  collections := h.collections

private theorem Revises.addCollection (h : w.Revises added removed gone w') (c : OwnedCollection) :
    w.Revises added removed gone ((addCollection c).run w').state where
  contexts := h.contexts
  sets_le := h.sets_le
  sets := h.sets
  collections_le := by
    refine Nat.le_trans h.collections_le ?_
    simp [Workspace.addCollection]
  collections n hn := by
    have hfound : ((Workspace.addCollection c).run w').state.getCollection n =
        w'.getCollection n := by
      have hlt : n < w'.collections.length := Nat.lt_of_lt_of_le hn h.collections_le
      simp [Workspace.addCollection, getCollection, ownedCollection,
        List.getElem?_append_left hlt]
    rw [hfound]
    exact h.collections n hn

/-- The attributes of the collections in a set have the keys that are collected from it. -/
private theorem key_mem_of_mem {s : OwnedSet} {c : OwnedCollection} (hc : c ∈ s.collections)
    {v : Attribute} (hv : v ∈ c.attributes) :
    v.key ∈ s.collections.flatMap fun c => c.attributes.map Attribute.key :=
  List.mem_flatMap.mpr ⟨c, hc, List.mem_map_of_mem hv⟩

private theorem Revises.keeps_buildSite (k : Nat) (site : Handle → Role) (callee : Handle)
    (hadmits : ∀ c : Context, c.IsFunction callee → c.Admits (site callee)) :
    Action.Keeps True (w.Revises added removed gone)
      (Action.within (context k) (Context.buildSite site callee)) :=
  (Context.Revises.keeps_buildSite (w.contextAt k) hadmits).within (carries_revised_context k)

/-- Whatever a recorded store is asked for, it revises nothing else. -/
private theorem Revises.keeps_onRecorder (n : Nat) (entity : UInt32) (request : StoreRequest) :
    Action.Keeps True (w.Revises added removed gone)
      (Activity.onRecorder n entity request).run := by
  have hstore : ∀ index, (recorderStore n).Keeps True (w.Revises added removed gone)
      (fun _ => True) (fun _ => True) entity index := by
    intro index
    exact (OpenStore.keeps_true entity index).recorded.within (carries_revised_recorder n)
  exact (request.keeps hstore (fun _ _ => trivial) fun _ _ => trivial).map _

/-- An activity revises nothing but what it is to add and to remove, and takes
away no entity but the one it is to remove. -/
theorem revises_perform (hw : ∀ k, (w.contextAt k).Lawful) (a : Activity) :
    w.Revises (a.addedKeys w) a.removal? a.leaver? (w.perform a).state := by
  have hstart : w.Revises (a.addedKeys w) a.removal? a.leaver? w := Revises.refl hw
  have hkeep : (revisedCompartments (a.addedKeys w) a.removal? a.leaver? w).Keep True
      (fun v => v.key ∈ a.addedKeys w) (fun key => a.removal? = some key) := keep_revised
  cases a with
  | addFunction k name count =>
    exact (carries_revised_context k).put w
      ((Context.addFunction name count).run (w.contextAt k)).state hstart
      ((hstart.contexts k).step (Context.Moves.enter _ trivial) trivial)
  | buildCall k callee =>
    exact (((Revises.keeps_buildSite k Role.call callee.handle fun _ h => h).map _).map _).kept
      hstart
  | buildInvoke k callee =>
    exact (((Revises.keeps_buildSite k Role.invoke callee.handle fun _ h => h).map _).map _).kept
      hstart
  | removeEntity k h =>
    exact (carries_revised_context k).put w ((Context.remove h).run (w.contextAt k)).state hstart
      ((hstart.contexts k).remove rfl)
  | newSet => exact hstart.addSet .empty
  | copySet n => exact hstart.addSet (w.getSet n)
  | newCollection index => exact hstart.addCollection (.empty index)
  | copyCollection n => exact hstart.addCollection (w.getCollection n)
  | copyAt n index => exact hstart.addCollection ((w.getSet n).getOrEmpty index)
  | onStore k h request => exact (hkeep.run_onStore k h (fun _ hv => hv) fun _ hk => hk).kept hstart
  | onRecorder n entity request => exact (Revises.keeps_onRecorder n entity request).kept hstart
  | reach r index =>
    exact Step.Related.kept ((revisedCompartments _ _ _ w).related_reach r index) hstart
  | onSet r request =>
    exact (hkeep.run_onSet r (fun _ => trivial) (fun _ hv => hv) fun _ hk => hk).kept hstart
  | onCollection r request =>
    exact (hkeep.run_onCollection r (fun _ hv => hv) fun _ hk => hk).kept hstart
  | setAlignment a alignment =>
    refine (hkeep.run_setAlignment a alignment ?_).kept hstart
    intro v hv
    exact List.mem_singleton.mpr hv
  | addCollection target index source =>
    have hread := Step.Related.kept (hkeep.at_collection source).reads.attributes hstart
    have hcopied : Action.Keeps True _ (target.attributes.addAll index
        (source.collection.attributes.peek w)) :=
      (hkeep.at_set target index).addAll fun v hv => List.mem_map_of_mem hv
    rw [perform, Activity.run, Action.state_map]
    exact hcopied.kept hread
  | addFrom target index source =>
    have hheld : Action.Keeps True _ (source.attributes.held index) :=
      (hkeep.at_set source index).at fun c hc =>
        Action.Keeps.of_related (Action.Related.lift hc.reads.attributes)
    rw [perform, Activity.run, Action.state_map, AttributeSet.addFrom_eq]
    refine Action.kept_bind (hheld.kept hstart) ?_
    intro vs hvs
    have hadded : (Activity.addFrom target index source).addedKeys w = vs.map Attribute.key := by
      simp only [Activity.addedKeys, Step.peek, hvs]
    refine (hkeep.at_set target index).addAll ?_
    intro v hv
    exact hadded ▸ List.mem_map_of_mem hv
  | merge source target =>
    have hmerged : Action.Keeps True _ ((w.getSet source).applyTo OwnedSet.attributeSet) :=
      OwnedSet.keeps_applyTo (hkeep.at_owned target) fun _ hc _ hv => key_mem_of_mem hc hv
    rw [perform, Activity.run, Action.state_map]
    exact (hmerged.within (carries_revised_set target)).kept hstart
  | apply source target =>
    have happlied : Action.Keeps True _ ((w.getSet source).applyTo target.attributes) :=
      OwnedSet.keeps_applyTo (hkeep.at_set target) fun _ hc _ hv => key_mem_of_mem hc hv
    rw [perform, Activity.run, Action.state_map]
    exact happlied.kept hstart

/-- No key is found twice in an owned collection, in an owned set at an index, or
among what an entity keeps at an index, neither in native form nor as it is read back. -/
structure Unique (w : Workspace) : Prop where
  collections : ∀ c ∈ w.collections, KeyedList.UniqueKeys Attribute.key c.attributes
  sets : ∀ s ∈ w.sets, ∀ c ∈ s.collections, KeyedList.UniqueKeys Attribute.key c.attributes
  native : ∀ k h index,
    KeyedList.UniqueKeys NativeAttribute.key ((w.contextAt k).native h index)
  attributes : ∀ k h index,
    KeyedList.UniqueKeys Attribute.key ((w.contextAt k).attributes h index)

theorem lawful_after (hw : ∀ k, (w.contextAt k).Lawful) (activities : List Activity) :
    ∀ k, ((w.after activities).contextAt k).Lawful := by
  induction activities generalizing w with
  | nil => exact hw
  | cons a rest ih => exact ih fun k => ((revises_perform hw a).contexts k).lawful

theorem lawful_reached (contexts : Nat) (parameterCounts : List (Option UInt32))
    (activities : List Activity) (k : Nat) :
    ((reached contexts parameterCounts activities).contextAt k).Lawful := by
  refine lawful_after ?_ activities k
  intro k
  have hempty : (ofCounts contexts parameterCounts).contextAt k = .empty := by
    simp only [contextAt, context, ofCounts, List.getElem?_replicate]
    split <;> rfl
  rw [hempty]
  exact Context.lawful_empty

/-- Whatever is done, and with whatever attributes, no key is ever found twice
anywhere. What is done next revises the keys that it adds or removes and no
others: a kind and a name spelled like it neither replace nor remove each other. -/
theorem unique_of_run (contexts : Nat) (parameterCounts : List (Option UInt32))
    (activities : List Activity) (next : Activity) :
    (reached contexts parameterCounts activities).Unique ∧
      (reached contexts parameterCounts activities).Revises
        (next.addedKeys (reached contexts parameterCounts activities)) next.removal? next.leaver?
        ((reached contexts parameterCounts activities).perform next).state := by
  have hlawful := lawful_reached contexts parameterCounts activities
  have hstocked := stocked_of_run contexts parameterCounts activities
  refine ⟨⟨?_, ?_, ?_, ?_⟩, revises_perform hlawful next⟩
  · exact fun c hc => (hstocked.collections c hc).unique
  · exact fun s hs c hc => ((hstocked.sets s hs).collections c hc).unique
  · exact fun k h index => (hlawful k).unique h index
  · exact fun k h index => NativeAttribute.uniqueKeys_toAttribute? ((hlawful k).unique h index)

/-- The name of a kind, added as a name, stays when the kind is removed. -/
example : (((reached 0 [] [.newSet, .onSet (.owned 0) (.addKind .function .cold),
    .onSet (.owned 0) (.add .function (.named "cold" "")),
    .onSet (.owned 0) (.remove .function (.kind .cold))]).getSet 0).getOrEmpty
      .function).attributes = [.named "cold" ""] := rfl

end Workspace

end IRAttributes
