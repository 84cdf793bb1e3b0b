import IRAttributes.Proofs.Ascending
import IRAttributes.Proofs.Kept

/-!
Lawful collections and sets. In a lawful collection every attribute is
admissible and stands on an index where its kind is legal, and no key occurs
twice; a lawful set keeps lawful collections in ascending order. Whatever is
asked of an owned collection or an owned set keeps it lawful, as long as only
admissible attributes are brought along.
-/
namespace IRAttributes

variable {P : Attribute → Prop}

namespace OwnedCollection

structure Lawful (P : Attribute → Prop) (c : OwnedCollection) : Prop where
  admissible : ∀ v ∈ c.attributes, P v
  legal : ∀ v ∈ c.attributes, Placement.Legal v c.index
  unique : KeyedList.UniqueKeys Attribute.key c.attributes

theorem lawful_empty (index : Index) : (empty index).Lawful P where
  admissible := by simp [empty]
  legal := by simp [empty]
  unique := List.nodup_nil

variable {c : OwnedCollection}

theorem Lawful.put (h : c.Lawful P) {v : Attribute} (hv : P v)
    (hlegal : Placement.Legal v c.index) : (c.put v).Lawful P where
  admissible w hw := by
    rcases KeyedList.mem_put Attribute.key hw with rfl | hmem
    · exact hv
    · exact h.admissible w hmem
  legal w hw := by
    rcases KeyedList.mem_put Attribute.key hw with rfl | hmem
    · exact hlegal
    · exact h.legal w hmem
  unique := KeyedList.uniqueKeys_put Attribute.key v c.attributes h.unique

theorem Lawful.erase (h : c.Lawful P) (key : Key) : (c.erase key).Lawful P := by
  unfold OwnedCollection.erase
  split
  · exact h
  · refine ⟨?_, ?_, KeyedList.uniqueKeys_erase Attribute.key key c.attributes h.unique⟩
    · intro w hw
      exact h.admissible w (List.mem_filter.mp hw).1
    · intro w hw
      exact h.legal w (List.mem_filter.mp hw).1

/-- Looking at a collection keeps everything. -/
theorem reads {J : OwnedCollection → Prop} (hJ : ∀ c, J c → ∀ v ∈ c.attributes, P v) :
    collection.Reads (Diagonal J) P collection where
  index := by
    rintro c _ ⟨rfl, -⟩
    rfl
  find? key := Step.Related.look (fun _ => rfl) fun _ _ => rfl
  attributes := Step.Related.look (fun _ => rfl) fun c h => ⟨rfl, hJ c h⟩
  size := Step.Related.look (fun _ => rfl) fun _ _ => rfl

theorem writes : collection.Writes (Diagonal (Lawful P)) P collection where
  index := by
    rintro c _ ⟨rfl, -⟩
    rfl
  add v hv := by
    refine Step.Related.diagonal ?_
    intro c h
    refine ⟨Action.agree_self _, ?_⟩
    change Lawful P ((add v).run.run c).state
    rcases c.add_cases v with ⟨e, -, -, hstate⟩ | ⟨hcheck, -, hstate⟩
    · rw [hstate]
      exact h
    · have hlegal := ((Placement.check_eq_ok_iff v c.index none).mp hcheck).2
      rw [hstate]
      exact h.put hv hlegal
  remove key := by
    refine Step.Related.diagonal ?_
    intro c h
    exact ⟨rfl, h.erase key⟩

end OwnedCollection

namespace OwnedSet

structure Lawful (P : Attribute → Prop) (s : OwnedSet) : Prop where
  ascending : Ascending s.collections
  collections : ∀ c ∈ s.collections, c.Lawful P

theorem lawful_empty : empty.Lawful P where
  ascending := List.Pairwise.nil
  collections := by simp [empty]

variable {s : OwnedSet}

theorem Lawful.getOrEmpty (h : s.Lawful P) (index : Index) : (s.getOrEmpty index).Lawful P := by
  rcases s.getOrEmpty_mem_or_empty index with hmem | hempty
  · exact h.collections _ hmem
  · rw [hempty]
    exact OwnedCollection.lawful_empty index

theorem Lawful.put (h : s.Lawful P) {c : OwnedCollection} (hc : c.Lawful P) :
    (s.put c).Lawful P where
  ascending := ascending_insert c h.ascending
  collections d hd := by
    rcases mem_insert hd with rfl | hmem
    · exact hc
    · exact h.collections d hmem

theorem carries (index : Index) :
    (component index).Carries (OwnedCollection.Lawful P) (Lawful P) where
  get _ h := h.getOrEmpty index
  put _ _ h hc := h.put hc

theorem collection_reads (index : Index) :
    (collection index).Reads (Diagonal (Lawful P)) P (collection index) :=
  (OwnedCollection.reads fun _ h => h.admissible).within (carries index)

theorem collection_writes (index : Index) :
    (collection index).Writes (Diagonal (Lawful P)) P (collection index) :=
  OwnedCollection.writes.within (carries index)

/-- Access to an index is always granted, and keeps what an access keeps. -/
theorem related_access {J : OwnedSet → Prop} {Q : Collection OwnedSet → Collection OwnedSet → Prop}
    {index : Index} (hJ : ∀ s, J s → J (s.access index))
    (hQ : Q (collection index) (collection index)) :
    Action.Related (Diagonal J) Q (attributeSet.collectionAt index)
      (attributeSet.collectionAt index) :=
  Step.Related.diagonal fun s h => ⟨hQ, hJ s h⟩

theorem related_collectionAt {Q : Collection OwnedSet → Collection OwnedSet → Prop}
    {index : Index} (hQ : Q (collection index) (collection index)) :
    Action.Related (Diagonal (Lawful P)) Q (attributeSet.collectionAt index)
      (attributeSet.collectionAt index) :=
  related_access (fun _ h => h.put (h.getOrEmpty index)) hQ

theorem writes (index : Index) :
    attributeSet.Writes (Diagonal (Lawful P)) P attributeSet index :=
  related_collectionAt (collection_writes index)

end OwnedSet

end IRAttributes
