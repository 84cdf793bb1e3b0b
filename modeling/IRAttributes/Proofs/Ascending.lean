import IRAttributes.OwnedSet
import IRAttributes.Proofs.IndexNumbers

/-!
The order in which an owned set keeps its collections. Indices are ordered like
their ranks, and a set files a new collection where its index belongs, so the
indices of a set ascend and no index has two collections. Whatever is found at
an index is then what stands in the list.
-/
namespace IRAttributes

namespace Index

/-- The place of an index among all indices. -/
def rank : Index → Nat
  | .returnValue => 0
  | .parameter n => n.toNat + 1
  | .function => UInt32.size + 1

theorem lt_iff_rank_lt (i j : Index) : i < j ↔ i.rank < j.rank := by
  change i.lt j = true ↔ i.rank < j.rank
  cases i with
  | returnValue => cases j <;> simp [lt, rank]
  | parameter m =>
    cases j with
    | returnValue => simp [lt, rank]
    | parameter n => simp [lt, rank, UInt32.lt_iff_toNat_lt]
    | function =>
      have hm := m.toNat_lt
      have hrank : (parameter m).rank < function.rank := by
        simp only [rank, UInt32.size]
        omega
      simp [lt, hrank]
  | function =>
    cases j with
    | returnValue => simp [lt, rank]
    | parameter n =>
      have hn := n.toNat_lt
      have hrank : ¬ function.rank < (parameter n).rank := by
        simp only [rank, UInt32.size]
        omega
      simp [lt, hrank]
    | function => simp [lt, rank]

theorem rank_injective {i j : Index} (h : i.rank = j.rank) : i = j := by
  cases i with
  | returnValue => cases j <;> simp_all [rank]
  | parameter m =>
    have hm := m.toNat_lt
    cases j with
    | returnValue => simp [rank] at h
    | parameter n =>
      have hmn : m.toNat = n.toNat := Nat.succ.inj h
      rw [UInt32.toNat_inj.mp hmn]
    | function =>
      simp only [rank, UInt32.size] at h
      omega
  | function =>
    cases j with
    | returnValue => simp [rank] at h
    | parameter n =>
      have hn := n.toNat_lt
      simp only [rank, UInt32.size] at h
      omega
    | function => rfl

theorem lt_trans {i j k : Index} (hij : i < j) (hjk : j < k) : i < k := by
  rw [lt_iff_rank_lt] at *
  omega

theorem ne_of_lt {i j : Index} (h : i < j) : i ≠ j := by
  rintro rfl
  rw [lt_iff_rank_lt] at h
  omega

theorem lt_of_not_lt_of_ne {i j : Index} (hlt : ¬ i < j) (hne : j ≠ i) : j < i := by
  rw [lt_iff_rank_lt] at *
  have hrank : j.rank ≠ i.rank := fun h => hne (rank_injective h)
  omega

end Index

namespace OwnedSet

/-- The indices of the collections ascend. -/
def Ascending (collections : List OwnedCollection) : Prop :=
  collections.Pairwise fun c d => c.index < d.index

theorem mem_insert {c d : OwnedCollection} {collections : List OwnedCollection}
    (h : d ∈ insert c collections) : d = c ∨ d ∈ collections := by
  induction collections with
  | nil => exact Or.inl (List.mem_singleton.mp h)
  | cons e rest ih =>
    rw [insert] at h
    split at h
    · exact (List.mem_cons.mp h).imp_right (List.mem_cons_of_mem e)
    · split at h
      · exact List.mem_cons.mp h
      · rcases List.mem_cons.mp h with rfl | hmem
        · exact Or.inr List.mem_cons_self
        · exact (ih hmem).imp_right (List.mem_cons_of_mem e)

theorem ascending_insert (c : OwnedCollection) {collections : List OwnedCollection}
    (h : Ascending collections) : Ascending (insert c collections) := by
  unfold Ascending at *
  induction collections with
  | nil => exact List.pairwise_singleton _ c
  | cons e rest ih =>
    obtain ⟨hfirst, hrest⟩ := List.pairwise_cons.mp h
    rw [insert]
    split
    · rename_i hsame
      refine List.pairwise_cons.mpr ⟨?_, hrest⟩
      intro d hd
      exact hsame ▸ hfirst d hd
    · rename_i hother
      split
      · rename_i hlt
        refine List.pairwise_cons.mpr ⟨?_, h⟩
        intro d hd
        rcases List.mem_cons.mp hd with rfl | hd
        · exact hlt
        · exact Index.lt_trans hlt (hfirst d hd)
      · rename_i hnot
        refine List.pairwise_cons.mpr ⟨?_, ih hrest⟩
        intro d hd
        rcases mem_insert hd with rfl | hd
        · exact Index.lt_of_not_lt_of_ne hnot hother
        · exact hfirst d hd

/-- Filing a collection where it stands already changes nothing. -/
theorem insert_of_mem {c : OwnedCollection} {collections : List OwnedCollection}
    (h : Ascending collections) (hc : c ∈ collections) : insert c collections = collections := by
  induction collections with
  | nil => cases hc
  | cons e rest ih =>
    obtain ⟨hfirst, hrest⟩ := List.pairwise_cons.mp h
    rcases List.mem_cons.mp hc with rfl | hmem
    · rw [insert, if_pos rfl]
    · have hlt := hfirst c hmem
      have hnot : ¬ c.index < e.index := fun hgt => Index.ne_of_lt (Index.lt_trans hlt hgt) rfl
      rw [insert, if_neg (Index.ne_of_lt hlt), if_neg hnot, ih hrest hmem]

/-- Accessing an index that was accessed before changes nothing. -/
theorem access_of_get? {s : OwnedSet} {index : Index} {c : OwnedCollection}
    (h : Ascending s.collections) (hget : s.get? index = some c) : s.access index = s := by
  have hmem : c ∈ s.collections := KeyedList.mem_of_find? OwnedCollection.index hget
  have hfound : s.getOrEmpty index = c := by rw [getOrEmpty, hget, Option.getD_some]
  rw [access, hfound, put, insert_of_mem h hmem]

/-- In an ascending list a collection is found under its own index. -/
theorem find?_of_mem {c : OwnedCollection} {collections : List OwnedCollection}
    (h : Ascending collections) (hc : c ∈ collections) :
    KeyedList.find? OwnedCollection.index c.index collections = some c := by
  have hunique : KeyedList.UniqueKeys OwnedCollection.index collections := by
    refine List.pairwise_map.mpr (List.Pairwise.imp ?_ h)
    intro d e hlt
    exact Index.ne_of_lt hlt
  exact (KeyedList.find?_eq_some_iff OwnedCollection.index hunique).mpr ⟨hc, rfl⟩

/-- Where a collection stands, seen from another one. -/
theorem mem_split {before after : List OwnedCollection} {d d' : OwnedCollection}
    (h : Ascending (before ++ d :: after)) (hd' : d' ∈ before ++ d :: after) :
    (d' ∈ before ∧ d'.index < d.index) ∨ d' = d ∨ d.index < d'.index := by
  obtain ⟨-, hafter, hless⟩ := List.pairwise_append.mp h
  rcases List.mem_append.mp hd' with hbefore | hrest
  · exact Or.inl ⟨hbefore, hless d' hbefore d List.mem_cons_self⟩
  · rcases List.mem_cons.mp hrest with heq | hmem
    · exact Or.inr (Or.inl heq)
    · exact Or.inr (Or.inr ((List.pairwise_cons.mp hafter).1 d' hmem))

/-- What stands before a collection is what has a lesser index. -/
theorem mem_before_iff {before after : List OwnedCollection} {d d' : OwnedCollection}
    (h : Ascending (before ++ d :: after)) :
    d' ∈ before ↔ d' ∈ before ++ d :: after ∧ d'.index < d.index := by
  constructor
  · intro hin
    exact ⟨List.mem_append_left _ hin,
      (List.pairwise_append.mp h).2.2 d' hin d List.mem_cons_self⟩
  · rintro ⟨hin, hlt⟩
    rcases mem_split h hin with ⟨hin', -⟩ | rfl | hgt
    · exact hin'
    · exact absurd rfl (Index.ne_of_lt hlt)
    · exact absurd rfl (Index.ne_of_lt (Index.lt_trans hlt hgt))

/-- The collection at an index is one of the set, or it is empty. -/
theorem getOrEmpty_mem_or_empty (s : OwnedSet) (index : Index) :
    s.getOrEmpty index ∈ s.collections ∨ s.getOrEmpty index = .empty index := by
  rw [getOrEmpty, get?]
  cases hfound : KeyedList.find? OwnedCollection.index index s.collections with
  | none => exact Or.inr rfl
  | some c => exact Or.inl (KeyedList.mem_of_find? OwnedCollection.index hfound)

end OwnedSet

end IRAttributes
