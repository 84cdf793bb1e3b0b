import IRAttributes.AttributeSet
import IRAttributes.OwnedCollection

/-!
A set that keeps its attributes itself, for putting attributes together before
they are attached to anything. It holds one collection for each index that was
ever accessed, in ascending order of their indices, and accessing an index
creates its collection. Merging and applying go through the collections in
that order.
-/
namespace IRAttributes

structure OwnedSet where
  collections : List OwnedCollection
  deriving DecidableEq

namespace OwnedSet

def empty : OwnedSet := ⟨[]⟩

def get? (s : OwnedSet) (index : Index) : Option OwnedCollection :=
  KeyedList.find? OwnedCollection.index index s.collections

/-- Files a collection under its own index. -/
def insert (c : OwnedCollection) : List OwnedCollection → List OwnedCollection
  | [] => [c]
  | d :: rest =>
      if d.index = c.index then c :: rest
      else if c.index < d.index then c :: d :: rest
      else d :: insert c rest

def put (c : OwnedCollection) (s : OwnedSet) : OwnedSet := ⟨insert c s.collections⟩

def getOrEmpty (index : Index) (s : OwnedSet) : OwnedCollection :=
  (s.get? index).getD (.empty index)

/-- The set with a collection at an index, which is new if there was none. -/
def access (index : Index) (s : OwnedSet) : OwnedSet := s.put (s.getOrEmpty index)

def component (index : Index) : Component OwnedSet OwnedCollection where
  get := getOrEmpty index
  put := put

/-- The collection at an index of the set. -/
def collection (index : Index) : Collection OwnedSet :=
  OwnedCollection.collection.within (component index)

def attributeSet : AttributeSet OwnedSet where
  collectionAt index := do
    Step.modify (access index)
    return collection index
  parameterCount := pure none

/-- Every index that was accessed, with its attributes. -/
def toList (s : OwnedSet) : List (Index × List Attribute) :=
  s.collections.map fun c => (c.index, c.attributes)

theorem mem_toList_iff {s : OwnedSet} {index : Index} {vs : List Attribute} :
    (index, vs) ∈ s.toList ↔ ⟨index, vs⟩ ∈ s.collections := by
  constructor
  · intro hpair
    obtain ⟨c, hc, heq⟩ := List.mem_map.mp hpair
    obtain ⟨rfl, rfl⟩ := Prod.mk.inj heq
    exact hc
  · exact fun hc => List.mem_map.mpr ⟨_, hc, rfl⟩

/-- Copies all attributes onto another set, index by index. -/
def applyTo {σ : Type} (s : OwnedSet) (target : AttributeSet σ) : Action σ Unit :=
  s.collections.forM fun c => target.addAll c.index c.attributes

def mergeFrom (other : OwnedSet) : Action OwnedSet Unit := other.applyTo attributeSet

theorem find?_insert (c : OwnedCollection) (collections : List OwnedCollection) (index : Index) :
    KeyedList.find? OwnedCollection.index index (insert c collections) =
      if c.index = index then some c
      else KeyedList.find? OwnedCollection.index index collections := by
  induction collections with
  | nil => rfl
  | cons d rest ih =>
    by_cases hsame : d.index = c.index
    · rw [insert, if_pos hsame]
      by_cases hindex : c.index = index
      · simp [KeyedList.find?, hindex]
      · have hd : ¬ d.index = index := hsame ▸ hindex
        simp [KeyedList.find?, hindex, hd]
    · rw [insert, if_neg hsame]
      by_cases hlt : c.index < d.index
      · rw [if_pos hlt]
        rfl
      · rw [if_neg hlt, KeyedList.find?, ih]
        by_cases hindex : c.index = index
        · have hd : ¬ d.index = index := fun heq => hsame (heq.trans hindex.symm)
          simp [hindex, hd]
        · simp [KeyedList.find?, hindex]

theorem getOrEmpty_put (c : OwnedCollection) (s : OwnedSet) (index : Index) :
    (s.put c).getOrEmpty index = if c.index = index then c else s.getOrEmpty index := by
  rw [getOrEmpty, get?, put, find?_insert]
  split <;> rfl

/-- A collection is filed under its own index. -/
theorem index_getOrEmpty (s : OwnedSet) (index : Index) : (s.getOrEmpty index).index = index := by
  unfold getOrEmpty
  cases hget : s.get? index with
  | none => rfl
  | some c => exact KeyedList.key_of_find? OwnedCollection.index hget

/-- Accessing an index leaves all attributes where they are. -/
theorem getOrEmpty_access (s : OwnedSet) (index index' : Index) :
    (s.access index).getOrEmpty index' = s.getOrEmpty index' := by
  rw [access, getOrEmpty_put, index_getOrEmpty]
  split
  · rename_i hindex
    rw [hindex]
  · rfl

end OwnedSet

end IRAttributes
