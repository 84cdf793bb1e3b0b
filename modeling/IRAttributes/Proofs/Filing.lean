import IRAttributes.Proofs.Uses

/-!
Collections under keys. A set might keep each collection under a key, which is the
index that was reached for when the collection was made, and put it back under
that key whenever something was done with it; nothing in this way of keeping
collections makes the key and the index of a collection agree. They do agree after
any uses, as no collection ever moves to another index, and so an owned set, which
files its collections under their own indices, cannot be told apart from such a map.
-/
namespace IRAttributes

variable {α : Type}

structure FiledSet where
  entries : List (Index × OwnedCollection)
  deriving DecidableEq

namespace FiledSet

def empty : FiledSet := ⟨[]⟩

def get? (m : FiledSet) (key : Index) : Option OwnedCollection :=
  (KeyedList.find? Prod.fst key m.entries).map Prod.snd

/-- Files a collection under a key, whatever index it has itself. -/
def insert (key : Index) (c : OwnedCollection) :
    List (Index × OwnedCollection) → List (Index × OwnedCollection)
  | [] => [(key, c)]
  | e :: rest =>
      if e.1 = key then (key, c) :: rest
      else if key < e.1 then (key, c) :: e :: rest
      else e :: insert key c rest

def put (key : Index) (c : OwnedCollection) (m : FiledSet) : FiledSet := ⟨insert key c m.entries⟩

def getOrEmpty (key : Index) (m : FiledSet) : OwnedCollection := (m.get? key).getD (.empty key)

def access (key : Index) (m : FiledSet) : FiledSet := m.put key (m.getOrEmpty key)

def component (key : Index) : Component FiledSet OwnedCollection where
  get := getOrEmpty key
  put := put key

def collection (key : Index) : Collection FiledSet :=
  OwnedCollection.collection.within (component key)

def attributeSet : AttributeSet FiledSet where
  collectionAt key := do
    Step.modify (access key)
    return collection key
  parameterCount := pure none

/-- The map has the collections of a set in their order, each under its own index. -/
structure Files (m : FiledSet) (s : OwnedSet) : Prop where
  own : ∀ e ∈ m.entries, e.2.index = e.1
  collections : m.entries.map Prod.snd = s.collections

section Entries

variable {entries : List (Index × OwnedCollection)} {key : Index} {c : OwnedCollection}

private theorem mem_insert_entry {e : Index × OwnedCollection} (h : e ∈ insert key c entries) :
    e = (key, c) ∨ e ∈ entries := by
  induction entries with
  | nil => exact Or.inl (List.mem_singleton.mp h)
  | cons d rest ih =>
    rw [insert] at h
    split at h
    · exact (List.mem_cons.mp h).imp_right (List.mem_cons_of_mem d)
    · split at h
      · exact List.mem_cons.mp h
      · rcases List.mem_cons.mp h with rfl | hmem
        · exact Or.inr List.mem_cons_self
        · exact (ih hmem).imp_right (List.mem_cons_of_mem d)

/-- Where all keys are the collections' own, one finds the same by either. -/
private theorem find?_entries (h : ∀ e ∈ entries, e.2.index = e.1) (key : Index) :
    (KeyedList.find? Prod.fst key entries).map Prod.snd =
      KeyedList.find? OwnedCollection.index key (entries.map Prod.snd) := by
  induction entries with
  | nil => rfl
  | cons e rest ih =>
    obtain ⟨hown, hrest⟩ := List.forall_mem_cons.mp h
    rw [List.map_cons, KeyedList.find?, KeyedList.find?, hown]
    split
    · rfl
    · exact ih hrest

private theorem map_insert_entries (h : ∀ e ∈ entries, e.2.index = e.1) (hc : c.index = key) :
    (insert key c entries).map Prod.snd = OwnedSet.insert c (entries.map Prod.snd) := by
  subst hc
  induction entries with
  | nil => rfl
  | cons e rest ih =>
    obtain ⟨hown, hrest⟩ := List.forall_mem_cons.mp h
    rw [List.map_cons, insert, OwnedSet.insert, hown]
    split
    · rfl
    · split
      · rfl
      · exact congrArg (e.2 :: ·) (ih hrest)

end Entries

variable {m : FiledSet} {s : OwnedSet} {key : Index}

namespace Files

theorem get? (h : m.Files s) (key : Index) : m.get? key = s.get? key := by
  rw [FiledSet.get?, OwnedSet.get?, ← h.collections]
  exact find?_entries h.own key

theorem getOrEmpty (h : m.Files s) (key : Index) : m.getOrEmpty key = s.getOrEmpty key := by
  rw [FiledSet.getOrEmpty, OwnedSet.getOrEmpty, h.get?]

/-- A collection of the same index is filed under it in both. -/
theorem put (h : m.Files s) {c : OwnedCollection} (hc : c.index = key) :
    (m.put key c).Files (s.put c) where
  own e he := by
    rcases mem_insert_entry he with rfl | hmem
    · exact hc
    · exact h.own e hmem
  collections := by
    rw [FiledSet.put, OwnedSet.put, ← h.collections]
    exact map_insert_entries h.own hc

end Files

/-- What leaves a collection at its index does the same to it under a key. -/
private theorem related_within_files {Q : α → α → Prop} {x : Step OwnedCollection α}
    (hx : Step.Related (Diagonal fun c => c.index = key) Q x x) :
    Step.Related Files Q (x.within (component key)) (x.within (OwnedSet.component key)) := by
  intro m s h
  have hget : (component key).get m = (OwnedSet.component key).get s := h.getOrEmpty key
  have hindex : ((OwnedSet.component key).get s).index = key := s.index_getOrEmpty key
  obtain ⟨hanswer, -, hkept⟩ := hx _ _ ⟨rfl, hindex⟩
  rw [Step.run_within, Step.run_within, hget]
  exact ⟨hanswer, h.put hkept⟩

private theorem index_collection (h : m.Files s) (key : Index) :
    (collection key).index m = (OwnedSet.collection key).index s :=
  congrArg OwnedCollection.index (h.getOrEmpty key)

theorem collection_reads (key : Index) :
    (collection key).Reads Files (fun _ => True) (OwnedSet.collection key) := by
  have hreads : OwnedCollection.collection.Reads (Diagonal fun c => c.index = key) (fun _ => True)
      OwnedCollection.collection := OwnedCollection.reads fun _ _ _ _ => trivial
  exact {
    index := fun _ _ h => index_collection h key
    find? := fun k => related_within_files (hreads.find? k)
    attributes := related_within_files hreads.attributes
    size := related_within_files hreads.size }

theorem collection_writes (key : Index) :
    (collection key).Writes Files (fun _ => True) (OwnedSet.collection key) where
  index _ _ h := index_collection h key
  add v hv := related_within_files ((OwnedCollection.writes_at key).add v hv)
  remove k := related_within_files ((OwnedCollection.writes_at key).remove k)

theorem matches_files (key : Index) :
    attributeSet.Matches Files OwnedSet.attributeSet key := by
  intro m s h
  refine ⟨⟨collection_reads key, collection_writes key⟩, ?_⟩
  change (m.access key).Files (s.access key)
  rw [access, h.getOrEmpty]
  exact h.put (s.index_getOrEmpty key)

/-- The same answers are given to all uses, and the keys always agree. -/
theorem runAll_files (uses : List SetUse) :
    Step.Related Files Eq (attributeSet.runAll uses) (OwnedSet.attributeSet.runAll uses) :=
  AttributeSet.runAll_related uses fun use _ =>
    use.run_related (Step.Related.pure rfl) fun key _ => matches_files key

theorem files_empty : empty.Files .empty where
  own _ he := absurd he List.not_mem_nil
  collections := rfl

end FiledSet

end IRAttributes
