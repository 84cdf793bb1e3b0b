import IRAttributes.Proofs.Stock
import IRAttributes.Proofs.Union

/-!
Merging owned sets. Whatever an owned set holds at an index is legal there, so
merging it into another one never fails, and afterwards each collection is the
union of the two at its index: keys stay where they stood, the merged set decides
what they stand for, and its new keys follow. As uniting is associative and
idempotent, so is merging, down to the order of attributes and the collections
that are empty.
-/
namespace IRAttributes

variable {P : Attribute → Prop}

namespace OwnedCollection

/-- Two collections at one index made one, where there are any. -/
def join : Option OwnedCollection → Option OwnedCollection → Option OwnedCollection
  | none, d => d
  | c, none => c
  | some c, some d => some ⟨c.index, KeyedList.union Attribute.key c.attributes d.attributes⟩

theorem join_none (c : Option OwnedCollection) : join c none = c := by
  cases c <;> rfl

theorem join_assoc (c d e : Option OwnedCollection) :
    join (join c d) e = join c (join d e) := by
  cases c with
  | none => rfl
  | some c =>
    cases d with
    | none => rfl
    | some d =>
      cases e with
      | none => rfl
      | some e => simp only [join, KeyedList.union_assoc]

theorem join_self {c : Option OwnedCollection} (h : ∀ d ∈ c, d.Lawful P) : join c c = c := by
  cases c with
  | none => rfl
  | some c => simp only [join, KeyedList.union_self (h c rfl).unique]

theorem isSome_join (c d : Option OwnedCollection) :
    (join c d).isSome = true ↔ c.isSome = true ∨ d.isSome = true := by
  cases c <;> cases d <;> simp [join]

end OwnedCollection

namespace OwnedSet

variable {s t m : OwnedSet} {index : Index}

/-- What is filed last at an index counts. -/
theorem insert_insert {c d : OwnedCollection} (h : d.index = c.index)
    (collections : List OwnedCollection) :
    insert d (insert c collections) = insert d collections := by
  induction collections with
  | nil => simp [insert, h]
  | cons e rest ih =>
    by_cases hsame : e.index = c.index
    · simp [insert, h, hsame]
    · by_cases hlt : c.index < e.index
      · simp [insert, h, hsame, hlt]
      · simp [insert, h, hsame, hlt, ih]

theorem put_put {c d : OwnedCollection} (h : d.index = c.index) (s : OwnedSet) :
    (s.put c).put d = s.put d :=
  congrArg OwnedSet.mk (insert_insert h s.collections)

theorem get?_put (c : OwnedCollection) (s : OwnedSet) (index : Index) :
    (s.put c).get? index = if c.index = index then some c else s.get? index :=
  find?_insert c s.collections index

/-- Sets in order are the same if they have the same collections at all indices. -/
theorem eq_of_get? (hs : Ascending s.collections) (ht : Ascending t.collections)
    (h : ∀ index, s.get? index = t.get? index) : s = t := by
  have hmem : ∀ {s t : OwnedSet}, Ascending s.collections →
      (∀ index, s.get? index = t.get? index) → ∀ c ∈ s.collections, c ∈ t.collections := by
    intro s t hs h c hc
    have hfound : t.get? c.index = some c := (h c.index).symm.trans (find?_of_mem hs hc)
    exact KeyedList.mem_of_find? OwnedCollection.index hfound
  have hnodup : ∀ {s : OwnedSet}, Ascending s.collections → s.collections.Nodup := by
    intro s hs
    refine hs.imp ?_
    rintro c _ hlt rfl
    exact Index.ne_of_lt hlt rfl
  have hperm : s.collections.Perm t.collections := by
    refine (List.perm_ext_iff_of_nodup (hnodup hs) (hnodup ht)).mpr fun c => ⟨?_, ?_⟩
    · exact hmem hs h c
    · exact hmem ht (fun index => (h index).symm) c
  have hcollections : s.collections = t.collections := by
    refine hperm.eq_of_pairwise ?_ hs ht
    intro c d _ _ hcd hdc
    exact absurd rfl (Index.ne_of_lt (Index.lt_trans hcd hdc))
  exact congrArg OwnedSet.mk hcollections

/-- An attribute that is legal on the index of a collection is put into it. -/
private theorem run_add_collection {c : OwnedCollection} (hindex : c.index = index) {v : Attribute}
    (hv : Placement.Legal v index) (s : OwnedSet) :
    (((collection index).add v).run.run (s.put c)).answer = .ok () ∧
      (((collection index).add v).run.run (s.put c)).state = s.put (c.put v) := by
  subst hindex
  have hget : (s.put c).getOrEmpty c.index = c := by rw [getOrEmpty_put, if_pos rfl]
  have hrange : Placement.InRange c.index none := by cases c.index <;> trivial
  have hcheck := (Placement.check_eq_ok_iff v c.index none).mpr ⟨hrange, hv⟩
  rcases c.add_cases v with ⟨e, herror, -, -⟩ | ⟨-, hanswer, hstate⟩
  · rw [hcheck] at herror
    cases herror
  · have hrun : ((collection c.index).add v).run.run (s.put c) =
        ((OwnedCollection.add v).run.within (component c.index)).run (s.put c) := rfl
    rw [hrun, Step.run_within]
    change ((OwnedCollection.add v).run.run ((s.put c).getOrEmpty c.index)).answer = .ok () ∧
      (s.put c).put ((OwnedCollection.add v).run.run ((s.put c).getOrEmpty c.index)).state =
        s.put (c.put v)
    rw [hget, hstate]
    have hsame : (c.put v).index = c.index := rfl
    exact ⟨hanswer, put_put hsame s⟩

/-- Attributes that are legal on an index are added there, one put after the other. -/
private theorem run_addAll_collection {vs : List Attribute}
    (hvs : ∀ v ∈ vs, Placement.Legal v index) (s : OwnedSet) (c : OwnedCollection)
    (hindex : c.index = index) :
    (((collection index).addAll vs).run.run (s.put c)).answer = .ok () ∧
      (((collection index).addAll vs).run.run (s.put c)).state =
        s.put ⟨index, KeyedList.putAll Attribute.key vs c.attributes⟩ := by
  induction vs generalizing c with
  | nil =>
    subst hindex
    exact ⟨rfl, rfl⟩
  | cons v rest ih =>
    obtain ⟨hadded, hput⟩ := run_add_collection hindex (hvs v List.mem_cons_self) s
    obtain ⟨hanswer, hstate⟩ := Action.bind_of_ok (fun _ => (collection index).addAll rest) hadded
    rw [hput] at hanswer hstate
    obtain ⟨hrest, hlast⟩ := ih (fun w hw => hvs w (List.mem_cons_of_mem v hw)) (c.put v) hindex
    exact ⟨hanswer.trans hrest, hstate.trans hlast⟩

/-- The set with the attributes of a collection put at its index. -/
def putAll (s : OwnedSet) (d : OwnedCollection) : OwnedSet :=
  s.put ⟨d.index,
    KeyedList.putAll Attribute.key d.attributes (s.getOrEmpty d.index).attributes⟩

theorem run_addAll {d : OwnedCollection} (hd : d.Lawful P) (s : OwnedSet) :
    ((attributeSet.addAll d.index d.attributes).run.run s).answer = .ok () ∧
      ((attributeSet.addAll d.index d.attributes).run.run s).state = s.putAll d :=
  run_addAll_collection hd.legal s (s.getOrEmpty d.index) (s.index_getOrEmpty d.index)

/-- Lawful collections are put one after the other. -/
theorem run_applyTo {collections : List OwnedCollection}
    (hlawful : ∀ d ∈ collections, d.Lawful P) (s : OwnedSet) :
    (((OwnedSet.mk collections).applyTo attributeSet).run.run s).answer = .ok () ∧
      (((OwnedSet.mk collections).applyTo attributeSet).run.run s).state =
        collections.foldl putAll s := by
  induction collections generalizing s with
  | nil => exact ⟨rfl, rfl⟩
  | cons d rest ih =>
    obtain ⟨hadded, hstate⟩ := run_addAll (hlawful d List.mem_cons_self) s
    obtain ⟨hanswer', hstate'⟩ :=
      Action.bind_of_ok (fun _ => (OwnedSet.mk rest).applyTo attributeSet) hadded
    rw [hstate] at hanswer' hstate'
    obtain ⟨hrest, hlast⟩ := ih (fun d' hd' => hlawful d' (List.mem_cons_of_mem d hd')) (s.putAll d)
    exact ⟨hanswer'.trans hrest, hstate'.trans hlast⟩

theorem get?_putAll (hs : s.Lawful P) {d : OwnedCollection} (hd : d.Lawful P) (index : Index) :
    (s.putAll d).get? index =
      if d.index = index then OwnedCollection.join (s.get? index) (some d) else s.get? index := by
  rw [putAll, get?_put]
  split
  · rename_i hindex
    subst hindex
    rw [KeyedList.putAll_eq_union (hs.getOrEmpty d.index).unique hd.unique, getOrEmpty]
    cases hget : s.get? d.index with
    | none => simp only [Option.getD_none, OwnedCollection.empty, KeyedList.nil_union,
        OwnedCollection.join]
    | some c =>
      have hindex : c.index = d.index := KeyedList.key_of_find? OwnedCollection.index hget
      simp only [Option.getD_some, OwnedCollection.join, hindex]
  · rfl

theorem Lawful.putAll (hs : s.Lawful P) {d : OwnedCollection} (hd : d.Lawful P) :
    (s.putAll d).Lawful P := by
  have hkept : ((attributeSet.addAll d.index d.attributes).run.run s).state.Lawful P :=
    Step.Related.kept ((writes d.index).addAll hd.admissible) hs
  exact (run_addAll hd s).2 ▸ hkept

/-- What is found after some collections were put, in ascending order of their indices. -/
theorem get?_foldl_putAll {collections : List OwnedCollection} (hascending : Ascending collections)
    (hlawful : ∀ d ∈ collections, d.Lawful P) (hs : s.Lawful P) (index : Index) :
    (collections.foldl putAll s).get? index =
      OwnedCollection.join (s.get? index) ((OwnedSet.mk collections).get? index) := by
  induction collections generalizing s with
  | nil => exact (OwnedCollection.join_none _).symm
  | cons d rest ih =>
    obtain ⟨hfirst, hrest⟩ := List.pairwise_cons.mp hascending
    have hd := hlawful d List.mem_cons_self
    rw [List.foldl_cons, ih hrest (fun d' hd' => hlawful d' (List.mem_cons_of_mem d hd'))
      (hs.putAll hd), get?_putAll hs hd]
    by_cases hindex : d.index = index
    · have hnone : (OwnedSet.mk rest).get? index = none := by
        refine KeyedList.find?_eq_none_iff.mpr ?_
        intro d' hd' heq
        exact Index.ne_of_lt (hfirst d' hd') (hindex.trans heq.symm)
      have hsome : (OwnedSet.mk (d :: rest)).get? index = some d := if_pos hindex
      rw [if_pos hindex, hnone, hsome, OwnedCollection.join_none]
    · have hsame : (OwnedSet.mk (d :: rest)).get? index = (OwnedSet.mk rest).get? index :=
        if_neg hindex
      rw [if_neg hindex, hsame]

theorem Lawful.foldl_putAll {collections : List OwnedCollection}
    (hlawful : ∀ d ∈ collections, d.Lawful P) (hs : s.Lawful P) :
    (collections.foldl OwnedSet.putAll s).Lawful P := by
  induction collections generalizing s with
  | nil => exact hs
  | cons d rest ih =>
    exact ih (fun d' hd' => hlawful d' (List.mem_cons_of_mem d hd'))
      (hs.putAll (hlawful d List.mem_cons_self))

/-- Merging `t` into `s` succeeds, and gives `m`. -/
def Merges (s t m : OwnedSet) : Prop :=
  ((mergeFrom t).run.run s).answer = .ok () ∧ ((mergeFrom t).run.run s).state = m

/-- Lawful sets can be merged, and then every index has what the two had there. -/
theorem exists_merges (hs : s.Lawful P) (ht : t.Lawful P) :
    ∃ m, s.Merges t m ∧ m.Lawful P ∧
      ∀ index, m.get? index = OwnedCollection.join (s.get? index) (t.get? index) :=
  ⟨t.collections.foldl putAll s, run_applyTo ht.collections s, hs.foldl_putAll ht.collections,
    get?_foldl_putAll ht.ascending ht.collections hs⟩

/-- What has at every index what the two sets had there is the merged set. -/
theorem Lawful.merges_of_join (hs : s.Lawful P) (ht : t.Lawful P) (hm : Ascending m.collections)
    (h : ∀ index, m.get? index = OwnedCollection.join (s.get? index) (t.get? index)) :
    s.Merges t m := by
  obtain ⟨m', hmerges, hm', hjoin⟩ := exists_merges hs ht
  obtain rfl : m' = m := by
    refine eq_of_get? hm'.ascending hm ?_
    intro index
    rw [hjoin index, h index]
  exact hmerges

theorem Lawful.join_self (hs : s.Lawful P) (index : Index) :
    OwnedCollection.join (s.get? index) (s.get? index) = s.get? index := by
  refine OwnedCollection.join_self (P := P) ?_
  intro d hd
  exact hs.collections d (KeyedList.mem_of_find? OwnedCollection.index hd)

/-- The attributes of one collection made from two are united. -/
private theorem attributes_join (index : Index) (c d : Option OwnedCollection) :
    ((OwnedCollection.join c d).getD (.empty index)).attributes =
      KeyedList.union Attribute.key (c.getD (.empty index)).attributes
        (d.getD (.empty index)).attributes := by
  cases c with
  | none => exact (KeyedList.nil_union Attribute.key _).symm
  | some c =>
    cases d with
    | none => exact (KeyedList.union_nil Attribute.key _).symm
    | some d => rfl

/-- Merging two sets of a workspace is merging the one as it is at the start. -/
private theorem perform_merge {w : Workspace} {source target : Nat}
    (h : (w.getSet target).Merges (w.getSet source) m) :
    (w.perform (.merge source target)).answer = .ok (.answer .done) ∧
      (w.perform (.merge source target)).state = { w with sets := w.sets.set target m } := by
  obtain ⟨hmerged, hstate⟩ := h
  have hdone : ((Workspace.merge source target).run.run w).answer = .ok () := hmerged
  obtain ⟨hanswer, hkept⟩ := Action.bind_of_ok (fun _ => return Reply.answer .done) hdone
  exact ⟨hanswer, hkept.trans (congrArg (fun s => (Workspace.ownedSet target).put s w) hstate)⟩

/-- Any set can be merged into any other one. The merged set has exactly the
indices of both; at each index the keys of the first set keep their order, the
second set decides what they stand for where it has them, and its other
attributes follow in their order. In a workspace nothing changes but the set
that is merged into. -/
theorem mergeFrom_of_reached {a b : OwnedSet} (ha : a.Reached) (hb : b.Reached) :
    ∃ m, a.Merges b m ∧ Ascending m.collections ∧
      (∀ index, (m.get? index).isSome = true ↔
        (a.get? index).isSome = true ∨ (b.get? index).isSome = true) ∧
      (∀ index, (m.getOrEmpty index).attributes =
        KeyedList.union Attribute.key (a.getOrEmpty index).attributes
          (b.getOrEmpty index).attributes) ∧
      ∀ (w : Workspace) (source target : Nat), w.getSet source = b → w.getSet target = a →
        (w.perform (.merge source target)).answer = .ok (.answer .done) ∧
          (w.perform (.merge source target)).state = { w with sets := w.sets.set target m } ∧
          (source ≠ target → (w.perform (.merge source target)).state.getSet source = b) := by
  obtain ⟨m, hmerges, hm, hjoin⟩ := exists_merges ha.lawful hb.lawful
  refine ⟨m, hmerges, hm.ascending, ?_, ?_, ?_⟩
  · intro index
    rw [hjoin index, OwnedCollection.isSome_join]
  · intro index
    rw [getOrEmpty, hjoin index]
    exact attributes_join index (a.get? index) (b.get? index)
  · rintro w source target rfl rfl
    obtain ⟨hanswer, hstate⟩ := perform_merge hmerges
    refine ⟨hanswer, hstate, ?_⟩
    intro hne
    rw [hstate]
    simp only [Workspace.getSet, Workspace.ownedSet, List.getElem?_set_ne hne.symm]

/-- Attributes for a function that is not inlined. -/
def coldLinked : OwnedSet :=
  ⟨[⟨.function, [.known .cold none, .named "section" "a", .known .noInline none]⟩]⟩

/-- The same function in another section, and aligned; its return value was looked at. -/
def hotLinked : OwnedSet :=
  ⟨[⟨.returnValue, []⟩, ⟨.parameter 0, [.known .alignment (some 8)]⟩,
    ⟨.function, [.known .noUnwind none, .named "section" "b"]⟩]⟩

private theorem coldLinked_reached : coldLinked.Reached := by
  refine ⟨0, [], [.newSet, .onSet (.owned 0) (.addKind .function .cold),
    .onSet (.owned 0) (.add .function (.named "section" "a")),
    .onSet (.owned 0) (.addKind .function .noInline)], ?_⟩
  decide

private theorem hotLinked_reached : hotLinked.Reached := by
  refine ⟨0, [], [.newSet, .onSet (.owned 0) (.addKind .function .noUnwind),
    .onSet (.owned 0) (.add .function (.named "section" "b")),
    .onSet (.owned 0) (.hasAny .returnValue),
    .onSet (.owned 0) (.addPayload (.parameter 0) .alignment 8)], ?_⟩
  decide

/-- The section is replaced where it stands, and what is new follows. -/
theorem mergeFrom_of_reached_linked :
    coldLinked.Reached ∧ hotLinked.Reached ∧
      ∃ m, coldLinked.Merges hotLinked m ∧ (m.get? .returnValue).isSome = true ∧
        (m.getOrEmpty .function).attributes =
          [.known .cold none, .named "section" "b", .known .noInline none,
            .known .noUnwind none] := by
  obtain ⟨m, hmerges, -, hindices, hattributes, -⟩ :=
    mergeFrom_of_reached coldLinked_reached hotLinked_reached
  refine ⟨coldLinked_reached, hotLinked_reached, m, hmerges, ?_, ?_⟩
  · exact (hindices .returnValue).mpr (Or.inr rfl)
  · rw [hattributes .function]
    decide

/-- Merging is associative, the empty set is neutral, and a set that is merged
again makes no difference, be it merged into itself or into another one. -/
theorem merges_laws {a b c : OwnedSet} (ha : a.Reached) (hb : b.Reached) (hc : c.Reached) :
    ∃ ab bc abc, a.Merges b ab ∧ b.Merges c bc ∧ ab.Merges c abc ∧ a.Merges bc abc ∧
      a.Merges empty a ∧ empty.Merges a a ∧ a.Merges a a ∧ ab.Merges b ab := by
  have hla := ha.lawful
  have hlb := hb.lawful
  obtain ⟨ab, hab, hlab, hjab⟩ := exists_merges hla hlb
  obtain ⟨bc, hbc, hlbc, hjbc⟩ := exists_merges hlb hc.lawful
  obtain ⟨abc, habc, hlabc, hjabc⟩ := exists_merges hlab hc.lawful
  refine ⟨ab, bc, abc, hab, hbc, habc, ?_, ?_, ?_, ?_, ?_⟩
  · refine hla.merges_of_join hlbc hlabc.ascending ?_
    intro index
    rw [hjabc index, hjab index, hjbc index, OwnedCollection.join_assoc]
  · refine hla.merges_of_join lawful_empty hla.ascending ?_
    intro index
    exact (OwnedCollection.join_none (a.get? index)).symm
  · refine lawful_empty.merges_of_join hla hla.ascending ?_
    intro index
    rfl
  · refine hla.merges_of_join hla hla.ascending ?_
    intro index
    exact (hla.join_self index).symm
  · refine hlab.merges_of_join hlb hlab.ascending ?_
    intro index
    rw [hjab index, OwnedCollection.join_assoc, hlb.join_self index]

/-- The same function once more, in a section of its own. -/
def farLinked : OwnedSet :=
  ⟨[⟨.parameter 1, [.known .noAlias none]⟩,
    ⟨.function, [.named "section" "c", .known .cold none]⟩]⟩

private theorem farLinked_reached : farLinked.Reached := by
  refine ⟨0, [], [.newSet, .onSet (.owned 0) (.add .function (.named "section" "c")),
    .onSet (.owned 0) (.addKind .function .cold),
    .onSet (.owned 0) (.addKind (.parameter 1) .noAlias)], ?_⟩
  decide

/-- Three sets that share keys, put together in two ways. -/
theorem merges_laws_linked :
    coldLinked.Reached ∧ hotLinked.Reached ∧ farLinked.Reached ∧
      ∃ ab bc abc, coldLinked.Merges hotLinked ab ∧ hotLinked.Merges farLinked bc ∧
        ab.Merges farLinked abc ∧ coldLinked.Merges bc abc ∧
        abc.toList = [(.returnValue, []), (.parameter 0, [.known .alignment (some 8)]),
          (.parameter 1, [.known .noAlias none]),
          (.function, [.known .cold none, .named "section" "c", .known .noInline none,
            .known .noUnwind none])] := by
  obtain ⟨ab, bc, abc, hab, hbc, habc, habc', -⟩ :=
    merges_laws coldLinked_reached hotLinked_reached farLinked_reached
  refine ⟨coldLinked_reached, hotLinked_reached, farLinked_reached, ab, bc, abc, hab, hbc, habc,
    habc', ?_⟩
  obtain ⟨-, rfl⟩ := hab
  obtain ⟨-, rfl⟩ := habc
  decide

end OwnedSet

end IRAttributes
