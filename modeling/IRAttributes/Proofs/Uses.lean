import IRAttributes.Proofs.Merging
import IRAttributes.Proofs.Narrowing
import IRAttributes.Proofs.Portion

/-!
Uses of a set. All that can be done with a set of attributes itself is to reach
for an index, to make a request of the set or of its collection at an index, and
to apply an owned set to it. An owned set that starts out empty has collections
at exactly the indices that it was used at, whether or not a use succeeds: a use
begins with reaching for its index, so it might as well find that index accessed
before, and then there is nothing left for it to add.
-/
namespace IRAttributes

variable {σ τ α : Type}

namespace OwnedSet

/-- The indices that come up when one goes through the set. -/
def indices (s : OwnedSet) : List Index := s.toList.map Prod.fst

theorem indices_eq (s : OwnedSet) : s.indices = s.collections.map OwnedCollection.index := by
  rw [indices, toList, List.map_map]
  rfl

end OwnedSet

inductive SetUse
  | reach (index : Index)
  | onSet (request : SetRequest)
  /-- A request of the collection that the set has at an index. -/
  | onCollection (index : Index) (request : CollectionRequest)
  | merge (source : OwnedSet)
  deriving DecidableEq

namespace SetUse

def run (S : AttributeSet σ) : SetUse → Action σ Answer
  | .reach index => do
      let _ ← S.collectionAt index
      return .done
  | .onSet request => request.run S
  | .onCollection index request => do request.run (← S.collectionAt index)
  | .merge source => do
      source.applyTo S
      return .done

/-- The indices that a use is about. -/
def indices : SetUse → List Index
  | .reach index => [index]
  | .onSet request => request.index?.toList
  | .onCollection index _ => [index]
  | .merge source => source.indices

/-- A set that is merged is in order. -/
def Lawful : SetUse → Prop
  | .merge source => source.Lawful fun _ => True
  | _ => True

end SetUse

namespace AttributeSet

/-- Uses of a set one after the other, whether or not they succeed. -/
def runAll (S : AttributeSet σ) : List SetUse → Step σ (List (Except Error Answer))
  | [] => pure []
  | use :: rest => do
      let answer ← (use.run S).run
      return answer :: (← S.runAll rest)

def after (S : AttributeSet σ) (uses : List SetUse) (s : σ) : σ := ((S.runAll uses).run s).state

theorem after_cons (S : AttributeSet σ) (use : SetUse) (rest : List SetUse) (s : σ) :
    S.after (use :: rest) s = S.after rest ((use.run S).run.run s).state := rfl

theorem after_append (S : AttributeSet σ) (before rest : List SetUse) (s : σ) :
    S.after (before ++ rest) s = S.after rest (S.after before s) := by
  induction before generalizing s with
  | nil => rfl
  | cons use before ih => rw [List.cons_append, after_cons, after_cons, ih]

/-- Access to the collection at an index is granted alike, and it reads and writes alike. -/
def Matches (R : σ → τ → Prop) (S : AttributeSet σ) (T : AttributeSet τ) (index : Index) : Prop :=
  Action.Related R (fun c d => c.Reads R (fun _ => True) d ∧ c.Writes R (fun _ => True) d)
    (S.collectionAt index) (T.collectionAt index)

variable {R : σ → τ → Prop} {S : AttributeSet σ} {T : AttributeSet τ} {index : Index}

theorem Matches.reads (h : S.Matches R T index)
    (hcount : Step.Related R Eq S.parameterCount T.parameterCount) :
    S.Reads R (fun _ => True) T index :=
  .of_count hcount (Action.Related.mono h fun _ _ hcd => hcd.1)

theorem Matches.writes (h : S.Matches R T index) : S.Writes R (fun _ => True) T index :=
  Action.Related.mono h fun _ _ hcd => hcd.2

end AttributeSet

section Related

variable {R : σ → τ → Prop} {S : AttributeSet σ} {T : AttributeSet τ}

/-- Sets that match at the indices of a use can be used alike. -/
theorem SetUse.run_related (use : SetUse)
    (hcount : Step.Related R Eq S.parameterCount T.parameterCount)
    (hat : ∀ index ∈ use.indices, S.Matches R T index) :
    Action.Related R Eq (use.run S) (use.run T) := by
  cases use with
  | reach index =>
    refine Action.Related.bind (hat index (List.mem_singleton_self index)) ?_
    intro _ _ _
    exact Action.Related.pure rfl
  | onSet request =>
    have hmatches : ∀ index, request.index? = some index → S.Matches R T index :=
      fun index hindex => hat index (Option.mem_toList.mpr hindex)
    exact request.run_related (fun _ _ => trivial) (fun _ _ => trivial) hcount
      (fun index hindex => (hmatches index hindex).reads hcount)
      fun index hindex => (hmatches index hindex).writes
  | onCollection index request =>
    refine Action.Related.bind (hat index (List.mem_singleton_self index)) ?_
    rintro c d ⟨hreads, hwrites⟩
    exact request.run_related (fun _ _ => trivial) (fun _ _ => trivial) hreads hwrites
  | merge source =>
    refine Action.Related.map (source.applyTo_related (fun _ _ _ _ => trivial) ?_) _
    intro c hc
    have hindex : c.index ∈ source.indices := by
      rw [source.indices_eq]
      exact List.mem_map_of_mem hc
    exact (hat c.index hindex).writes

theorem AttributeSet.runAll_related (uses : List SetUse)
    (h : ∀ use ∈ uses, Action.Related R Eq (use.run S) (use.run T)) :
    Step.Related R Eq (S.runAll uses) (T.runAll uses) := by
  induction uses with
  | nil => exact Step.Related.pure rfl
  | cons use rest ih =>
    refine Step.Related.bind (h use List.mem_cons_self) ?_
    intro answer answer' hagree
    obtain rfl : answer = answer' := Action.agree_eq_iff.mp hagree
    exact Step.Related.map (ih fun use' hmem => h use' (List.mem_cons_of_mem use hmem)) _

end Related

namespace OwnedCollection

/-- What survives putting and erasing survives all that is asked of a collection. -/
theorem writes_of {J : OwnedCollection → Prop} (hput : ∀ c v, J c → J (c.put v))
    (herase : ∀ c key, J c → J (c.erase key)) :
    collection.Writes (Diagonal J) (fun _ => True) collection where
  index := by
    rintro c _ ⟨rfl, -⟩
    rfl
  add v _ := by
    refine Step.Related.diagonal ?_
    intro c hc
    refine ⟨Action.agree_self _, ?_⟩
    change J ((add v).run.run c).state
    rcases c.add_cases v with ⟨_, -, -, hstate⟩ | ⟨-, -, hstate⟩
    · exact hstate.symm ▸ hc
    · exact hstate.symm ▸ hput c v hc
  remove key := by
    refine Step.Related.diagonal ?_
    intro c hc
    exact ⟨rfl, herase c key hc⟩

theorem index_erase (c : OwnedCollection) (key : Key) : (c.erase key).index = c.index := by
  unfold OwnedCollection.erase
  split <;> rfl

/-- A collection never moves to another index. -/
theorem writes_at (index : Index) :
    collection.Writes (Diagonal fun c => c.index = index) (fun _ => True) collection :=
  writes_of (fun _ _ hc => hc) fun c key hc => (c.index_erase key).trans hc

end OwnedCollection

namespace OwnedSet

variable {s t m : OwnedSet} {accessed : List Index} {index : Index} {use : SetUse}
  {uses : List SetUse}

theorem isSome_get?_iff : (s.get? index).isSome = true ↔ index ∈ s.indices := by
  rw [get?, KeyedList.isSome_find?_iff, indices_eq, List.mem_map]

/-- The set has collections at exactly these indices. -/
def Indexed (accessed : List Index) (s : OwnedSet) : Prop :=
  ∀ index, (s.get? index).isSome = true ↔ index ∈ accessed

theorem Indexed.put (h : s.Indexed accessed) {c : OwnedCollection} (hc : c.index ∈ accessed) :
    (s.put c).Indexed accessed := by
  intro index
  rw [get?_put]
  split
  · rename_i hindex
    exact iff_of_true rfl (hindex ▸ hc)
  · exact h index

theorem Indexed.access (h : s.Indexed accessed) (index : Index) :
    (s.access index).Indexed (accessed ++ [index]) := by
  intro index'
  rw [OwnedSet.access, get?_put, index_getOrEmpty, List.mem_append, List.mem_singleton]
  split
  · rename_i hindex
    exact iff_of_true rfl (Or.inr hindex.symm)
  · rename_i hindex
    rw [h index']
    exact (or_iff_left fun heq => hindex heq.symm).symm

/-- A second access finds what the first one left. -/
theorem access_access (s : OwnedSet) (index : Index) :
    (s.access index).access index = s.access index := by
  have hfound := s.getOrEmpty_access index index
  conv_lhs => rw [access, hfound, access]
  exact put_put rfl s

theorem Indexed.merges (h : s.Indexed accessed)
    (hjoin : ∀ index, m.get? index = OwnedCollection.join (s.get? index) (t.get? index)) :
    m.Indexed (accessed ++ t.indices) := by
  intro index
  rw [hjoin, OwnedCollection.isSome_join, h index, isSome_get?_iff, List.mem_append]

theorem related_parameterCount {J : OwnedSet → Prop} :
    Step.Related (Diagonal J) Eq attributeSet.parameterCount attributeSet.parameterCount :=
  Step.Related.pure rfl

/-- A collection that is put back at one of the indices adds none. -/
theorem matches_indexed (hindex : index ∈ accessed) :
    attributeSet.Matches (Diagonal (Indexed accessed)) attributeSet index := by
  have hcarries : (component index).Carries (fun c => c.index = index) (Indexed accessed) :=
    ⟨fun s _ => s.index_getOrEmpty index, fun _ _ h hc => h.put (hc.symm ▸ hindex)⟩
  refine related_access ?_ ⟨?_, ?_⟩
  · intro s h
    exact h.put ((s.index_getOrEmpty index).symm ▸ hindex)
  · exact (OwnedCollection.reads fun _ _ _ _ => trivial).within hcarries
  · exact (OwnedCollection.writes_at index).within hcarries

theorem matches_lawful (index : Index) :
    attributeSet.Matches (Diagonal (Lawful fun _ => True)) attributeSet index :=
  related_collectionAt ⟨collection_reads index, collection_writes index⟩

/-- What begins with reaching for an index does the same if that index was accessed before. -/
theorem run_access_of_reaches {f : AttributeSet OwnedSet → Action OwnedSet α}
    (hf : AttributeSet.Reaches index f) (s : OwnedSet) :
    ((f attributeSet).run.run (s.access index)).state = ((f attributeSet).run.run s).state := by
  obtain ⟨g, hg⟩ := hf
  have hreached : ∀ s, (attributeSet.collectionAt index).run.run s =
      ⟨.ok (collection index), s.access index, []⟩ := fun _ => rfl
  rw [hg, (Action.bind_of_ok g (congrArg Outcome.answer (hreached s))).2,
    (Action.bind_of_ok g (congrArg Outcome.answer (hreached _))).2, hreached, hreached,
    access_access]

/-- Any position may be asked for. -/
theorem run_parameterSummary (position : UInt32) :
    (SetRequest.parameterSummary position).run attributeSet =
      (SetRequest.summary (.parameter position)).run attributeSet := rfl

private theorem Indexed.of_reaches (h : s.Indexed accessed) (use : SetUse)
    (hindices : use.indices = [index])
    (hreaches : AttributeSet.Reaches index fun S : AttributeSet OwnedSet => use.run S) :
    ((use.run attributeSet).run.run s).state.Indexed (accessed ++ use.indices) := by
  have hkept : Action.Related (Diagonal (Indexed (accessed ++ use.indices))) Eq
      (use.run attributeSet) (use.run attributeSet) :=
    use.run_related related_parameterCount fun i hi =>
      matches_indexed (List.mem_append_right accessed hi)
  rw [← run_access_of_reaches hreaches]
  refine Step.Related.kept hkept ?_
  rw [hindices]
  exact h.access index

/-- A use adds the indices that it is about, and no others. -/
theorem Indexed.run (h : s.Indexed accessed) (hs : s.Lawful fun _ => True) (huse : use.Lawful) :
    ((use.run attributeSet).run.run s).state.Indexed (accessed ++ use.indices) := by
  cases use with
  | reach index =>
    refine h.of_reaches (.reach index) rfl ?_
    exact (AttributeSet.reaches_collectionAt index).map fun _ => Answer.done
  | onCollection index request =>
    exact h.of_reaches (.onCollection index request) rfl ⟨fun c => request.run c, fun _ => rfl⟩
  | onSet request =>
    cases hindex : request.index? with
    | none =>
      cases request with
      | parameterCount => exact (List.append_nil accessed).symm ▸ h
      | _ => cases hindex
    | some index =>
      have hindices : (SetUse.onSet request).indices = [index] := congrArg Option.toList hindex
      rcases SetRequest.reaches?_cases hindex with hreaches | ⟨position, rfl, rfl⟩
      · exact h.of_reaches (.onSet request) hindices (SetRequest.reaches_run hreaches)
      · -- a position is an index like any other
        have hsummary : (SetRequest.summary (.parameter position)).reaches? =
            some (.parameter position) := rfl
        rw [SetUse.run, run_parameterSummary]
        exact h.of_reaches (.onSet (.summary (.parameter position))) rfl
          (SetRequest.reaches_run hsummary)
  | merge source =>
    obtain ⟨m, ⟨-, hstate⟩, -, hjoin⟩ := exists_merges hs huse
    have hmerged : (((SetUse.merge source).run attributeSet).run.run s).state = m :=
      (Action.state_map _ _ s).trans hstate
    exact hmerged.symm ▸ h.merges hjoin

theorem Lawful.run (hs : s.Lawful fun _ => True) (use : SetUse) :
    ((use.run attributeSet).run.run s).state.Lawful fun _ => True :=
  Step.Related.kept (use.run_related related_parameterCount fun index _ => matches_lawful index) hs

theorem Lawful.after (hs : s.Lawful fun _ => True) (uses : List SetUse) :
    (attributeSet.after uses s).Lawful fun _ => True := by
  induction uses generalizing s with
  | nil => exact hs
  | cons use rest ih => exact ih (hs.run use)

theorem Indexed.after (h : s.Indexed accessed) (hs : s.Lawful fun _ => True)
    (huses : ∀ use ∈ uses, use.Lawful) :
    (attributeSet.after uses s).Indexed (accessed ++ uses.flatMap SetUse.indices) := by
  induction uses generalizing s accessed with
  | nil =>
    rw [List.flatMap_nil, List.append_nil]
    exact h
  | cons use rest ih =>
    have hrest : ∀ use' ∈ rest, use'.Lawful :=
      fun use' hmem => huses use' (List.mem_cons_of_mem use hmem)
    rw [List.flatMap_cons, ← List.append_assoc, AttributeSet.after_cons]
    exact ih (h.run hs (huses use List.mem_cons_self)) (hs.run use) hrest

/-- The set has kept account of where it was used: going through it yields these
indices and no others, in ascending order, and a collection is found at each of
them and nowhere else. -/
structure Records (accessed : List Index) (s : OwnedSet) : Prop where
  ascending : s.indices.Pairwise (· < ·)
  listed : ∀ index, index ∈ s.indices ↔ index ∈ accessed
  found : ∀ index, (s.get? index).isSome = true ↔ index ∈ accessed

theorem Indexed.records (h : s.Indexed accessed) (hs : s.Lawful fun _ => True) :
    s.Records accessed where
  ascending := by
    rw [indices_eq]
    exact List.pairwise_map.mpr hs.ascending
  listed index := isSome_get?_iff.symm.trans (h index)
  found := h

theorem records_after (huses : ∀ use ∈ uses, use.Lawful) :
    (attributeSet.after uses empty).Records (uses.flatMap SetUse.indices) := by
  have hempty : empty.Indexed [] := fun _ => iff_of_false Bool.false_ne_true List.not_mem_nil
  have hindexed := hempty.after lawful_empty huses
  exact hindexed.records (lawful_empty.after uses)

end OwnedSet

end IRAttributes
