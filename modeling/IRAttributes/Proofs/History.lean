import IRAttributes.Proofs.Ledger
import IRAttributes.Proofs.Union
import Mathlib.Data.List.Induction

/-!
Attributes as the outcome of a history. What an entity holds at an index is
what one gets from the additions and removals made for exactly that entity and
that index, one after the other, starting from nothing; what is found under a
key is the last addition that no later addition or removal of the key undid.
Everything else that happens to a context is without consequence there.
-/
namespace IRAttributes

/-- What was done to a list of attributes. -/
inductive Edit
  | put (v : Attribute)
  | erase (key : Key)
  deriving DecidableEq

namespace Edit

def key : Edit → Key
  | .put v => v.key
  | .erase key => key

/-- An attribute takes the place of the one with its key, or else the last place;
what is not erased keeps its order. -/
def apply : Edit → List Attribute → List Attribute
  | .put v, vs =>
      if ∃ w ∈ vs, w.key = v.key then vs.map fun w => if w.key = v.key then v else w
      else vs ++ [v]
  | .erase key, vs => vs.filter fun w => w.key ≠ key

def replay (edits : List Edit) : List Attribute := edits.foldl (fun vs edit => edit.apply vs) []

theorem replay_snoc (edits : List Edit) (edit : Edit) :
    replay (edits ++ [edit]) = edit.apply (replay edits) := by
  simp only [replay, List.foldl_append, List.foldl_cons, List.foldl_nil]

theorem apply_put (v : Attribute) {vs : List Attribute}
    (hvs : KeyedList.UniqueKeys Attribute.key vs) :
    apply (.put v) vs = KeyedList.put Attribute.key v vs := by
  rw [KeyedList.put_eq_union v hvs, KeyedList.union, apply]
  split
  · rename_i hthere
    have hfound := (KeyedList.isSome_find?_iff Attribute.key).mpr hthere
    have hrenew : vs.map (KeyedList.renew Attribute.key [v]) =
        vs.map fun w => if w.key = v.key then v else w := by
      refine List.map_congr_left ?_
      intro w _
      by_cases hw : w.key = v.key
      · simp [KeyedList.renew, KeyedList.find?, hw]
      · simp [KeyedList.renew, KeyedList.find?, hw, Ne.symm hw]
    simp [hrenew, Option.isSome_iff_ne_none.mp hfound]
  · rename_i hnot
    have hother : ∀ w ∈ vs, w.key ≠ v.key := fun w hw heq => hnot ⟨w, hw, heq⟩
    simp [KeyedList.map_renew_of_ne hother, KeyedList.find?_eq_none_iff.mpr hother]

theorem uniqueKeys_replay (edits : List Edit) :
    KeyedList.UniqueKeys Attribute.key (replay edits) := by
  induction edits using List.reverseRecOn with
  | nil => exact List.nodup_nil
  | append_singleton edits edit ih =>
    rw [replay_snoc]
    cases edit with
    | put v =>
      rw [apply_put v ih]
      exact KeyedList.uniqueKeys_put Attribute.key v _ ih
    | erase key => exact KeyedList.uniqueKeys_erase Attribute.key key _ ih

/-- An attribute was put, and nothing was done under its key afterwards. -/
def Standing (edits : List Edit) (v : Attribute) : Prop :=
  ∃ before after, edits = before ++ .put v :: after ∧ ∀ edit ∈ after, edit.key ≠ v.key

theorem standing_snoc_iff {edits : List Edit} {edit : Edit} {v : Attribute} :
    Standing (edits ++ [edit]) v ↔ edit = .put v ∨ (edit.key ≠ v.key ∧ Standing edits v) := by
  constructor
  · rintro ⟨before, after, hsplit, hafter⟩
    rcases List.eq_nil_or_concat after with rfl | ⟨rest, last, rfl⟩
    · obtain ⟨-, hlast⟩ := List.append_inj' hsplit rfl
      exact Or.inl (List.singleton_inj.mp hlast)
    · rw [List.concat_eq_append, ← List.cons_append, ← List.append_assoc] at hsplit
      obtain ⟨hrest, hlast⟩ := List.append_inj' hsplit rfl
      obtain rfl := List.singleton_inj.mp hlast
      refine Or.inr ⟨hafter edit (by simp), before, rest, hrest, ?_⟩
      intro edit' hedit'
      exact hafter edit' (by simp [hedit'])
  · rintro (rfl | ⟨hkey, before, after, rfl, hafter⟩)
    · exact ⟨edits, [], rfl, by simp⟩
    · refine ⟨before, after ++ [edit], by simp, ?_⟩
      intro edit' hedit'
      rcases List.mem_append.mp hedit' with hmem | hmem
      · exact hafter edit' hmem
      · exact List.mem_singleton.mp hmem ▸ hkey

theorem find?_apply_of_ne {edit : Edit} {key : Key} (hkey : edit.key ≠ key)
    {vs : List Attribute} (hvs : KeyedList.UniqueKeys Attribute.key vs) :
    KeyedList.find? Attribute.key key (edit.apply vs) = KeyedList.find? Attribute.key key vs := by
  cases edit with
  | put v =>
    rw [apply_put v hvs]
    exact KeyedList.find?_put_of_ne Attribute.key v vs hkey
  | erase key' => exact KeyedList.find?_erase_of_ne Attribute.key vs hkey

/-- What is found under the key of an edit right after it. -/
def outcome : Edit → Option Attribute
  | .put v => some v
  | .erase _ => none

theorem find?_apply_self (edit : Edit) {vs : List Attribute}
    (hvs : KeyedList.UniqueKeys Attribute.key vs) :
    KeyedList.find? Attribute.key edit.key (edit.apply vs) = edit.outcome := by
  cases edit with
  | put v =>
    rw [apply_put v hvs]
    exact KeyedList.find?_put_self Attribute.key v vs
  | erase key => exact KeyedList.find?_erase_self Attribute.key key vs

theorem outcome_eq_some_iff {edit : Edit} {v : Attribute} :
    edit.outcome = some v ↔ edit = .put v := by
  cases edit with
  | put w => simp only [outcome, Option.some.injEq, put.injEq]
  | erase key => simp only [outcome, reduceCtorEq]

theorem find?_replay_eq_some_iff (edits : List Edit) (key : Key) (v : Attribute) :
    KeyedList.find? Attribute.key key (replay edits) = some v ↔
      v.key = key ∧ Standing edits v := by
  induction edits using List.reverseRecOn with
  | nil => simp [replay, KeyedList.find?, Standing]
  | append_singleton edits edit ih =>
    rw [replay_snoc, standing_snoc_iff]
    by_cases hkey : edit.key = key
    · subst hkey
      rw [find?_apply_self edit (uniqueKeys_replay edits), outcome_eq_some_iff]
      constructor
      · rintro rfl
        exact ⟨rfl, Or.inl rfl⟩
      · rintro ⟨hv, hput | ⟨hne, -⟩⟩
        · exact hput
        · exact absurd hv.symm hne
    · rw [find?_apply_of_ne hkey (uniqueKeys_replay edits), ih]
      constructor
      · rintro ⟨rfl, hstanding⟩
        exact ⟨rfl, Or.inr ⟨hkey, hstanding⟩⟩
      · rintro ⟨rfl, hput | ⟨-, hstanding⟩⟩
        · exact absurd (congrArg Edit.key hput) hkey
        · exact ⟨rfl, hstanding⟩

/-- What is there in the end was put. -/
theorem mem_replay {edits : List Edit} {v : Attribute} (hv : v ∈ replay edits) :
    .put v ∈ edits := by
  induction edits using List.reverseRecOn with
  | nil => exact absurd hv List.not_mem_nil
  | append_singleton edits edit ih =>
    rw [replay_snoc] at hv
    cases edit with
    | put w =>
      rw [apply_put w (uniqueKeys_replay edits)] at hv
      rcases KeyedList.mem_put Attribute.key hv with rfl | hmem
      · exact List.mem_concat_self
      · exact List.mem_append_left _ (ih hmem)
    | erase key => exact List.mem_append_left _ (ih (List.mem_filter.mp hv).1)

theorem wellFormed_replay {edits : List Edit} (h : ∀ v, .put v ∈ edits → v.WellFormed) :
    ∀ v ∈ replay edits, v.WellFormed :=
  fun v hv => h v (mem_replay hv)

end Edit

namespace Move

/-- What a move does to the attributes of an entity at an index, if it is addressed there. -/
def edit? (h : Handle) (index : Index) : Move → Option Edit
  | .put h' index' v => if h' = h ∧ index' = index then some (.put v) else none
  | .erase h' index' key => if h' = h ∧ index' = index then some (.erase key) else none
  | _ => none

def WellFormed : Move → Prop
  | .put _ _ v => v.WellFormed
  | _ => True

/-- The additions and removals among some moves that concern an entity at an index. -/
def edits (h : Handle) (index : Index) (moves : List Move) : List Edit :=
  moves.filterMap (edit? h index)

theorem edits_append (h : Handle) (index : Index) (before after : List Move) :
    edits h index (before ++ after) = edits h index before ++ edits h index after :=
  List.filterMap_append

theorem edits_snoc (h : Handle) (index : Index) (moves : List Move) (m : Move) :
    edits h index (moves ++ [m]) = edits h index moves ++ (m.edit? h index).toList := by
  rw [edits, List.filterMap_append]
  cases hm : m.edit? h index with
  | none => simp [edits, hm]
  | some edit => simp [edits, hm]

theorem wellFormed_of_mem_edits {h : Handle} {index : Index} {moves : List Move}
    (hmoves : ∀ m ∈ moves, m.WellFormed) :
    ∀ v, .put v ∈ edits h index moves → v.WellFormed := by
  intro v hv
  obtain ⟨m, hm, hedit⟩ := List.mem_filterMap.mp hv
  have hwell := hmoves m hm
  cases m with
  | put h' index' w =>
    simp only [edit?, Option.ite_none_right_eq_some, Option.some.injEq, Edit.put.injEq] at hedit
    exact hedit.2 ▸ hwell
  | erase h' index' key =>
    simp [edit?] at hedit
  | enter | leave => cases hedit

/-- Unless its entity leaves, a list in native form is edited like the list itself. -/
theorem stored_map {m : Move} {h : Handle} (hstays : m ≠ .leave h) (index : Index)
    (edits : List Edit) :
    m.stored h index ((Edit.replay edits).map NativeAttribute.ofAttribute) =
      (Edit.replay (edits ++ (m.edit? h index).toList)).map NativeAttribute.ofAttribute := by
  cases m with
  | enter h' role => simp [stored, edit?]
  | leave h' =>
    have hne : ¬ h = h' := fun heq => hstays (heq ▸ rfl)
    simp [stored, edit?, hne]
  | put h' index' v =>
    by_cases hat : h = h' ∧ index = index'
    · obtain ⟨rfl, rfl⟩ := hat
      simp [stored, edit?, Edit.replay_snoc, Edit.apply_put v (Edit.uniqueKeys_replay edits),
        NativeAttribute.put_map_ofAttribute]
    · have hat' : ¬ (h' = h ∧ index' = index) := fun hboth => hat ⟨hboth.1.symm, hboth.2.symm⟩
      simp only [stored, edit?, if_neg hat, if_neg hat', Option.toList_none, List.append_nil]
  | erase h' index' key =>
    by_cases hat : h = h' ∧ index = index'
    · obtain ⟨rfl, rfl⟩ := hat
      have herase : Edit.apply (.erase key) (Edit.replay edits) =
          KeyedList.erase Attribute.key key (Edit.replay edits) := rfl
      simp [stored, edit?, Edit.replay_snoc, herase, NativeAttribute.erase_map_ofAttribute]
    · have hat' : ¬ (h' = h ∧ index' = index) := fun hboth => hat ⟨hboth.1.symm, hboth.2.symm⟩
      simp only [stored, edit?, if_neg hat, if_neg hat', Option.toList_none, List.append_nil]

/-- A move that an operation permits leaves alone what the operation is not addressed to. -/
theorem stored_of_not_addresses {op : Operation} {m : Move} (hm : op.Permits m) {h : Handle}
    {index : Index} (haddress : ¬ op.Addresses h index) (attributes : List NativeAttribute) :
    m.stored h index attributes = attributes := by
  cases m with
  | enter h' role => rfl
  | leave h' =>
    have hne : ¬ h = h' := by
      rintro rfl
      obtain rfl : op = .removeEntity h := hm
      exact haddress rfl
    rw [stored, if_neg hne]
  | put h' index' v =>
    have hne : ¬ (h = h' ∧ index = index') := by
      rintro ⟨rfl, rfl⟩
      exact haddress hm.1
    rw [stored, if_neg hne]
  | erase h' index' key =>
    have hne : ¬ (h = h' ∧ index = index') := by
      rintro ⟨rfl, rfl⟩
      exact haddress hm
    rw [stored, if_neg hne]

theorem wellFormed_of_permits {op : Operation} (hop : op.WellFormed) {m : Move}
    (hm : op.Permits m) : m.WellFormed := by
  cases m with
  | put h index v => exact hm.2.elim (hop v) id
  | enter | leave | erase => trivial

end Move

namespace Context

variable {c c' : Context} {h : Handle} {index : Index} {moves : List Move}

/-- Whoever has not left holds what was put and not erased since. -/
theorem Path.native_eq_replay (hp : empty.Path moves c) (hleft : ¬ c.entities.Spent h)
    (index : Index) :
    c.native h index =
      (Edit.replay (Move.edits h index moves)).map NativeAttribute.ofAttribute := by
  induction hp with
  | nil =>
    have hnone : empty.entity? h = none := by
      cases h with
      | null => rfl
      | issued slot generation => rfl
    rw [native_of_entity?_eq_none hnone]
    rfl
  | @snoc moves m c' c'' hp hm ih =>
    -- a handle that was not issued yet holds nothing either, so only leaving is special
    have hstays : m ≠ .leave h := by
      rintro rfl
      cases hm with
      | leave _ hlive => exact hleft (SlotTable.spent_remove_self hlive)
    rw [hm.native (hp.sound sound_empty).table, ih fun hspent => hleft (hm.spent hspent),
      Move.stored_map hstays, Move.edits_snoc]

theorem Path.native_of_not_addresses {op : Operation} (hp : c.Path moves c') (hc : c.Sound)
    (hpermits : ∀ m ∈ moves, op.Permits m) (haddress : ¬ op.Addresses h index) :
    c'.native h index = c.native h index := by
  rw [hp.native hc]
  exact Move.storedAfter_of_forall
    (fun m hm => Move.stored_of_not_addresses (hpermits m hm) haddress) _

/-- What an operation is not addressed to stays as it is. -/
theorem native_perform_of_not_addresses (hc : c.Sound) {op : Operation}
    (haddress : ¬ op.Addresses h index) :
    (c.perform op).state.native h index = c.native h index := by
  obtain ⟨moves, hpath, hpermits⟩ := c.path_perform op
  exact hpath.native_of_not_addresses hc hpermits haddress

theorem attributes_of_native_eq_map {vs : List Attribute} (hvs : ∀ v ∈ vs, v.WellFormed)
    (hnative : c.native h index = vs.map NativeAttribute.ofAttribute) :
    c.attributes h index = vs := by
  rw [attributes, hnative, NativeAttribute.filterMap_toAttribute?_map hvs]

/-- What is found in a list in native form is what is found in the list. -/
theorem find?_of_native_eq_map {vs : List Attribute} (hvs : ∀ v ∈ vs, v.WellFormed)
    (hnative : c.native h index = vs.map NativeAttribute.ofAttribute) (key : Key) :
    c.find? h index key = KeyedList.find? Attribute.key key vs := by
  rw [find?_eq, attributes_of_native_eq_map hvs hnative]

end Context

end IRAttributes
