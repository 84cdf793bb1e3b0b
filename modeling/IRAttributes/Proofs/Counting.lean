import IRAttributes.Json.Form
import IRAttributes.Proofs.Departures
import IRAttributes.Proofs.Padding
import IRAttributes.Proofs.Revision

/-!
Counting and listing. A context counts what an entity keeps in native form, and
lists what can be read back from it. Everything in native form comes from an
attribute that was added, and the only attribute that cannot be read back is
one without a name, which no checked constructor builds. No index keeps two of
them, so a count is right or one too many, and it is too many exactly where an
attribute without a name was brought in; there a view cannot remove it either.
-/
namespace IRAttributes

namespace KeyedList

variable {α κ : Type} [DecidableEq κ] (key : α → κ)

/-- At most one element goes with a key. -/
theorem length_erase {l : List α} (h : UniqueKeys key l) (k : κ) :
    l.length = (erase key k l).length + (find? key k l).isSome.toNat := by
  have hself : (l.filter fun a => key a = k).length = (find? key k l).isSome.toNat := by
    rw [filter_key key h]
    cases find? key k l <;> rfl
  have hsplit := l.length_eq_countP_add_countP fun a => decide (key a = k)
  simp only [List.countP_eq_length_filter, hself, decide_eq_true_eq] at hsplit
  rw [hsplit, erase, Nat.add_comm]

end KeyedList

namespace NativeAttribute

/-- Only an attribute without a name cannot be read back. -/
theorem isSome_toAttribute?_ofAttribute (v : Attribute) :
    (ofAttribute v).toAttribute?.isSome = decide ((ofAttribute v).key ≠ (Key.name "").native) := by
  rw [toAttribute?_ofAttribute_eq, key_ofAttribute]
  cases v with
  | known kind payload => rfl
  | named name value =>
    by_cases hname : name = "" <;> simp [Attribute.normal?, Attribute.key, Key.native, hname]

theorem length_filterMap_toAttribute? (vs : List Attribute) :
    ((vs.map ofAttribute).filterMap toAttribute?).length =
      (KeyedList.erase key (Key.name "").native (vs.map ofAttribute)).length := by
  rw [List.length_filterMap_eq_countP, List.countP_eq_length_filter, KeyedList.erase]
  congr 1
  refine List.filter_congr ?_
  intro a ha
  obtain ⟨v, -, rfl⟩ := List.mem_map.mp ha
  exact isSome_toAttribute?_ofAttribute v

end NativeAttribute

namespace Context

variable {c : Context} {h : Handle} {index : Index}

/-- Whatever an entity keeps is the native form of attributes that were brought
in or built by a checked constructor. -/
theorem exists_native_eq_map (ops : List Operation) (h : Handle) (index : Index) :
    ∃ vs : List Attribute, (empty.after ops).native h index = vs.map .ofAttribute ∧
      ∀ v ∈ vs, v.WellFormed ∨ ∃ op ∈ ops, v ∈ op.values := by
  obtain ⟨moves, hpath, hpermits⟩ := empty.path_after ops
  by_cases hleft : (empty.after ops).entities.Spent h
  · refine ⟨[], native_of_role?_eq_none (role?_of_spent hleft) index, ?_⟩
    exact fun v hv => absurd hv List.not_mem_nil
  · refine ⟨_, hpath.native_eq_replay hleft index, ?_⟩
    intro v hv
    obtain ⟨m, hm, hedit⟩ := List.mem_filterMap.mp (Edit.mem_replay hv)
    obtain ⟨op, hop, hpermit⟩ := hpermits m hm
    cases m with
    | put h' index' w =>
      simp only [Move.edit?, Option.ite_none_right_eq_some, Option.some.injEq,
        Edit.put.injEq] at hedit
      obtain ⟨-, rfl⟩ := hedit
      exact hpermit.2.symm.imp_right fun hvalue => ⟨op, hop, hvalue⟩
    | erase h' index' key => simp [Move.edit?] at hedit
    | enter h' role => cases hedit
    | leave h' => cases hedit

/-- An attribute without a name that is kept is the one thing that is not listed. -/
theorem length_native (ops : List Operation) (h : Handle) (index : Index) :
    ((empty.after ops).native h index).length =
      ((empty.after ops).attributes h index).length +
        ((empty.after ops).stored? h index (.name "")).isSome.toNat := by
  obtain ⟨vs, hnative, -⟩ := exists_native_eq_map ops h index
  have hlength := KeyedList.length_erase NativeAttribute.key
    ((lawful_empty.after ops).unique h index) (Key.name "").native
  rw [stored?, hlength, attributes, hnative, NativeAttribute.length_filterMap_toAttribute?]

/-- Whoever keeps an attribute without a name was given one. -/
theorem exists_nameless (ops : List Operation)
    (hnameless : ((empty.after ops).stored? h index (.name "")).isSome = true) :
    ∃ op ∈ ops, ∃ v ∈ op.values, v.key = .name "" := by
  obtain ⟨vs, hnative, horigin⟩ := exists_native_eq_map ops h index
  rw [stored?, hnative, KeyedList.isSome_find?_iff] at hnameless
  obtain ⟨a, ha, hkey⟩ := hnameless
  obtain ⟨v, hv, rfl⟩ := List.mem_map.mp ha
  have hname : v.key = .name "" := (NativeAttribute.key_ofAttribute_eq_iff v _).mp hkey
  rcases horigin v hv with hwell | ⟨op, hop, hvalue⟩
  · have hblank := hwell.key_isBlank
    rw [hname] at hblank
    cases hblank
  · exact ⟨op, hop, v, hvalue, hname⟩

/-- A view erases the key of an attribute, unless that is the empty name. -/
theorem removeLike_cases (c : Context) (h : Handle) (index : Index) (v : Attribute) :
    (v.key = .name "" ∧ (c.perform (.onView ⟨h, index⟩ (.removeLike v))).state = c) ∨
      (v.key ≠ .name "" ∧ (c.perform (.onView ⟨h, index⟩ (.removeLike v))).state =
        c.erase h index v.key) := by
  have hstate : (c.perform (.onView ⟨h, index⟩ (.removeLike v))).state =
      ((View.remove store ⟨h, index⟩ v.key).run c).state := rfl
  rw [hstate, View.remove]
  cases hkey : v.key with
  | kind kind => exact Or.inr ⟨Key.noConfusion, rfl⟩
  | name name =>
    by_cases hname : name = ""
    · exact Or.inl ⟨congrArg Key.name hname, by simp [Key.isBlank, hname]⟩
    · refine Or.inr ⟨fun heq => hname (Key.name.inj heq), ?_⟩
      simp only [Key.isBlank, String.isEmpty_iff, hname, if_false]
      rfl

theorem stored?_erase_self (hc : c.Sound) (h : Handle) (index : Index) (key : Key) :
    (c.erase h index key).stored? h index key = none := by
  rw [stored?, (c.moves_erase h index key).native hc.table, Move.stored, if_pos ⟨rfl, rfl⟩]
  exact KeyedList.find?_erase_self NativeAttribute.key key.native _

/-- What an entity counts at an index is what it lists there, wherever it is
counted, and what a view removes is not counted any more. -/
structure Tallies (c : Context) (h : Handle) (index : Index) : Prop where
  count : (c.count h index).toNat = (c.attributes h index).length
  isEmpty : (View.collection store ⟨h, index⟩).isEmpty.peek c = (c.attributes h index).isEmpty
  hasAny : ∀ holder : Holder, holder.handle = h →
    (((holder.attributes store).hasAny index).run.run c).answer =
      (((holder.attributes store).collectionAt index).run.run c).answer.map
        fun _ => !(c.attributes h index).isEmpty
  removed : ∀ v : Attribute,
    (c.perform (.onView ⟨h, index⟩ (.removeLike v))).state.stored? h index v.key = none

/-- A set counts through the view that it grants. -/
theorem hasAny_eq (c : Context) (holder : Holder) (index : Index) :
    (((holder.attributes store).hasAny index).run.run c).answer =
      (((holder.attributes store).collectionAt index).run.run c).answer.map fun _ =>
        !(View.collection store ⟨holder.handle, index⟩).isEmpty.peek c := by
  have hsame := c.state_collectionAt holder index
  rcases c.collectionAt_cases holder index with ⟨e, hrefused⟩ | ⟨hgranted, -⟩
  · rw [hrefused]
    exact (Action.bind_of_error _ hrefused).1
  · have hasked := (Action.bind_of_ok
      (fun collection => do return !(← collection.isEmpty)) hgranted).1
    rw [hsame] at hasked
    rw [hgranted]
    exact hasked

/-- An entity that keeps no attribute without a name counts what it lists. -/
theorem tallies_of_named (hc : c.Sound)
    (hlength : (c.count h index).toNat = (c.attributes h index).length)
    (hnamed : c.stored? h index (.name "") = none) : c.Tallies h index := by
  have hempty : (View.collection store ⟨h, index⟩).isEmpty.peek c =
      (c.attributes h index).isEmpty := by
    have hsize : (View.collection store ⟨h, index⟩).isEmpty.peek c =
        ((c.count h index).toNat == 0) := rfl
    rw [hsize, hlength]
    cases c.attributes h index <;> rfl
  refine ⟨hlength, hempty, ?_, ?_⟩
  · rintro holder rfl
    rw [hasAny_eq, hempty]
  · intro v
    rcases c.removeLike_cases h index v with ⟨hblank, hstate⟩ | ⟨-, hstate⟩
    · rw [hstate, hblank, hnamed]
    · rw [hstate, stored?_erase_self hc]

/-- A slot with fewer than 2^32 attributes counts one too many exactly where it
keeps an attribute without a name, which was brought in as such; everywhere else
counting and listing agree in every respect. A view removes everything but that
attribute. -/
theorem tallies_iff_named (ops : List Operation) (h : Handle) (index : Index)
    (hsize : ((empty.after ops).native h index).length < 4294967296) :
    ((empty.after ops).Tallies h index ↔ (empty.after ops).stored? h index (.name "") = none) ∧
      ((empty.after ops).count h index).toNat = ((empty.after ops).attributes h index).length +
        ((empty.after ops).stored? h index (.name "")).isSome.toNat ∧
      (((empty.after ops).stored? h index (.name "")).isSome = true →
        ∃ op ∈ ops, ∃ v ∈ op.values, v.key = .name "") ∧
      ∀ v : Attribute, v.key ≠ .name "" →
        ((empty.after ops).perform (.onView ⟨h, index⟩ (.removeLike v))).state.stored? h index
          v.key = none := by
  have hsound := sound_reached ops
  have hcount : ((empty.after ops).count h index).toNat =
      ((empty.after ops).attributes h index).length +
        ((empty.after ops).stored? h index (.name "")).isSome.toNat := by
    rw [count, UInt32.toNat_ofNat_of_lt' hsize, length_native]
  refine ⟨⟨?_, ?_⟩, hcount, exists_nameless ops, ?_⟩
  · intro htallies
    have hlength := htallies.count
    have hnone : ((empty.after ops).stored? h index (.name "")).isSome.toNat = 0 := by omega
    exact Option.isNone_iff_eq_none.mp
      (Option.isSome_eq_false_iff.mp (Bool.toNat_eq_zero.mp hnone))
  · intro hnamed
    refine tallies_of_named hsound ?_ hnamed
    rw [hcount, hnamed]
    rfl
  · intro v hv
    rcases (empty.after ops).removeLike_cases h index v with ⟨hblank, -⟩ | ⟨-, hstate⟩
    · exact absurd hblank hv
    · rw [hstate, stored?_erase_self hsound]

/-- A function with an alignment that came without its integer, and with a name. -/
def bareAlignment : List Operation :=
  [.addFunction "f" 1, .onStore (.issued 0 0) (.add (.parameter 0) (.known .alignment none)),
    .onStore (.issued 0 0) (.add (.parameter 0) (.named "x" ""))]

/-- The alignment is listed as that of zero, and both are counted. -/
theorem tallies_iff_named_bareAlignment :
    ((empty.after bareAlignment).native (.issued 0 0) (.parameter 0)).length < 4294967296 ∧
      (empty.after bareAlignment).Tallies (.issued 0 0) (.parameter 0) ∧
      (empty.after bareAlignment).count (.issued 0 0) (.parameter 0) = 2 ∧
      (empty.after bareAlignment).attributes (.issued 0 0) (.parameter 0) =
        [.known .alignment (some 0), .named "x" ""] := by
  have hsize : ((empty.after bareAlignment).native (.issued 0 0) (.parameter 0)).length <
      4294967296 := by decide
  have hnamed : (empty.after bareAlignment).stored? (.issued 0 0) (.parameter 0) (.name "") =
      none := by decide
  exact ⟨hsize, (tallies_iff_named bareAlignment _ _ hsize).1.mpr hnamed, by decide, by decide⟩

/-- A function with a flag that has no name. -/
def namelessFlag : List Operation :=
  [.addFunction "f" 0, .onStore (.issued 0 0) (.add .function (.named "" "x"))]

/-- The flag is counted and not listed, and it is still counted after its removal. -/
theorem not_tallies_namelessFlag :
    (empty.after namelessFlag).count (.issued 0 0) .function = 1 ∧
      (empty.after namelessFlag).attributes (.issued 0 0) .function = [] ∧
      ((empty.after namelessFlag).perform
        (.onView ⟨.issued 0 0, .function⟩ (.removeLike (.named "" "x")))).state.count
          (.issued 0 0) .function = 1 ∧
      ¬ (empty.after namelessFlag).Tallies (.issued 0 0) .function := by
  have hcount : (empty.after namelessFlag).count (.issued 0 0) .function = 1 := by decide
  have hlist : (empty.after namelessFlag).attributes (.issued 0 0) .function = [] := by decide
  refine ⟨hcount, hlist, by decide, ?_⟩
  intro htallies
  have hlength := htallies.count
  rw [hcount, hlist] at hlength
  cases hlength

/-- No constructor builds such a flag, but it can be read from JSON. -/
example : Json.toAttribute? "\x7b\"String\":\x7b\"name\":\"\",\"value\":\"x\"\x7d\x7d" =
    some (.named "" "x") := by decide

end Context

end IRAttributes
