import IRAttributes.Proofs.Lookups

/-!
What storing does to an attribute. A context keeps a kind as a number with an
integer, so an integer that is missing reads as zero and one that does not belong
is lost; a named attribute is kept as it is, but cannot be read back without its
name. What is read back is the normal form of what was stored. The normal forms
are what the checked constructors build, and storing one of them again changes
nothing that can be read.
-/
namespace IRAttributes

namespace Attribute

variable {v w : Attribute}

theorem wellFormed_of_normal? (h : v.normal? = some w) : w.WellFormed :=
  NativeAttribute.wellFormed_of_toAttribute?
    ((NativeAttribute.toAttribute?_ofAttribute_eq v).trans h)

theorem key_of_normal? (h : v.normal? = some w) : w.key = v.key := by
  rw [← NativeAttribute.toAttribute?_ofAttribute_eq] at h
  exact (NativeAttribute.key_eq_native_iff h v.key).mp (NativeAttribute.key_ofAttribute v)

theorem normal?_eq_self_iff : v.normal? = some v ↔ v.WellFormed :=
  ⟨wellFormed_of_normal?, WellFormed.normal?_eq⟩

end Attribute

namespace Context

variable {c c' : Context} {h : Handle} {index : Index} {key : Key} {v w : Attribute}
  {found : Option Attribute}

/-- The normal form of what was put is found under its key. -/
theorem find?_of_put (hput : c.put h index v = .ok c') : c'.find? h index v.key = v.normal? := by
  cases moves_put hput with
  | put _ _ _ hindex hlive =>
    obtain ⟨raw, hraw⟩ := Option.isSome_iff_exists.mp hindex
    obtain ⟨e, he⟩ := contains_iff.mp hlive
    have hnative : (c.update h (·.putAt index v)).native h index =
        KeyedList.put NativeAttribute.key (.ofAttribute v) (e.native index) := by
      rw [native_eq, entity?_update, if_pos rfl, he, Option.map_some, Option.map_some,
        Option.getD_some, e.native_putAt hraw, if_pos rfl]
    rw [find?, hnative, ← NativeAttribute.key_ofAttribute, KeyedList.find?_put_self,
      Option.bind_some, NativeAttribute.toAttribute?_ofAttribute_eq]

/-- What is read under a key, be it looked up or picked from the list. -/
structure Reads (c : Context) (h : Handle) (index : Index) (key : Key)
    (found : Option Attribute) : Prop where
  find? : c.find? h index key = found
  filter : (c.attributes h index).filter (fun w => w.key = key) = found.toList

theorem Lawful.reads (hc : c.Lawful) (hfound : c.find? h index key = found) :
    c.Reads h index key found where
  find? := hfound
  filter := by
    have hunique := NativeAttribute.uniqueKeys_toAttribute? (hc.unique h index)
    rw [attributes, KeyedList.filter_key Attribute.key hunique, ← attributes, ← find?_eq, hfound]

/-- An attribute is stored, and nothing but that is reported. -/
def Stores (c : Context) (h : Handle) (index : Index) (v : Attribute) (c' : Context) : Prop :=
  (store.add h index v).run.run c = ⟨.ok (), c', [.storeAdds v h.text index]⟩

theorem stores_iff : c.Stores h index v c' ↔ c.put h index v = .ok c' := by
  cases hput : c.put h index v <;> simp [Stores, store, hput]

namespace Stores

theorem moves (hstores : c.Stores h index v c') : c.Moves (.put h index v) c' :=
  moves_put (stores_iff.mp hstores)

theorem lawful (hstores : c.Stores h index v c') (hc : c.Lawful) : c'.Lawful :=
  hc.step hstores.moves

theorem contains (hstores : c.Stores h index v c') (hc : c.Lawful)
    (hlive : c.contains h = true) : c'.contains h = true := by
  obtain ⟨e, he⟩ := contains_iff.mp hlive
  have hrole : c.role? h = some e.role := congrArg (Option.map Entity.role) he
  exact contains_of_role? (hstores.moves.role? hc.sound.table hrole Move.noConfusion)

/-- The normal form of what was stored is read under its key. -/
theorem reads (hstores : c.Stores h index v c') (hc : c.Lawful) :
    c'.Reads h index v.key v.normal? :=
  (hstores.lawful hc).reads (find?_of_put (stores_iff.mp hstores))

/-- Storing what is found already changes nothing that is listed anywhere. -/
theorem attributes_of_found (hstores : c.Stores h index v c') (hc : c.Lawful)
    (hfound : c.find? h index v.key = some v) (h' : Handle) (index' : Index) :
    c'.attributes h' index' = c.attributes h' index' := by
  have hnative := hstores.moves.native hc.sound.table h' index'
  rw [find?_eq] at hfound
  have hv : v.WellFormed := wellFormed_of_mem_attributes (KeyedList.mem_of_find? _ hfound)
  rw [attributes, hnative, Move.stored]
  split
  · rename_i hplace
    obtain ⟨rfl, rfl⟩ := hplace
    rw [NativeAttribute.filterMap_put hv]
    exact KeyedList.put_eq_self Attribute.key hfound
  · rfl

end Stores

/-- What can be read after an attribute was stored: its normal form, under the
same key. To store that again changes nothing that can be read, and it is the
attribute itself exactly if a checked constructor gives it. -/
structure Normalizes (c : Context) (h : Handle) (index : Index) (v : Attribute) : Prop where
  reads : c.Reads h index v.key v.normal?
  again : ∀ w, v.normal? = some w → w.key = v.key ∧
    ∃ c', c.Stores h index w c' ∧ c'.Reads h index v.key (some w) ∧
      ∀ h' index', c'.attributes h' index' = c.attributes h' index'
  same_iff : c.find? h index v.key = some v ↔
    (∃ kind, Attribute.ofKind kind = .ok v) ∨ (∃ kind n, Attribute.ofPayload kind n = .ok v) ∨
      ∃ name value, Attribute.ofName name value = .ok v

theorem Stores.normalizes (hstores : c.Stores h index v c') (hc : c.Lawful)
    (hlive : c.contains h = true) (hindex : index.raw?.isSome = true) :
    c'.Normalizes h index v := by
  have hreads := hstores.reads hc
  have hlawful := hstores.lawful hc
  refine ⟨hreads, ?_, ?_⟩
  · intro w hw
    have hkey : w.key = v.key := Attribute.key_of_normal? hw
    have hnormal : w.normal? = some w :=
      Attribute.normal?_eq_self_iff.mpr (Attribute.wellFormed_of_normal? hw)
    have hfound : c'.find? h index w.key = some w := by rw [hkey, hreads.find?, hw]
    obtain ⟨c'', hput⟩ := exists_put_of_contains (hstores.contains hc hlive) hindex w
    have hagain : c'.Stores h index w c'' := stores_iff.mpr hput
    have hreads' := hagain.reads hlawful
    rw [hkey, hnormal] at hreads'
    exact ⟨hkey, c'', hagain, hreads', hagain.attributes_of_found hlawful hfound⟩
  · rw [hreads.find?, Attribute.normal?_eq_self_iff, Attribute.wellFormed_iff_built]

end Context

/-- After any run, any attribute at all can be stored for an entity that is there,
at any index that has a number, and it is its normal form that is read from then
on: an integer where the kind takes one, zero if it had none, and no other integer,
while a named attribute stays the same but is never read without a name. -/
theorem Workspace.normalizes_of_run (contexts : Nat) (parameterCounts : List (Option UInt32))
    (activities : List Activity) (k : Nat) {h : Handle} {index : Index}
    (hlive : ((reached contexts parameterCounts activities).contextAt k).contains h = true)
    (hindex : index.raw?.isSome = true) (v : Attribute) :
    ∃ c, ((reached contexts parameterCounts activities).contextAt k).Stores h index v c ∧
      c.Normalizes h index v := by
  obtain ⟨c, hput⟩ := Context.exists_put_of_contains hlive hindex v
  have hlawful := lawful_reached contexts parameterCounts activities k
  have hstores := Context.stores_iff.mpr hput
  exact ⟨c, hstores, hstores.normalizes hlawful hlive hindex⟩

/-- A context with one function. -/
def Workspace.coldFunction : List Activity := [.addFunction 0 "f" 1]

/-- A flag that came with an integer is read without it. -/
theorem Workspace.normalizes_of_run_coldFunction :
    ((reached 1 [] coldFunction).contextAt 0).contains (.issued 0 0) = true ∧
      Index.function.raw?.isSome = true ∧
      ∃ c, ((reached 1 [] coldFunction).contextAt 0).Stores (.issued 0 0) .function
          (.known .cold (some 7)) c ∧
        c.find? (.issued 0 0) .function (.kind .cold) = some (.known .cold none) := by
  have hlive : ((reached 1 [] coldFunction).contextAt 0).contains (.issued 0 0) = true := by decide
  have hindex : Index.function.raw?.isSome = true := by decide
  obtain ⟨c, hstores, hnormal⟩ :=
    normalizes_of_run 1 [] coldFunction 0 hlive hindex (.known .cold (some 7))
  exact ⟨hlive, hindex, c, hstores, hnormal.reads.find?⟩

end IRAttributes
