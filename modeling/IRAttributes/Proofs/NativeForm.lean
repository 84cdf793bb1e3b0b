import IRAttributes.NativeAttribute

/-!
Lists of attributes in native form. Native keys tell attributes apart exactly as
their own keys do, so looking up, putting and erasing commute with taking the
native form. What a checked constructor builds survives the way there and back,
and whatever can be read back is what a checked constructor builds; it is the
normal form of what was kept, and only what has the empty name has none.
-/
namespace IRAttributes

/-- Well-formed attributes are exactly those that a checked constructor gives. -/
theorem Attribute.wellFormed_iff_built (v : Attribute) :
    v.WellFormed ↔ (∃ kind, ofKind kind = .ok v) ∨ (∃ kind n, ofPayload kind n = .ok v) ∨
      ∃ name value, ofName name value = .ok v := by
  constructor
  · intro h
    cases v with
    | known kind payload =>
      cases payload with
      | none =>
        have hkind : kind.takesPayload = false := h.symm
        exact Or.inl ⟨kind, by simp [ofKind, hkind]⟩
      | some n =>
        have hkind : kind.takesPayload = true := h.symm
        exact Or.inr (Or.inl ⟨kind, n, by simp [ofPayload, hkind]⟩)
    | named name value =>
      have hname : name ≠ "" := h
      exact Or.inr (Or.inr ⟨name, value, by simp [ofName, hname]⟩)
  · rintro (⟨kind, h⟩ | ⟨kind, n, h⟩ | ⟨name, value, h⟩)
    · exact wellFormed_of_ofKind h
    · exact wellFormed_of_ofPayload h
    · exact wellFormed_of_ofName h

/-- What can be kept of an attribute: a kind has an integer exactly if it takes
one, and nothing has the empty name. -/
def Attribute.normal? : Attribute → Option Attribute
  | .known kind payload =>
      some (.known kind (if kind.takesPayload then some (payload.getD 0) else none))
  | .named name value => if name = "" then none else some (.named name value)

theorem Attribute.WellFormed.normal?_eq {v : Attribute} (h : v.WellFormed) :
    v.normal? = some v := by
  cases v with
  | known kind payload =>
    have hpayload : payload.isSome = kind.takesPayload := h
    cases payload <;> simp [normal?, ← hpayload]
  | named name value => exact if_neg h

namespace NativeAttribute

theorem key_ofAttribute_eq_iff (v : Attribute) (key : Key) :
    (ofAttribute v).key = key.native ↔ v.key = key := by
  rw [key_ofAttribute]
  exact ⟨Key.native_injective, congrArg Key.native⟩

theorem toAttribute?_known (id : UInt32) (payload : UInt64) :
    (known id payload).toAttribute? = (Kind.ofId? id).map fun kind =>
      .known kind (if kind.takesPayload then some payload else none) := by
  cases hkind : Kind.ofId? id <;>
    simp [toAttribute?, toAttribute, Kind.ofId, hkind, bind, Except.bind, pure, Except.pure,
      Except.toOption]

theorem toAttribute?_named (name value : String) :
    (named name value).toAttribute? = if name = "" then none else some (.named name value) := by
  by_cases hname : name = "" <;>
    simp [toAttribute?, toAttribute, Attribute.ofName, hname, Except.toOption]

/-- The way to the native form and back gives the normal form. -/
theorem toAttribute?_ofAttribute_eq (v : Attribute) : (ofAttribute v).toAttribute? = v.normal? := by
  cases v with
  | known kind payload =>
    rw [ofAttribute, toAttribute?_known, Kind.ofId?_id]
    rfl
  | named name value => exact toAttribute?_named name value

theorem toAttribute?_ofAttribute {v : Attribute} (h : v.WellFormed) :
    (ofAttribute v).toAttribute? = some v :=
  (toAttribute?_ofAttribute_eq v).trans h.normal?_eq

theorem wellFormed_of_toAttribute? {a : NativeAttribute} {v : Attribute}
    (h : a.toAttribute? = some v) : v.WellFormed := by
  cases a with
  | known id payload =>
    rw [toAttribute?_known] at h
    obtain ⟨kind, -, rfl⟩ := Option.map_eq_some_iff.mp h
    cases htakes : kind.takesPayload <;> simp [Attribute.WellFormed, htakes]
  | named name value =>
    rw [toAttribute?_named] at h
    split at h
    · cases h
    · rename_i hname
      obtain rfl := Option.some.inj h
      exact hname

theorem filterMap_toAttribute?_map {vs : List Attribute} (h : ∀ v ∈ vs, v.WellFormed) :
    (vs.map ofAttribute).filterMap toAttribute? = vs := by
  induction vs with
  | nil => rfl
  | cons v rest ih =>
    have hv : (ofAttribute v).toAttribute? = some v :=
      toAttribute?_ofAttribute (h v List.mem_cons_self)
    rw [List.map_cons, List.filterMap_cons_some hv,
      ih fun w hw => h w (List.mem_cons_of_mem v hw)]

theorem put_map_ofAttribute (v : Attribute) (vs : List Attribute) :
    KeyedList.put NativeAttribute.key (ofAttribute v) (vs.map ofAttribute) =
      (KeyedList.put Attribute.key v vs).map ofAttribute := by
  induction vs with
  | nil => rfl
  | cons w rest ih =>
    by_cases hw : w.key = v.key
    · simp [KeyedList.put, key_ofAttribute, hw]
    · have hnative : ¬ w.key.native = v.key.native := fun heq => hw (Key.native_injective heq)
      simp [KeyedList.put, key_ofAttribute, hw, hnative, ih]

theorem erase_map_ofAttribute (key : Key) (vs : List Attribute) :
    KeyedList.erase NativeAttribute.key key.native (vs.map ofAttribute) =
      (KeyedList.erase Attribute.key key vs).map ofAttribute := by
  simp [KeyedList.erase, List.filter_map, Function.comp_def, key_ofAttribute_eq_iff]

/-- What can be read back had the key of what is read. -/
theorem key_of_toAttribute? {a : NativeAttribute} {v : Attribute} (h : a.toAttribute? = some v) :
    a.key = v.key.native := by
  cases a with
  | known id payload =>
    rw [toAttribute?_known] at h
    obtain ⟨kind, hkind, rfl⟩ := Option.map_eq_some_iff.mp h
    exact congrArg NativeKey.id (Kind.id_of_ofId? hkind).symm
  | named name value =>
    rw [toAttribute?_named] at h
    split at h
    · cases h
    · obtain rfl := Option.some.inj h
      rfl

/-- Whatever has another key than the empty name can be read back. -/
theorem exists_toAttribute?_of_key {a : NativeAttribute} {key : Key}
    (hblank : key.isBlank = false) (hkey : a.key = key.native) : ∃ w, a.toAttribute? = some w := by
  cases key with
  | kind kind =>
    cases a with
    | known id n =>
      obtain rfl : id = kind.id := NativeKey.id.inj hkey
      simp [toAttribute?_known, Kind.ofId?_id]
    | named name value => cases hkey
  | name name =>
    cases a with
    | known id n => cases hkey
    | named name' value =>
      obtain rfl : name' = name := NativeKey.name.inj hkey
      have hname : name' ≠ "" := by simpa [Key.isBlank] using hblank
      simp [toAttribute?_named, hname]

/-- What can be read back has a key exactly if what is read has it. -/
theorem key_eq_native_iff {a : NativeAttribute} {v : Attribute} (h : a.toAttribute? = some v)
    (key : Key) : a.key = key.native ↔ v.key = key := by
  rw [key_of_toAttribute? h]
  exact ⟨Key.native_injective, congrArg Key.native⟩

/-- Putting a well-formed attribute is seen in what can be read back, whatever
else there is. -/
theorem filterMap_put {v : Attribute} (hv : v.WellFormed) (attributes : List NativeAttribute) :
    (KeyedList.put NativeAttribute.key (ofAttribute v) attributes).filterMap toAttribute? =
      KeyedList.put Attribute.key v (attributes.filterMap toAttribute?) := by
  have hread := toAttribute?_ofAttribute hv
  induction attributes with
  | nil => simp [KeyedList.put, hread]
  | cons a rest ih =>
    by_cases hkey : a.key = v.key.native
    · obtain ⟨w, hw⟩ := exists_toAttribute?_of_key hv.key_isBlank hkey
      have hsame : w.key = v.key := (key_eq_native_iff hw v.key).mp hkey
      simp [KeyedList.put, key_ofAttribute, hkey, hw, hread, hsame]
    · cases hw : a.toAttribute? with
      | none => simp [KeyedList.put, key_ofAttribute, hkey, hw, ih]
      | some w =>
        have hother : ¬ w.key = v.key := mt (key_eq_native_iff hw v.key).mpr hkey
        simp [KeyedList.put, key_ofAttribute, hkey, hw, hother, ih]

/-- So is erasing a key, unless it is the empty name, since nothing else loses what
cannot be read back. -/
theorem filterMap_erase {key : Key} (hblank : key.isBlank = false)
    (attributes : List NativeAttribute) :
    (KeyedList.erase NativeAttribute.key key.native attributes).filterMap toAttribute? =
      KeyedList.erase Attribute.key key (attributes.filterMap toAttribute?) := by
  unfold KeyedList.erase
  induction attributes with
  | nil => rfl
  | cons a rest ih =>
    cases hread : a.toAttribute? with
    | none =>
      have hother : ¬ a.key = key.native := by
        intro hkey
        obtain ⟨w, hw⟩ := exists_toAttribute?_of_key hblank hkey
        rw [hread] at hw
        cases hw
      simpa [hother, hread] using ih
    | some w =>
      by_cases hkey : w.key = key
      · simpa [hread, hkey, (key_eq_native_iff hread key).mpr hkey] using ih
      · simpa [hread, hkey, mt (key_eq_native_iff hread key).mp hkey] using ih

/-- Nothing that can be read back has the empty name. -/
theorem find?_filterMap_of_isBlank {key : Key} (hblank : key.isBlank = true)
    (attributes : List NativeAttribute) :
    KeyedList.find? Attribute.key key (attributes.filterMap toAttribute?) = none := by
  rw [KeyedList.find?_eq_none_iff]
  rintro v hv rfl
  obtain ⟨a, -, ha⟩ := List.mem_filterMap.mp hv
  rw [(wellFormed_of_toAttribute? ha).key_isBlank] at hblank
  cases hblank

/-- Finding first and reading back then is the same as reading back first. -/
theorem find?_filterMap (key : Key) (attributes : List NativeAttribute) :
    (KeyedList.find? NativeAttribute.key key.native attributes).bind toAttribute? =
      KeyedList.find? Attribute.key key (attributes.filterMap toAttribute?) := by
  induction attributes with
  | nil => rfl
  | cons a rest ih =>
    by_cases hkey : a.key = key.native
    · cases hread : a.toAttribute? with
      | some w =>
        have hsame : w.key = key := (key_eq_native_iff hread key).mp hkey
        simp [KeyedList.find?, hkey, hread, hsame]
      | none =>
        -- the key is the empty name, which nothing in the rest is read under either
        have hblank : key.isBlank = true := by
          refine eq_true_of_ne_false fun hnot => ?_
          obtain ⟨w, hw⟩ := exists_toAttribute?_of_key hnot hkey
          rw [hread] at hw
          cases hw
        simp [KeyedList.find?, hkey, hread, find?_filterMap_of_isBlank hblank]
    · cases hread : a.toAttribute? with
      | none => simp [KeyedList.find?, hkey, hread, ih]
      | some w =>
        have hother : ¬ w.key = key := mt (key_eq_native_iff hread key).mpr hkey
        simp [KeyedList.find?, hkey, hread, hother, ih]

end NativeAttribute

end IRAttributes
