import IRAttributes.Index

/-!
The numbers under which a store keeps its indices. Taking the number of an
index and going back gives the index, so no two indices share a number.
-/
namespace IRAttributes.Index

theorem raw?_parameter_eq_some_iff {position raw : UInt32} :
    (parameter position).raw? = some raw ↔
      position.toNat + 1 < 4294967295 ∧ raw.toNat = position.toNat + 1 := by
  have hsum : position.toNat + 1 < 4294967295 → (position + 1).toNat = position.toNat + 1 := by
    intro hlt
    rw [UInt32.toNat_add, UInt32.toNat_one, Nat.mod_eq_of_lt (by omega)]
  have hfunction : rawFunction.toNat = 4294967295 := rfl
  simp only [raw?, hfunction, Option.ite_none_right_eq_some, Option.some.injEq]
  constructor
  · rintro ⟨hlt, rfl⟩
    exact ⟨hlt, hsum hlt⟩
  · rintro ⟨hlt, hraw⟩
    exact ⟨hlt, UInt32.toNat_inj.mp ((hsum hlt).trans hraw.symm)⟩

theorem ofRaw_of_raw? {index : Index} {raw : UInt32} (h : index.raw? = some raw) :
    ofRaw raw = index := by
  cases index with
  | returnValue =>
    obtain rfl : 0 = raw := Option.some.inj h
    rfl
  | function =>
    obtain rfl : rawFunction = raw := Option.some.inj h
    rfl
  | parameter position =>
    obtain ⟨hlt, hraw⟩ := raw?_parameter_eq_some_iff.mp h
    have hfunction : raw ≠ rawFunction := by
      rintro rfl
      exact absurd hraw (by simp only [rawFunction, UInt32.toNat_ofNat]; omega)
    have hreturn : raw ≠ 0 := by
      rintro rfl
      exact absurd hraw (by rw [UInt32.toNat_zero]; omega)
    have hposition : raw - 1 = position := by
      apply UInt32.toNat_inj.mp
      have hone : (1 : UInt32) ≤ raw := by
        rw [UInt32.le_iff_toNat_le, UInt32.toNat_one]
        omega
      rw [UInt32.toNat_sub_of_le _ _ hone, UInt32.toNat_one]
      omega
    simp [ofRaw, hfunction, hreturn, hposition]

theorem raw?_injective {i j : Index} {raw : UInt32} (hi : i.raw? = some raw)
    (hj : j.raw? = some raw) : i = j :=
  (ofRaw_of_raw? hi).symm.trans (ofRaw_of_raw? hj)

end IRAttributes.Index
