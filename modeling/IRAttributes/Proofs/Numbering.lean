import IRAttributes.Proofs.Ascending
import IRAttributes.Proofs.Moves

/-!
Indices and their numbers, one for one. Every number belongs to exactly one
index and every index has a number, but for the two greatest positions, and
counting up goes through the indices in their own order. An entity keeps its
attributes by number, so what it keeps at one index it does not keep at another.
-/
namespace IRAttributes

namespace Index

/-- Every number is that of an index: none is left out and none is used twice. -/
theorem raw?_ofRaw (raw : UInt32) : (ofRaw raw).raw? = some raw := by
  by_cases hfunction : raw = rawFunction
  · rw [ofRaw, if_pos hfunction, hfunction]
    rfl
  · by_cases hreturn : raw = 0
    · rw [ofRaw, if_neg hfunction, if_pos hreturn, hreturn]
      rfl
    · rw [ofRaw, if_neg hfunction, if_neg hreturn, raw?_parameter_eq_some_iff]
      -- the number is not 0, so taking one away stays among the numbers
      have hpos : raw.toNat ≠ 0 := fun hzero => hreturn (UInt32.toNat_inj.mp hzero)
      have htop : raw.toNat ≠ 4294967295 := fun heq => hfunction (UInt32.toNat_inj.mp heq)
      have hone : (1 : UInt32) ≤ raw := by
        rw [UInt32.le_iff_toNat_le, UInt32.toNat_one]
        omega
      have hposition : (raw - 1).toNat = raw.toNat - 1 := UInt32.toNat_sub_of_le _ _ hone
      have hbound := raw.toNat_lt
      omega

theorem raw?_eq_some_iff {index : Index} {raw : UInt32} :
    index.raw? = some raw ↔ ofRaw raw = index := by
  constructor
  · exact ofRaw_of_raw?
  · rintro rfl
    exact raw?_ofRaw raw

/-- The position of a parameter is one less than its number, which is never 0. -/
theorem toNat_of_ofRaw {raw position : UInt32} (h : ofRaw raw = .parameter position) :
    raw.toNat = position.toNat + 1 :=
  (raw?_parameter_eq_some_iff.mp (raw?_eq_some_iff.mpr h)).2

theorem raw?_eq_none_iff {index : Index} :
    index.raw? = none ↔ index = .parameter 4294967294 ∨ index = .parameter 4294967295 := by
  cases index with
  | returnValue => simp [raw?]
  | function => simp [raw?]
  | parameter position =>
    have hbound := position.toNat_lt
    have hrefused : (parameter position).raw? = none ↔ 4294967295 ≤ position.toNat + 1 := by
      simp only [raw?, rawFunction, UInt32.toNat_ofNat, ite_eq_right_iff, reduceCtorEq,
        imp_false, Nat.not_lt]
    rw [hrefused]
    simp only [parameter.injEq, ← UInt32.toNat_inj, UInt32.toNat_ofNat]
    omega

/-- The number of an index is its rank, except that the function has the greatest number. -/
theorem rank_cases_of_raw? {index : Index} {raw : UInt32} (h : index.raw? = some raw) :
    (index.rank = raw.toNat ∧ raw.toNat < 4294967295) ∨
      (index.rank = UInt32.size + 1 ∧ raw.toNat = 4294967295) := by
  cases index with
  | returnValue =>
    obtain rfl : 0 = raw := Option.some.inj h
    exact Or.inl ⟨rfl, by decide⟩
  | function =>
    obtain rfl : rawFunction = raw := Option.some.inj h
    exact Or.inr ⟨rfl, rfl⟩
  | parameter position =>
    obtain ⟨hlt, hraw⟩ := raw?_parameter_eq_some_iff.mp h
    exact Or.inl ⟨hraw.symm, hraw ▸ hlt⟩

theorem lt_iff_raw_lt {i j : Index} {r s : UInt32} (hi : i.raw? = some r) (hj : j.raw? = some s) :
    i < j ↔ r < s := by
  rw [lt_iff_rank_lt, UInt32.lt_iff_toNat_lt]
  have hsize : UInt32.size = 4294967296 := rfl
  rcases rank_cases_of_raw? hi with ⟨hri, hr⟩ | ⟨hri, hr⟩ <;>
    rcases rank_cases_of_raw? hj with ⟨hrj, hs⟩ | ⟨hrj, hs⟩ <;> omega

/-- Numbers and indices with a number correspond one to one, in order, and
finding the index of a number never takes one away from 0. No number is left for
the two greatest positions and for nothing else. So two indices with a number
never share the attributes of an entity. -/
theorem numbering_ordered :
    (∀ raw : UInt32, (ofRaw raw).raw? = some raw ∧
        ∀ position, ofRaw raw = .parameter position → raw.toNat = position.toNat + 1) ∧
      (∀ (index : Index) (raw : UInt32), index.raw? = some raw → ofRaw raw = index) ∧
      (∀ index : Index, index.raw? = none ↔
        index = .parameter 4294967294 ∨ index = .parameter 4294967295) ∧
      (∀ (i j : Index) (r s : UInt32), i.raw? = some r → j.raw? = some s → (i < j ↔ r < s)) ∧
      ∀ (e : Entity) (i j : Index) (r s : UInt32), i.raw? = some r → j.raw? = some s → i ≠ j →
        r ≠ s ∧ ∀ attributes, (e.setSlot r attributes).native i = attributes ∧
          (e.setSlot r attributes).native j = e.native j := by
  refine ⟨?_, ?_, ?_, ?_, ?_⟩
  · exact fun raw => ⟨raw?_ofRaw raw, fun _ => toNat_of_ofRaw⟩
  · exact fun _ _ => ofRaw_of_raw?
  · exact fun _ => raw?_eq_none_iff
  · exact fun _ _ _ _ => lt_iff_raw_lt
  · intro e i j r s hi hj hne
    refine ⟨?_, ?_⟩
    · rintro rfl
      exact hne (raw?_injective hi hj)
    · intro attributes
      rw [e.native_setSlot hi, e.native_setSlot hi, if_pos rfl, if_neg hne.symm]
      exact ⟨rfl, rfl⟩

/-- The last position with a number comes right before the function. -/
example : (parameter 4294967293).raw? = some 4294967294 ∧ function.raw? = some 4294967295 := by
  decide

end Index

end IRAttributes
