import IRAttributes.Proofs.Union

/-!
The order of changes to a keyed list. Of two elements put under one key the
second one counts, erasing a key again changes nothing, and erasing what was new
restores the list. Under different keys, erasing can be exchanged with erasing
and with putting; two elements that are put may end up in either order, but
lookups do not see that. Uniting a list with the same elements in another order
moves nothing that was in the list before.
-/
namespace IRAttributes.KeyedList

variable {α κ : Type} [DecidableEq κ] {key : α → κ} {a b : α} {l m n : List α}

theorem put_put (h : key a = key b) (l : List α) : put key b (put key a l) = put key b l := by
  induction l with
  | nil => simp [put, h]
  | cons c rest ih =>
    by_cases hc : key c = key b
    · simp [put, h, hc]
    · simp [put, h, hc, ih]

theorem erase_erase_self (k : κ) (l : List α) : erase key k (erase key k l) = erase key k l := by
  simp [erase, List.filter_filter]

theorem erase_comm (j k : κ) (l : List α) :
    erase key j (erase key k l) = erase key k (erase key j l) := by
  simp only [erase, List.filter_filter, Bool.and_comm]

theorem erase_cons (k : κ) (c : α) (rest : List α) :
    erase key k (c :: rest) = if key c = k then erase key k rest else c :: erase key k rest := by
  by_cases hc : key c = k <;> simp [erase, hc]

theorem erase_put_of_ne {k : κ} (h : key a ≠ k) (l : List α) :
    erase key k (put key a l) = put key a (erase key k l) := by
  induction l with
  | nil => simp [put, erase, h]
  | cons c rest ih =>
    by_cases hc : key c = key a
    · have hkept : ¬ key c = k := hc ▸ h
      rw [put, if_pos hc, erase_cons, if_neg h, erase_cons, if_neg hkept, put, if_pos hc]
    · rw [put, if_neg hc, erase_cons, erase_cons, ih]
      by_cases hk : key c = k
      · rw [if_pos hk, if_pos hk]
      · rw [if_neg hk, if_neg hk, put, if_neg hc]

/-- What is new goes to the end. -/
theorem put_of_absent (h : ∀ c ∈ l, key c ≠ key a) : put key a l = l ++ [a] := by
  induction l with
  | nil => rfl
  | cons c rest ih =>
    rw [put, if_neg (h c List.mem_cons_self), ih fun d hd => h d (List.mem_cons_of_mem c hd)]
    rfl

theorem erase_put_of_absent (h : ∀ c ∈ l, key c ≠ key a) : erase key (key a) (put key a l) = l := by
  have hkept : (l.filter fun c => key c ≠ key a) = l := by
    refine List.filter_eq_self.mpr ?_
    intro c hc
    exact decide_eq_true (h c hc)
  rw [put_of_absent h, erase, List.filter_append, hkept]
  simp

/-- Lookups do not see which one of two elements was put first. -/
theorem find?_put_comm (h : key a ≠ key b) (k : κ) (l : List α) :
    find? key k (put key b (put key a l)) = find? key k (put key a (put key b l)) := by
  by_cases hb : key b = k
  · subst hb
    rw [find?_put_self, find?_put_of_ne key a _ h, find?_put_self]
  · rw [find?_put_of_ne key b _ hb]
    by_cases ha : key a = k
    · subst ha
      rw [find?_put_self, find?_put_self]
    · rw [find?_put_of_ne key a _ ha, find?_put_of_ne key a _ ha, find?_put_of_ne key b _ hb]

theorem find?_perm (hperm : m.Perm n) (hm : UniqueKeys key m) (k : κ) :
    find? key k m = find? key k n := by
  have hn : UniqueKeys key n := (hperm.map key).nodup_iff.mp hm
  refine Option.ext ?_
  intro a
  rw [find?_eq_some_iff key hm, find?_eq_some_iff key hn, hperm.mem_iff]

/-- What a list is united with may be reordered, and the elements that were there
stay where they stand. -/
theorem union_perm (hperm : m.Perm n) (hm : UniqueKeys key m) (l : List α) :
    (union key l m).Perm (union key l n) ∧
      (union key l m).take l.length = (union key l n).take l.length := by
  have hrenewed : l.map (renew key m) = l.map (renew key n) := by
    refine List.map_congr_left ?_
    intro a _
    rw [renew, renew, find?_perm hperm hm]
  have htake : ∀ new : List α,
      (l.map (renew key n) ++ new).take l.length = l.map (renew key n) := by
    intro new
    exact List.take_left' (List.length_map _)
  unfold union
  rw [hrenewed]
  exact ⟨(hperm.filter _).append_left _, (htake _).trans (htake _).symm⟩

theorem map_key_prefix_union (l m : List α) : l.map key <+: (union key l m).map key := by
  have hsame : (l.map (renew key m)).map key = l.map key := by
    rw [List.map_map]
    exact List.map_congr_left fun a _ => key_renew key m a
  rw [union, List.map_append, hsame]
  exact List.prefix_append _ _

end IRAttributes.KeyedList
