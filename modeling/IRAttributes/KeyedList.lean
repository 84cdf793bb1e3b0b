/-!
Lists in which every element has a key. Looking up takes the first element
with a key, putting replaces that element where it stands or else appends, and
erasing drops every element with the key. A list without repeated keys keeps
that property, and lookups of one key do not see what happens under another.
-/
namespace IRAttributes.KeyedList

variable {α κ : Type} [DecidableEq κ] (key : α → κ)

def find? (k : κ) : List α → Option α
  | [] => none
  | a :: rest => if key a = k then some a else find? k rest

def put (a : α) : List α → List α
  | [] => [a]
  | b :: rest => if key b = key a then a :: rest else b :: put a rest

def erase (k : κ) (l : List α) : List α := l.filter fun a => key a ≠ k

def UniqueKeys (l : List α) : Prop := (l.map key).Nodup

theorem find?_put_self (a : α) (l : List α) : find? key (key a) (put key a l) = some a := by
  induction l with
  | nil => simp [put, find?]
  | cons b rest ih =>
    by_cases h : key b = key a <;> simp [put, find?, h, ih]

theorem find?_put_of_ne (a : α) {k : κ} (l : List α) (h : key a ≠ k) :
    find? key k (put key a l) = find? key k l := by
  induction l with
  | nil => simp [put, find?, h]
  | cons b rest ih =>
    by_cases hb : key b = key a
    · simp [put, find?, hb, h]
    · simp [put, find?, hb, ih]

theorem find?_erase_self (k : κ) (l : List α) : find? key k (erase key k l) = none := by
  induction l with
  | nil => rfl
  | cons b rest ih =>
    by_cases hb : key b = k <;> simp_all [erase, find?]

theorem find?_erase_of_ne {j k : κ} (l : List α) (h : j ≠ k) :
    find? key k (erase key j l) = find? key k l := by
  induction l with
  | nil => rfl
  | cons b rest ih =>
    by_cases hb : key b = j
    · have hk : key b ≠ k := fun heq => h (hb.symm.trans heq)
      simp_all [erase, find?]
    · simp_all [erase, find?]

theorem mem_of_find? {k : κ} {a : α} {l : List α} (h : find? key k l = some a) : a ∈ l := by
  induction l with
  | nil => cases h
  | cons b rest ih =>
    by_cases hb : key b = k
    · rw [find?, if_pos hb] at h
      obtain rfl := Option.some.inj h
      exact List.mem_cons_self
    · rw [find?, if_neg hb] at h
      exact List.mem_cons_of_mem b (ih h)

theorem key_of_find? {k : κ} {a : α} {l : List α} (h : find? key k l = some a) :
    key a = k := by
  induction l with
  | nil => cases h
  | cons b rest ih =>
    by_cases hb : key b = k
    · rw [find?, if_pos hb] at h
      obtain rfl := Option.some.inj h
      exact hb
    · rw [find?, if_neg hb] at h
      exact ih h

theorem isSome_find?_iff {k : κ} {l : List α} :
    (find? key k l).isSome = true ↔ ∃ a ∈ l, key a = k := by
  induction l with
  | nil => simp [find?]
  | cons b rest ih =>
    by_cases hb : key b = k <;> simp [find?, hb, ih]

theorem find?_eq_none_iff {key : α → κ} {k : κ} {l : List α} :
    find? key k l = none ↔ ∀ a ∈ l, key a ≠ k := by
  rw [← Option.not_isSome_iff_eq_none, isSome_find?_iff]
  simp only [not_exists, not_and, ne_eq]

theorem mem_put {a b : α} {l : List α} (h : b ∈ put key a l) : b = a ∨ b ∈ l := by
  induction l with
  | nil => exact Or.inl (List.mem_singleton.mp h)
  | cons c rest ih =>
    by_cases hc : key c = key a
    · rw [put, if_pos hc] at h
      exact (List.mem_cons.mp h).imp_right (List.mem_cons_of_mem c)
    · rw [put, if_neg hc] at h
      rcases List.mem_cons.mp h with rfl | hmem
      · exact Or.inr List.mem_cons_self
      · exact (ih hmem).imp_right (List.mem_cons_of_mem c)

theorem key_mem_put {k : κ} (a : α) (l : List α) :
    k ∈ (put key a l).map key ↔ k = key a ∨ k ∈ l.map key := by
  induction l with
  | nil => simp [put]
  | cons b rest ih =>
    by_cases hb : key b = key a
    · simp [put, hb]
    · simp only [put, hb, if_false, List.map_cons, List.mem_cons, ih]
      constructor
      · rintro (h | h | h)
        · exact Or.inr (Or.inl h)
        · exact Or.inl h
        · exact Or.inr (Or.inr h)
      · rintro (h | h | h)
        · exact Or.inr (Or.inl h)
        · exact Or.inl h
        · exact Or.inr (Or.inr h)

theorem uniqueKeys_put (a : α) (l : List α) (h : UniqueKeys key l) :
    UniqueKeys key (put key a l) := by
  induction l with
  | nil => simp [put, UniqueKeys]
  | cons b rest ih =>
    unfold UniqueKeys at h ih ⊢
    simp only [List.map_cons, List.nodup_cons] at h
    by_cases hb : key b = key a
    · simp only [put, hb, if_true, List.map_cons, List.nodup_cons]
      exact hb ▸ h
    · simp only [put, hb, if_false, List.map_cons, List.nodup_cons, key_mem_put, not_or]
      exact ⟨⟨not_false, h.1⟩, ih h.2⟩

theorem uniqueKeys_erase (k : κ) (l : List α) (h : UniqueKeys key l) :
    UniqueKeys key (erase key k l) :=
  List.Nodup.sublist (List.Sublist.map key List.filter_sublist) h

theorem find?_eq_some_iff {k : κ} {a : α} {l : List α} (h : UniqueKeys key l) :
    find? key k l = some a ↔ a ∈ l ∧ key a = k := by
  induction l with
  | nil => simp [find?]
  | cons b rest ih =>
    unfold UniqueKeys at h ih
    simp only [List.map_cons, List.nodup_cons, List.mem_map, not_exists, not_and] at h
    by_cases hb : key b = k
    · simp only [find?, hb, if_true, Option.some.injEq, List.mem_cons]
      constructor
      · rintro rfl
        exact ⟨Or.inl rfl, hb⟩
      · rintro ⟨rfl | hmem, hk⟩
        · rfl
        · exact absurd (hk.trans hb.symm) (h.1 a hmem)
    · simp only [find?, hb, if_false, ih h.2, List.mem_cons]
      constructor
      · rintro ⟨hmem, hk⟩
        exact ⟨Or.inr hmem, hk⟩
      · rintro ⟨rfl | hmem, hk⟩
        · exact absurd hk hb
        · exact ⟨hmem, hk⟩

/-- Where keys are unique, a lookup finds all there is under a key. -/
theorem filter_key {l : List α} (h : UniqueKeys key l) (k : κ) :
    (l.filter fun a => key a = k) = (find? key k l).toList := by
  induction l with
  | nil => rfl
  | cons b rest ih =>
    obtain ⟨hfirst, hrest⟩ := List.nodup_cons.mp h
    by_cases hkey : key b = k
    · have hothers : (rest.filter fun a => key a = k) = [] := by
        rw [List.filter_eq_nil_iff]
        intro a ha
        rw [decide_eq_true_eq]
        exact fun hsame => hfirst ((hkey.trans hsame.symm) ▸ List.mem_map_of_mem ha)
      simp [find?, hkey, hothers]
    · simp [find?, hkey, ih hrest]

/-- Putting what is there already changes nothing. -/
theorem put_eq_self {a : α} {l : List α} (h : find? key (key a) l = some a) :
    put key a l = l := by
  induction l with
  | nil => cases h
  | cons b rest ih =>
    by_cases hkey : key b = key a
    · rw [find?, if_pos hkey] at h
      obtain rfl := Option.some.inj h
      rw [put, if_pos rfl]
    · rw [find?, if_neg hkey] at h
      rw [put, if_neg hkey, ih h]

end IRAttributes.KeyedList
