import IRAttributes.KeyedList

/-!
Uniting two keyed lists. The elements of the first list stay where they stand,
each in the version of the second list if that has its key, and the elements of
the second list with other keys follow in their order. Putting the elements of a
list without repeated keys one after the other comes to the same. Uniting is
associative, the empty list is neutral, and a list without repeated keys united
with itself stays as it is.
-/
namespace IRAttributes.KeyedList

variable {α κ : Type} [DecidableEq κ] (key : α → κ)

/-- A list after some elements were put, one after the other. -/
def putAll (as l : List α) : List α := as.foldl (fun l a => put key a l) l

/-- The element of a list that has the key of `a`, and `a` itself if there is none. -/
def renew (m : List α) (a : α) : α := (find? key (key a) m).getD a

def union (l m : List α) : List α :=
  l.map (renew key m) ++ m.filter fun b => (find? key (key b) l).isNone

theorem key_renew (m : List α) (a : α) : key (renew key m a) = key a := by
  unfold renew
  cases hfound : find? key (key a) m with
  | none => rfl
  | some b => exact key_of_find? key hfound

theorem find?_append (k : κ) (l m : List α) :
    find? key k (l ++ m) = (find? key k l).or (find? key k m) := by
  induction l with
  | nil => rfl
  | cons a rest ih =>
    by_cases ha : key a = k
    · simp [find?, ha]
    · simp [find?, ha, ih]

theorem find?_map_renew (k : κ) (l m : List α) :
    find? key k (l.map (renew key m)) = (find? key k l).map (renew key m) := by
  induction l with
  | nil => rfl
  | cons a rest ih =>
    by_cases ha : key a = k
    · simp [find?, key_renew, ha]
    · simp [find?, key_renew, ha, ih]

/-- Elements are kept or dropped by their keys. -/
theorem find?_filter (p : κ → Bool) (k : κ) (l : List α) :
    find? key k (l.filter fun a => p (key a)) = if p k then find? key k l else none := by
  induction l with
  | nil => simp [find?]
  | cons a rest ih =>
    by_cases ha : key a = k
    · cases hp : p k with
      | true => simp [find?, ha, hp]
      | false => simpa [ha, hp] using ih
    · cases hp : p (key a) with
      | true => simp [find?, ha, hp, ih]
      | false => simp [find?, ha, hp, ih]

/-- The second list decides wherever it has the key. -/
theorem find?_union (k : κ) (l m : List α) :
    find? key k (union key l m) = (find? key k m).or (find? key k l) := by
  rw [union, find?_append, find?_map_renew,
    find?_filter key (fun j => (find? key j l).isNone) k m]
  cases hl : find? key k l with
  | none => simp
  | some a =>
    have hkey := key_of_find? key hl
    cases hm : find? key k m with
    | none => simp [renew, hkey, hm]
    | some b => simp [renew, hkey, hm]

theorem union_nil (l : List α) : union key l [] = l := by
  have hid : renew key ([] : List α) = id := rfl
  simp [union, hid]

theorem nil_union (m : List α) : union key [] m = m := by
  simp [union, find?]

theorem renew_union (m n : List α) (a : α) :
    renew key (union key m n) a = renew key n (renew key m a) := by
  have hkey := key_renew key m a
  simp only [renew] at hkey ⊢
  rw [find?_union, hkey]
  cases find? key (key a) n with
  | none => simp
  | some b => simp

theorem union_assoc (l m n : List α) :
    union key (union key l m) n = union key l (union key m n) := by
  have hfirst : l.map (renew key n ∘ renew key m) = l.map (renew key (union key m n)) := by
    refine List.map_congr_left ?_
    intro a _
    exact (renew_union key m n a).symm
  have hsecond : (m.filter fun b => (find? key (key b) l).isNone).map (renew key n) =
      (m.map (renew key n)).filter fun b => (find? key (key b) l).isNone := by
    rw [List.filter_map]
    simp only [Function.comp_def, key_renew]
  have hthird : (n.filter fun b => (find? key (key b) (union key l m)).isNone) =
      (n.filter fun b => (find? key (key b) m).isNone).filter
        fun b => (find? key (key b) l).isNone := by
    rw [List.filter_filter]
    refine List.filter_congr ?_
    intro b _
    rw [find?_union]
    cases find? key (key b) m <;> cases find? key (key b) l <;> rfl
  calc
    _ = l.map (renew key n ∘ renew key m) ++
          ((m.filter fun b => (find? key (key b) l).isNone).map (renew key n) ++
            n.filter fun b => (find? key (key b) (union key l m)).isNone) := by
      rw [union, union, List.map_append, List.map_map, List.append_assoc]
    _ = _ := by
      rw [hfirst, hsecond, hthird, ← List.filter_append]
      rfl

variable {key}

theorem renew_self {l : List α} (h : UniqueKeys key l) {a : α} (ha : a ∈ l) :
    renew key l a = a := by
  rw [renew, (find?_eq_some_iff key h).mpr ⟨ha, rfl⟩, Option.getD_some]

theorem union_self {l : List α} (h : UniqueKeys key l) : union key l l = l := by
  have hsame : l.map (renew key l) = l := by
    rw [List.map_congr_left fun a ha => renew_self h ha, List.map_id']
  have hnone : (l.filter fun b => (find? key (key b) l).isNone) = [] := by
    refine List.filter_eq_nil_iff.mpr ?_
    intro a ha
    rw [(find?_eq_some_iff key h).mpr ⟨ha, rfl⟩]
    exact Bool.false_ne_true
  rw [union, hsame, hnone, List.append_nil]

/-- Nothing changes in elements that have other keys. -/
theorem map_renew_of_ne {l : List α} {b : α} (h : ∀ a ∈ l, key a ≠ key b) :
    l.map (renew key [b]) = l := by
  have hsame : ∀ a ∈ l, renew key [b] a = a := by
    intro a ha
    have hne : ¬ key b = key a := fun heq => h a ha heq.symm
    simp [renew, find?, hne]
  rw [List.map_congr_left hsame, List.map_id']

theorem put_eq_union (b : α) {l : List α} (h : UniqueKeys key l) :
    put key b l = union key l [b] := by
  induction l with
  | nil => exact (nil_union key [b]).symm
  | cons a rest ih =>
    unfold UniqueKeys at h ih
    simp only [List.map_cons, List.nodup_cons, List.mem_map, not_exists, not_and] at h
    by_cases ha : key a = key b
    · have hrest : rest.map (renew key [b]) = rest :=
        map_renew_of_ne fun c hc heq => h.1 c hc (heq.trans ha.symm)
      have hhead : renew key [b] a = b := by simp [renew, find?, ha]
      simp [put, union, find?, ha, hrest, hhead]
    · have hne : ¬ key b = key a := fun heq => ha heq.symm
      have hhead : renew key [b] a = a := by simp [renew, find?, hne]
      have hrest : ([b].filter fun c => (find? key (key c) (a :: rest)).isNone) =
          [b].filter fun c => (find? key (key c) rest).isNone := by
        refine List.filter_congr ?_
        intro c hc
        obtain rfl := List.mem_singleton.mp hc
        rw [find?, if_neg ha]
      rw [put, if_neg ha, ih h.2, union, union, List.map_cons, hhead, hrest, List.cons_append]

theorem cons_eq_union {b : α} {m : List α} (h : ∀ a ∈ m, key a ≠ key b) :
    b :: m = union key [b] m := by
  have hhead : renew key m b = b := by
    rw [renew, find?_eq_none_iff.mpr h, Option.getD_none]
  have hrest : (m.filter fun a => (find? key (key a) [b]).isNone) = m := by
    refine List.filter_eq_self.mpr ?_
    intro a ha
    have hne : ¬ key b = key a := fun heq => h a ha heq.symm
    simp [find?, hne]
  rw [union, List.map_singleton, hhead, hrest, List.singleton_append]

theorem putAll_eq_union {l m : List α} (hl : UniqueKeys key l) (hm : UniqueKeys key m) :
    putAll key m l = union key l m := by
  induction m generalizing l with
  | nil => exact (union_nil key l).symm
  | cons b rest ih =>
    unfold UniqueKeys at hm
    simp only [List.map_cons, List.nodup_cons, List.mem_map, not_exists, not_and] at hm
    calc
      putAll key (b :: rest) l = union key (put key b l) rest := ih (uniqueKeys_put key b l hl) hm.2
      _ = union key (union key l [b]) rest := by rw [put_eq_union b hl]
      _ = union key l (union key [b] rest) := union_assoc key l [b] rest
      _ = union key l (b :: rest) := by rw [← cons_eq_union hm.1]

end IRAttributes.KeyedList
