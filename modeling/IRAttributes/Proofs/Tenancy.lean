import IRAttributes.SlotTable

/-!
Who can be found in a slot table. In a sound table the vacant slots are really
vacant and each is listed once. Then a new tenant disturbs nobody, and a handle
is spent once its slot has gone on to a later generation: it finds nothing, it
stays spent whatever happens to the table, and it is never handed out again.
-/
namespace IRAttributes.SlotTable

variable {α : Type} {t : SlotTable α}

structure Sound (t : SlotTable α) : Prop where
  vacant_empty : ∀ slot ∈ t.vacant, ∃ s, t.slots[slot]? = some s ∧ s.tenant = none
  vacant_nodup : t.vacant.Nodup

/-- The null handle never finds anything; an issued one is spent when its
slot has reached a later generation. -/
def Spent (t : SlotTable α) : Handle → Prop
  | .null => True
  | .issued slot generation => generation < t.generation slot

/-- Handles that have been handed out so far, and the null handle. -/
def Known (t : SlotTable α) (h : Handle) : Prop := t.Spent h ∨ t.contains h = true

theorem get?_issued_eq_some_iff {slot generation : Nat} {a : α} :
    t.get? (.issued slot generation) = some a ↔
      t.slots[slot]? = some ⟨generation, some a⟩ := by
  cases hslot : t.slots[slot]? with
  | none => simp [get?, hslot]
  | some s =>
    obtain ⟨g, tenant⟩ := s
    by_cases hg : g = generation <;> simp [get?, hslot, hg]

theorem contains_iff {h : Handle} : t.contains h = true ↔ ∃ a, t.get? h = some a :=
  Option.isSome_iff_exists

theorem update_of_get? {f : α → α} {slot generation : Nat} {a : α}
    (h : t.get? (.issued slot generation) = some a) :
    t.update f (.issued slot generation) =
      ⟨t.slots.set slot ⟨generation, some (f a)⟩, t.vacant⟩ := by
  simp only [update, h]

theorem remove_of_get? {slot generation : Nat} {a : α}
    (h : t.get? (.issued slot generation) = some a) :
    t.remove (.issued slot generation) =
      ⟨t.slots.set slot ⟨generation + 1, none⟩, slot :: t.vacant⟩ := by
  simp only [remove, h]

theorem update_of_get?_eq_none {f : α → α} {h : Handle} (hget : t.get? h = none) :
    t.update f h = t := by
  cases h with
  | null => rfl
  | issued slot generation => simp only [update, hget]

theorem update_id (t : SlotTable α) (h : Handle) : t.update id h = t := by
  cases hget : t.get? h with
  | none => exact update_of_get?_eq_none hget
  | some a =>
    cases h with
    | null => cases hget
    | issued slot generation =>
      obtain ⟨hlt, hslot⟩ := List.getElem?_eq_some_iff.mp (get?_issued_eq_some_iff.mp hget)
      rw [update_of_get? hget, id_eq, ← hslot, List.set_getElem_self]

theorem update_congr {f g : α → α} {h : Handle} (hsame : ∀ a, t.get? h = some a → f a = g a) :
    t.update f h = t.update g h := by
  cases hget : t.get? h with
  | none => rw [update_of_get?_eq_none hget, update_of_get?_eq_none hget]
  | some a =>
    cases h with
    | null => cases hget
    | issued slot generation => rw [update_of_get? hget, update_of_get? hget, hsame a hget]

theorem size_update (t : SlotTable α) (f : α → α) (h : Handle) : (t.update f h).size = t.size := by
  cases hget : t.get? h with
  | none => rw [update_of_get?_eq_none hget]
  | some a =>
    cases h with
    | null => cases hget
    | issued slot generation =>
      rw [update_of_get? hget]
      exact List.length_set

theorem update_update (t : SlotTable α) (f g : α → α) (h : Handle) :
    (t.update f h).update g h = t.update (fun a => g (f a)) h := by
  cases hget : t.get? h with
  | none => simp only [update_of_get?_eq_none hget]
  | some a =>
    have hget' : (t.update f h).get? h = some (f a) := by
      rw [get?_update_self, hget, Option.map_some]
    cases h with
    | null => cases hget
    | issued slot generation =>
      rw [update_of_get? hget', update_of_get? hget, update_of_get? hget, List.set_set]

theorem remove_of_get?_eq_none {h : Handle} (hget : t.get? h = none) : t.remove h = t := by
  cases h with
  | null => rfl
  | issued slot generation => simp only [remove, hget]

theorem insert_of_full (h : t.vacant = []) (a : α) :
    t.insert a = ⟨t.slots ++ [⟨0, some a⟩], []⟩ ∧ t.nextHandle = .issued t.slots.length 0 := by
  simp only [insert, nextHandle, h, and_self]

theorem insert_of_vacant {slot : Nat} {rest : List Nat} (h : t.vacant = slot :: rest) (a : α) :
    t.insert a = ⟨t.slots.set slot ⟨t.generation slot, some a⟩, rest⟩ ∧
      t.nextHandle = .issued slot (t.generation slot) := by
  simp only [insert, nextHandle, h, and_self]

/-- Another handle of a slot finds nothing, neither before nor after the slot is rewritten. -/
private theorem get?_set_of_ne {slot generation : Nat} {a : α} {s : Slot α} {vacant : List Nat}
    {h : Handle} (hget : t.get? (.issued slot generation) = some a)
    (hs : s.generation = generation ∨ s.tenant = none) (hne : h ≠ .issued slot generation) :
    (⟨t.slots.set slot s, vacant⟩ : SlotTable α).get? h = t.get? h := by
  have hslot := get?_issued_eq_some_iff.mp hget
  cases h with
  | null => rfl
  | issued slot' generation' =>
    by_cases heq : slot' = slot
    · subst slot'
      have hgen : generation ≠ generation' := by
        intro hg
        exact hne (by rw [hg])
      simp only [get?, List.getElem?_set_self (slot_lt_of_get? hget), hslot, Option.bind_some,
        if_neg hgen]
      rcases hs with hs | hs
      · rw [hs, if_neg hgen]
      · rw [hs, ite_self]
    · simp [get?, Ne.symm heq]

theorem get?_update_of_ne (f : α → α) {h h' : Handle} (hne : h' ≠ h) :
    (t.update f h).get? h' = t.get? h' := by
  cases hget : t.get? h with
  | none => rw [update_of_get?_eq_none hget]
  | some a =>
    cases h with
    | null => cases hget
    | issued slot generation =>
      rw [update_of_get? hget]
      exact get?_set_of_ne hget (Or.inl rfl) hne

theorem get?_remove_of_ne {h h' : Handle} (hne : h' ≠ h) :
    (t.remove h).get? h' = t.get? h' := by
  cases hget : t.get? h with
  | none => rw [remove_of_get?_eq_none hget]
  | some a =>
    cases h with
    | null => cases hget
    | issued slot generation =>
      rw [remove_of_get? hget]
      exact get?_set_of_ne hget (Or.inr rfl) hne

theorem Sound.get?_nextHandle (ht : t.Sound) : t.get? t.nextHandle = none := by
  unfold nextHandle
  split
  · simp [get?]
  · rename_i slot rest hvacant
    obtain ⟨s, hs, hempty⟩ := ht.vacant_empty slot (by simp [hvacant])
    simp [get?, hs, hempty]

theorem Sound.get?_insert_nextHandle (ht : t.Sound) (a : α) :
    (t.insert a).get? t.nextHandle = some a := by
  cases hvacant : t.vacant with
  | nil =>
    obtain ⟨hinsert, hnext⟩ := insert_of_full hvacant a
    rw [hinsert, hnext]
    simp [get?]
  | cons slot rest =>
    obtain ⟨hinsert, hnext⟩ := insert_of_vacant hvacant a
    obtain ⟨s, hs, -⟩ := ht.vacant_empty slot (by simp [hvacant])
    rw [hinsert, hnext]
    simp [get?, (List.getElem?_eq_some_iff.mp hs).1]

/-- A newcomer disturbs nobody. -/
theorem Sound.get?_insert_of_ne (ht : t.Sound) (a : α) {h : Handle} (hne : h ≠ t.nextHandle) :
    (t.insert a).get? h = t.get? h := by
  cases h with
  | null => rfl
  | issued slot generation =>
    cases hvacant : t.vacant with
    | nil =>
      obtain ⟨hinsert, hnext⟩ := insert_of_full hvacant a
      rw [hinsert]
      rcases Nat.lt_trichotomy slot t.slots.length with hlt | heq | hgt
      · simp [get?, List.getElem?_append_left hlt]
      · have hgen : ¬ 0 = generation := by
          intro hg
          exact hne (by rw [hnext, heq, hg])
        simp [get?, heq, hgen]
      · have hout : (t.slots ++ [(⟨0, some a⟩ : Slot α)]).length ≤ slot := by
          rw [List.length_append, List.length_singleton]
          omega
        simp only [get?, List.getElem?_eq_none hout, List.getElem?_eq_none (Nat.le_of_lt hgt)]
    | cons reused rest =>
      obtain ⟨hinsert, hnext⟩ := insert_of_vacant hvacant a
      obtain ⟨s, hs, hempty⟩ := ht.vacant_empty reused (by simp [hvacant])
      rw [hinsert]
      by_cases heq : slot = reused
      · subst slot
        have hgen : ¬ t.generation reused = generation := by
          intro hg
          exact hne (by rw [hnext, hg])
        have hlt := (List.getElem?_eq_some_iff.mp hs).1
        simp only [get?, List.getElem?_set_self hlt, hs, Option.bind_some, if_neg hgen, hempty,
          ite_self]
      · simp [get?, Ne.symm heq]

theorem sound_empty : (empty : SlotTable α).Sound := ⟨by simp [empty], by simp [empty]⟩

/-- Rewriting a slot that is not vacant leaves the vacant ones as they are. -/
private theorem Sound.vacant_set (ht : t.Sound) {slot : Nat} {s : Slot α}
    (hslot : slot ∉ t.vacant) : ∀ v ∈ t.vacant,
      ∃ u, (t.slots.set slot s)[v]? = some u ∧ u.tenant = none := by
  intro v hv
  have hne : slot ≠ v := fun heq => hslot (heq ▸ hv)
  rw [List.getElem?_set_ne hne]
  exact ht.vacant_empty v hv

/-- A slot with a tenant is not vacant. -/
theorem Sound.notMem_vacant (ht : t.Sound) {slot generation : Nat} {a : α}
    (h : t.get? (.issued slot generation) = some a) : slot ∉ t.vacant := by
  intro hv
  obtain ⟨s, hs, hempty⟩ := ht.vacant_empty slot hv
  rw [get?_issued_eq_some_iff.mp h] at hs
  cases hs
  cases hempty

theorem Sound.update (ht : t.Sound) (f : α → α) (h : Handle) : (t.update f h).Sound := by
  cases hget : t.get? h with
  | none => rwa [update_of_get?_eq_none hget]
  | some a =>
    cases h with
    | null => cases hget
    | issued slot generation =>
      rw [update_of_get? hget]
      exact ⟨ht.vacant_set (ht.notMem_vacant hget), ht.vacant_nodup⟩

theorem Sound.remove (ht : t.Sound) (h : Handle) : (t.remove h).Sound := by
  cases hget : t.get? h with
  | none => rwa [remove_of_get?_eq_none hget]
  | some a =>
    cases h with
    | null => cases hget
    | issued slot generation =>
      -- the slot joins the vacant ones, so it must not be among them already
      have hout := ht.notMem_vacant hget
      rw [remove_of_get? hget]
      refine ⟨?_, List.nodup_cons.mpr ⟨hout, ht.vacant_nodup⟩⟩
      intro v hv
      rcases List.mem_cons.mp hv with rfl | hv
      · exact ⟨_, List.getElem?_set_self (slot_lt_of_get? hget), rfl⟩
      · exact ht.vacant_set hout v hv

theorem Sound.insert (ht : t.Sound) (a : α) : (t.insert a).Sound := by
  cases hvacant : t.vacant with
  | nil =>
    rw [(insert_of_full hvacant a).1]
    exact ⟨by simp, List.nodup_nil⟩
  | cons slot rest =>
    have hnodup := ht.vacant_nodup
    rw [hvacant, List.nodup_cons] at hnodup
    rw [(insert_of_vacant hvacant a).1]
    refine ⟨?_, hnodup.2⟩
    intro v hv
    have hne : slot ≠ v := fun heq => hnodup.1 (heq ▸ hv)
    rw [List.getElem?_set_ne hne]
    exact ht.vacant_empty v (by simp [hvacant, hv])

/-- Rewriting a slot with a generation that is no earlier takes no slot back. -/
private theorem generation_le_set {slot : Nat} {s : Slot α} {vacant : List Nat}
    (hs : t.generation slot ≤ s.generation) (slot' : Nat) :
    t.generation slot' ≤ (⟨t.slots.set slot s, vacant⟩ : SlotTable α).generation slot' := by
  by_cases heq : slot = slot'
  · subst slot'
    by_cases hlt : slot < t.slots.length
    · simpa [generation, hlt] using hs
    · simp [generation, hlt]
  · simp [generation, heq]

theorem generation_of_get? {slot generation : Nat} {a : α}
    (h : t.get? (.issued slot generation) = some a) : t.generation slot = generation := by
  simp [SlotTable.generation, get?_issued_eq_some_iff.mp h]

theorem Spent.get?_eq_none {h : Handle} (hspent : t.Spent h) : t.get? h = none := by
  cases h with
  | null => rfl
  | issued slot generation =>
    cases hget : t.get? (.issued slot generation) with
    | none => rfl
    | some a =>
      have hgen := generation_of_get? hget
      exact absurd hspent (by simp only [Spent, hgen]; omega)

theorem Spent.mono {t' : SlotTable α} {h : Handle} (hspent : t.Spent h)
    (hle : ∀ slot, t.generation slot ≤ t'.generation slot) : t'.Spent h := by
  cases h with
  | null => trivial
  | issued slot generation => exact Nat.lt_of_lt_of_le hspent (hle slot)

theorem Spent.update {h : Handle} (hspent : t.Spent h) (f : α → α) (h' : Handle) :
    (t.update f h').Spent h := by
  cases hget : t.get? h' with
  | none => rwa [update_of_get?_eq_none hget]
  | some a =>
    cases h' with
    | null => cases hget
    | issued slot generation =>
      rw [update_of_get? hget]
      exact hspent.mono (generation_le_set (Nat.le_of_eq (generation_of_get? hget)))

theorem Spent.remove {h : Handle} (hspent : t.Spent h) (h' : Handle) :
    (t.remove h').Spent h := by
  cases hget : t.get? h' with
  | none => rwa [remove_of_get?_eq_none hget]
  | some a =>
    cases h' with
    | null => cases hget
    | issued slot generation =>
      have hle : t.generation slot ≤ generation + 1 := by
        rw [generation_of_get? hget]
        omega
      rw [remove_of_get? hget]
      exact hspent.mono (generation_le_set hle)

theorem Spent.insert {h : Handle} (hspent : t.Spent h) (a : α) : (t.insert a).Spent h := by
  cases hvacant : t.vacant with
  | nil =>
    rw [(insert_of_full hvacant a).1]
    refine hspent.mono ?_
    intro slot
    by_cases hlt : slot < t.slots.length
    · simp [generation, List.getElem?_append_left hlt]
    · simp [generation, hlt]
  | cons slot rest =>
    rw [(insert_of_vacant hvacant a).1]
    exact hspent.mono (generation_le_set (Nat.le_refl _))

/-- Removing a tenant spends its handle. -/
theorem spent_remove_self {h : Handle} (hlive : t.contains h = true) : (t.remove h).Spent h := by
  obtain ⟨a, hget⟩ := contains_iff.mp hlive
  cases h with
  | null => cases hget
  | issued slot generation =>
    rw [remove_of_get? hget]
    simp [Spent, SlotTable.generation, slot_lt_of_get? hget]

/-- The next tenant gets a handle that was never handed out before. -/
theorem Sound.not_known_nextHandle (ht : t.Sound) : ¬ t.Known t.nextHandle := by
  rintro (hspent | hlive)
  · cases hvacant : t.vacant with
    | nil => simp [nextHandle, hvacant, Spent, generation] at hspent
    | cons slot rest => simp [nextHandle, hvacant, Spent] at hspent
  · obtain ⟨a, hget⟩ := contains_iff.mp hlive
    rw [ht.get?_nextHandle] at hget
    cases hget

theorem Known.update {h : Handle} (hknown : t.Known h) (f : α → α) (h' : Handle) :
    (t.update f h').Known h := by
  rcases hknown with hspent | hlive
  · exact Or.inl (hspent.update f h')
  · obtain ⟨a, hget⟩ := contains_iff.mp hlive
    refine Or.inr (contains_iff.mpr ?_)
    by_cases heq : h = h'
    · subst h'
      exact ⟨f a, by rw [get?_update_self, hget, Option.map_some]⟩
    · exact ⟨a, by rw [get?_update_of_ne f heq, hget]⟩

theorem Known.remove {h : Handle} (hknown : t.Known h) (h' : Handle) :
    (t.remove h').Known h := by
  rcases hknown with hspent | hlive
  · exact Or.inl (hspent.remove h')
  · by_cases heq : h = h'
    · subst h'
      exact Or.inl (spent_remove_self hlive)
    · obtain ⟨a, hget⟩ := contains_iff.mp hlive
      exact Or.inr (contains_iff.mpr ⟨a, by rw [get?_remove_of_ne heq, hget]⟩)

theorem Known.insert (ht : t.Sound) {h : Handle} (hknown : t.Known h) (a : α) :
    (t.insert a).Known h := by
  have hne : h ≠ t.nextHandle := fun heq => ht.not_known_nextHandle (heq ▸ hknown)
  rcases hknown with hspent | hlive
  · exact Or.inl (hspent.insert a)
  · obtain ⟨b, hget⟩ := contains_iff.mp hlive
    exact Or.inr (contains_iff.mpr ⟨b, by rw [ht.get?_insert_of_ne a hne, hget]⟩)

theorem Sound.known_insert_nextHandle (ht : t.Sound) (a : α) :
    (t.insert a).Known t.nextHandle :=
  Or.inr (contains_iff.mpr ⟨a, ht.get?_insert_nextHandle a⟩)

end IRAttributes.SlotTable
