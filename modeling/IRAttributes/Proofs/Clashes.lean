import IRAttributes.Proofs.Spelling

/-!
Attributes that are spelled alike. Kinds and integers can be told from their
spelling, and so can names and values as long as no name has a quotation mark in
it. But quotation marks are written as they are, so a name may go on with just
what is written behind another name. Two attributes have the same spelling
exactly if they are the same or one of them clashes with the other in this way,
and whatever has a value clashes with some attribute that has none.
-/
namespace IRAttributes

theorem Spelling.value_injective {s s' : String} (h : value s = value s') : s = s' := by
  unfold value at h
  split at h <;> split at h
  · rename_i hempty hempty'
    exact hempty.trans hempty'.symm
  · cases h
  · cases h
  · have hchars : s.toList ++ ['"'] = s'.toList ++ ['"'] := by simpa using h
    exact String.toList_inj.mp (List.append_cancel_right hchars)

namespace Attribute

open Spelling

/-- The second name is the first one, a quotation mark, and a part of what is
written behind it; another quotation mark and the second value come next. -/
def Clashes : Attribute → Attribute → Prop
  | named name s, named name' s' =>
      ∃ part, name'.toList = name.toList ++ '"' :: part ∧ value s = part ++ '"' :: value s'
  | _, _ => False

/-- Whatever is there of a name, there is no quotation mark in it. -/
def PlainName (v : Attribute) : Prop := ∀ name ∈ v.name?, '"' ∉ name.toList

variable {v w : Attribute}

theorem Clashes.not_plainName (h : v.Clashes w) : ¬ w.PlainName := by
  cases v with
  | known kind n => exact h.elim
  | named name s =>
    cases w with
    | known kind n => exact h.elim
    | named name' s' =>
      obtain ⟨part, hname, -⟩ := h
      intro hplain
      refine hplain name' rfl ?_
      rw [hname]
      exact List.mem_append_right _ List.mem_cons_self

theorem Clashes.text_eq (h : v.Clashes w) : v.text = w.text := by
  cases v with
  | known kind n => exact h.elim
  | named name s =>
    cases w with
    | known kind n => exact h.elim
    | named name' s' =>
      obtain ⟨part, hname, hvalue⟩ := h
      apply String.toList_inj.mp
      rw [toList_text_named, toList_text_named, hname, hvalue, List.append_assoc,
        List.cons_append]

/-- If the longer of two names does not end where the shorter one does, it clashes. -/
private theorem named_of_append {name name' s s' : String} {part : List Char}
    (hname : name'.toList = name.toList ++ part)
    (hrest : '"' :: value s = part ++ '"' :: value s') :
    named name s = named name' s' ∨ (named name s).Clashes (named name' s') := by
  cases part with
  | nil =>
    rw [List.append_nil] at hname
    obtain rfl : name = name' := String.toList_inj.mp hname.symm
    obtain rfl : s = s' := value_injective (List.tail_eq_of_cons_eq hrest)
    exact Or.inl rfl
  | cons c part =>
    obtain rfl : '"' = c := List.head_eq_of_cons_eq hrest
    exact Or.inr ⟨part, hname, List.tail_eq_of_cons_eq hrest⟩

theorem eq_or_clashes_of_text_eq (h : v.text = w.text) :
    v = w ∨ v.Clashes w ∨ w.Clashes v := by
  have hchars := congrArg String.toList h
  cases v with
  | known kind n =>
    cases w with
    | known kind' n' =>
      have hquoteFree : ∀ kind n, (known kind n).QuoteFree := fun _ _ => trivial
      exact Or.inl (text_append_inj (hquoteFree kind n) (hquoteFree kind' n') .nothing .nothing
        (congrArg (· ++ []) hchars)).1
    | named name s => exact absurd (congrArg (· ++ []) hchars) (text_known_ne_named kind n name s)
  | named name s =>
    cases w with
    | known kind n =>
      exact absurd (congrArg (· ++ []) hchars.symm) (text_known_ne_named kind n name s)
    | named name' s' =>
      rw [toList_text_named, toList_text_named] at hchars
      -- one name begins with the other, whichever quotation marks they have
      rcases List.append_eq_append_iff.mp (List.tail_eq_of_cons_eq hchars) with
        ⟨part, hname, hrest⟩ | ⟨part, hname, hrest⟩
      · exact (named_of_append hname hrest).imp_right Or.inl
      · exact (named_of_append hname hrest).imp Eq.symm Or.inr

theorem clashes_flag (name : String) {s : String} (hs : s ≠ "") :
    (named name s).Clashes (named (name ++ "\"=\"" ++ s) "") := by
  refine ⟨'=' :: '"' :: s.toList, by simp, ?_⟩
  simp [value, hs]

/-- Two attributes are spelled alike exactly if they are the same or clash, which
takes a name with a quotation mark in it; so among all attributes with plain names
each has a spelling of its own. With such names there is a clash for every name
and every value. -/
theorem spelled_alike_iff (v w : Attribute) :
    (v.text = w.text ↔ v = w ∨ v.Clashes w ∨ w.Clashes v) ∧
      (v.PlainName → w.PlainName → (v.text = w.text ↔ v = w)) ∧
      ∀ name s : String, s ≠ "" → (named name s).Clashes (named (name ++ "\"=\"" ++ s) "") := by
  have halike : v.text = w.text ↔ v = w ∨ v.Clashes w ∨ w.Clashes v := by
    refine ⟨eq_or_clashes_of_text_eq, ?_⟩
    rintro (rfl | hclash | hclash)
    · rfl
    · exact hclash.text_eq
    · exact hclash.text_eq.symm
  refine ⟨halike, ?_, fun name s => clashes_flag name⟩
  intro hv hw
  rw [halike]
  refine or_iff_left ?_
  rintro (hclash | hclash)
  · exact hclash.not_plainName hw
  · exact hclash.not_plainName hv

/-- A name with a value, and a name that looks like both, are what the checked
constructor builds and are spelled alike. -/
theorem not_spelled_apart_quotedName :
    ofName "a" "b" = .ok (named "a" "b") ∧ ofName "a\"=\"b" "" = .ok (named "a\"=\"b" "") ∧
      (named "a" "b").text = (named "a\"=\"b" "").text ∧
      named "a" "b" ≠ named "a\"=\"b" "" :=
  ⟨rfl, rfl, by decide, by decide⟩

end Attribute

end IRAttributes
