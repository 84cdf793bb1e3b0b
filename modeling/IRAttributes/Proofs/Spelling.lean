import IRAttributes.OwnedCollection

/-!
What a text tells. The spellings of some attributes are put one after the other
with single spaces in between, although a space also stands in the spelling of
an alignment and may stand in any name or value. As long as names and values
have no quotation marks in them, there is only one way to read such a text: a
word of a kind ends where its letters end, a number where its digits end, and
whatever is quoted at the next quotation mark; and no attribute begins with a
digit, so a space before a digit belongs to an alignment. From the front on,
one attribute after the other is thereby determined.
-/
namespace IRAttributes

namespace Spelling

/-- The characters of which kinds are spelled. -/
def isLetter (c : Char) : Bool := c.isLower || c == '_'

theorem isDigit_eq_false {c : Char} (hc : isLetter c = true) : c.isDigit = false := by
  rcases (Bool.or_eq_true_iff).mp hc with hlower | hline
  · have hrange : (decide ('a'.val ≤ c.val) && decide (c.val ≤ 'z'.val)) = true := hlower
    simp only [Char.isDigit]
    grind
  · rw [beq_iff_eq.mp hline]
    rfl

/-- Nothing is left, or it goes on with a character of another class. -/
def Stops (p : Char → Bool) (rest : List Char) : Prop := ∀ c ∈ rest.head?, p c = false

theorem stops_nil (p : Char → Bool) : Stops p [] := fun _ hc => by cases hc

theorem stops_cons {p : Char → Bool} {c : Char} (hc : p c = false) (rest : List Char) :
    Stops p (c :: rest) := by
  rintro _ ⟨⟩
  exact hc

theorem takeWhile_append {p : Char → Bool} {word rest : List Char}
    (hword : ∀ c ∈ word, p c = true) (hrest : Stops p rest) :
    (word ++ rest).takeWhile p = word := by
  have hnone : rest.takeWhile p = [] := by
    cases rest with
    | nil => rfl
    | cons c rest => exact List.takeWhile_cons_of_neg (by simp [hrest c rfl])
  rw [List.takeWhile_append_of_pos hword, hnone, List.append_nil]

/-- Where a word of one class ends can be seen from what comes next. -/
theorem append_inj {p : Char → Bool} {word word' rest rest' : List Char}
    (hword : ∀ c ∈ word, p c = true) (hword' : ∀ c ∈ word', p c = true)
    (hrest : Stops p rest) (hrest' : Stops p rest') (h : word ++ rest = word' ++ rest') :
    word = word' ∧ rest = rest' := by
  obtain rfl : word = word' := by
    calc
      word = (word ++ rest).takeWhile p := (takeWhile_append hword hrest).symm
      _ = (word' ++ rest').takeWhile p := congrArg (List.takeWhile p) h
      _ = word' := takeWhile_append hword' hrest'
  exact ⟨rfl, List.append_cancel_left h⟩

/-- Two quotations without quotation marks in them end at the same place. -/
theorem quotation_inj {word word' rest rest' : List Char} (hword : '"' ∉ word)
    (hword' : '"' ∉ word') (h : word ++ '"' :: rest = word' ++ '"' :: rest') :
    word = word' ∧ rest = rest' := by
  have hplain : ∀ {word : List Char}, '"' ∉ word → ∀ c ∈ word, (c != '"') = true := by
    intro word hword c hc
    rw [bne_iff_ne]
    rintro rfl
    exact hword hc
  obtain ⟨hsame, htail⟩ := append_inj (hplain hword) (hplain hword') (stops_cons rfl rest)
    (stops_cons rfl rest') h
  exact ⟨hsame, List.tail_eq_of_cons_eq htail⟩

def digits (n : UInt64) : List Char := Nat.toDigits 10 n.toNat

theorem isDigit_of_mem_digits {n : UInt64} {c : Char} (hc : c ∈ digits n) : c.isDigit = true :=
  Nat.isDigit_of_mem_toDigits (by decide) (by decide) hc

theorem digits_injective {m n : UInt64} (h : digits m = digits n) : m = n := by
  have hread : ∀ n : UInt64, Nat.ofDigitChars 10 (digits n) 0 = n.toNat :=
    fun _ => Nat.ofDigitChars_ten_toDigits
  apply UInt64.toNat_inj.mp
  rw [← hread m, h, hread n]

/-- What may come after an attribute: nothing, or a space and then no digit. -/
inductive Ends : List Char → Prop
  | nothing : Ends []
  | space {c : Char} (hc : c.isDigit = false) (rest : List Char) : Ends (' ' :: c :: rest)

variable {r r' : List Char}

theorem Ends.stops (h : Ends r) {p : Char → Bool} (hp : p ' ' = false) : Stops p r := by
  cases h with
  | nothing => exact stops_nil p
  | space hc rest => exact stops_cons hp _

/-- After a space that ends an attribute there is no number. -/
theorem Ends.ne_digits (h : Ends r) (n : UInt64) (rest : List Char) :
    r ≠ ' ' :: (digits n ++ rest) := by
  rintro rfl
  cases hdigits : digits n with
  | nil => exact Nat.toDigits_ne_nil hdigits
  | cons d ds =>
    have hdigit : d.isDigit = true := isDigit_of_mem_digits (hdigits ▸ List.mem_cons_self)
    rw [hdigits] at h
    cases h with
    | space hc _ =>
      rw [hdigit] at hc
      cases hc

theorem Ends.ne_cons (h : Ends r) {c : Char} (hc : c ≠ ' ') (rest : List Char) :
    r ≠ c :: rest := by
  rintro rfl
  cases h with
  | space _ _ => exact hc rfl

/-- How the integer of a kind is written behind the kind. -/
def payload (kind : Kind) : Option UInt64 → List Char
  | none => []
  | some n => if kind = .alignment then ' ' :: digits n else '(' :: (digits n ++ [')'])

theorem stops_payload (kind : Kind) (n : Option UInt64) (hr : Ends r) :
    Stops isLetter (payload kind n ++ r) := by
  cases n with
  | none => exact hr.stops rfl
  | some n =>
    rw [payload]
    split
    · exact stops_cons rfl _
    · exact stops_cons rfl _

/-- No integer is read where there is none. -/
theorem payload_ne (kind : Kind) (n : UInt64) (hr : Ends r) (r' : List Char) :
    r ≠ payload kind (some n) ++ r' := by
  rw [payload]
  split
  · exact hr.ne_digits n r'
  · exact hr.ne_cons (by decide) _

theorem payload_inj {kind : Kind} {n n' : Option UInt64} (hr : Ends r) (hr' : Ends r')
    (h : payload kind n ++ r = payload kind n' ++ r') : n = n' ∧ r = r' := by
  cases n with
  | none =>
    cases n' with
    | none => exact ⟨rfl, h⟩
    | some n' => exact absurd h (payload_ne kind n' hr r')
  | some n =>
    cases n' with
    | none => exact absurd h.symm (payload_ne kind n hr' r)
    | some n' =>
      have hdigits : ∀ n : UInt64, ∀ c ∈ digits n, c.isDigit = true :=
        fun _ _ => isDigit_of_mem_digits
      simp only [payload] at h
      split at h
      · obtain ⟨hsame, hrest⟩ := append_inj (hdigits n) (hdigits n') (hr.stops rfl)
          (hr'.stops rfl) (List.tail_eq_of_cons_eq h)
        exact ⟨congrArg some (digits_injective hsame), hrest⟩
      · have htail : digits n ++ ')' :: r = digits n' ++ ')' :: r' := by simpa using h
        obtain ⟨hsame, hrest⟩ := append_inj (hdigits n) (hdigits n') (stops_cons rfl r)
          (stops_cons rfl r') htail
        exact ⟨congrArg some (digits_injective hsame), List.tail_eq_of_cons_eq hrest⟩

/-- How a value is written behind the name. -/
def value (s : String) : List Char := if s = "" then [] else '=' :: '"' :: (s.toList ++ ['"'])

theorem value_inj {s s' : String} (hs : '"' ∉ s.toList) (hs' : '"' ∉ s'.toList) (hr : Ends r)
    (hr' : Ends r') (h : value s ++ r = value s' ++ r') : s = s' ∧ r = r' := by
  unfold value at h
  split at h <;> split at h
  · rename_i hempty hempty'
    exact ⟨hempty.trans hempty'.symm, h⟩
  · exact absurd h (hr.ne_cons (by decide) _)
  · exact absurd h.symm (hr'.ne_cons (by decide) _)
  · have htail : s.toList ++ '"' :: r = s'.toList ++ '"' :: r' := by simpa using h
    obtain ⟨hsame, hrest⟩ := quotation_inj hs hs' htail
    exact ⟨String.toList_inj.mp hsame, hrest⟩

end Spelling

namespace Kind

theorem ofSpelling?_spelling (k : Kind) : ofSpelling? k.spelling = some k := by
  have hall : ∀ k ∈ all, ofSpelling? k.spelling = some k := by decide +kernel
  exact hall k (mem_all k)

theorem spelling_injective {j k : Kind} (h : j.spelling = k.spelling) : j = k := by
  have hj := ofSpelling?_spelling j
  rw [h, ofSpelling?_spelling k] at hj
  exact (Option.some.inj hj).symm

theorem isLetter_of_mem_spelling (k : Kind) :
    ∀ c ∈ k.spelling.toList, Spelling.isLetter c = true := by
  have hall : ∀ k ∈ all, k.spelling.toList.all Spelling.isLetter = true := by decide +kernel
  exact List.all_eq_true.mp (hall k (mem_all k))

theorem exists_spelling_eq_cons (k : Kind) :
    ∃ c rest, k.spelling.toList = c :: rest ∧ Spelling.isLetter c = true := by
  have hall : ∀ k ∈ all, k.spelling.toList ≠ [] := by decide +kernel
  obtain ⟨c, rest, hcons⟩ := List.exists_cons_of_ne_nil (hall k (mem_all k))
  exact ⟨c, rest, hcons, k.isLetter_of_mem_spelling c (hcons ▸ List.mem_cons_self)⟩

end Kind

namespace Attribute

open Spelling

/-- No quotation mark stands in the name or in the value. -/
def QuoteFree : Attribute → Prop
  | known _ _ => True
  | named name value => '"' ∉ name.toList ∧ '"' ∉ value.toList

instance : (v : Attribute) → Decidable v.QuoteFree
  | known _ _ => isTrue trivial
  | named name value => inferInstanceAs (Decidable ('"' ∉ name.toList ∧ '"' ∉ value.toList))

theorem toList_text_known (kind : Kind) (n : Option UInt64) :
    (known kind n).text.toList = kind.spelling.toList ++ payload kind n := by
  cases n with
  | none => simp [text, payload]
  | some n =>
    have hdigits : (toString n).toList = digits n := Nat.toList_repr
    by_cases hkind : kind = .alignment
    · subst hkind
      have htext : (known .alignment (some n)).text =
          Kind.alignment.spelling ++ (" " ++ toString n) := rfl
      simp [htext, payload, hdigits]
    · have htext : (known kind (some n)).text =
          kind.spelling ++ "(" ++ toString n ++ ")" := by
        rw [text]
        · rfl
        · exact hkind
      simp [htext, payload, hdigits, hkind]

theorem toList_text_named (name s : String) :
    (named name s).text.toList = '"' :: (name.toList ++ '"' :: value s) := by
  have htext : (named name s).text =
      if s.isEmpty then "\"" ++ name ++ "\"" else "\"" ++ name ++ "\"=\"" ++ s ++ "\"" := rfl
  by_cases hempty : s = ""
  · rw [htext]
    simp [value, hempty]
  · rw [htext]
    simp [value, hempty]

variable {r r' : List Char}

/-- An attribute begins with the letter of a kind or with a quotation mark. -/
theorem exists_text_eq_cons (v : Attribute) :
    ∃ c rest, v.text.toList = c :: rest ∧ c.isDigit = false := by
  cases v with
  | known kind n =>
    obtain ⟨c, rest, hcons, hletter⟩ := kind.exists_spelling_eq_cons
    refine ⟨c, rest ++ payload kind n, ?_, isDigit_eq_false hletter⟩
    rw [toList_text_known, hcons, List.cons_append]
  | named name s => exact ⟨'"', _, toList_text_named name s, rfl⟩

/-- A kind is never read as a name. -/
theorem text_known_ne_named (kind : Kind) (n : Option UInt64) (name s : String) :
    (known kind n).text.toList ++ r ≠ (named name s).text.toList ++ r' := by
  obtain ⟨c, rest, hcons, hletter⟩ := kind.exists_spelling_eq_cons
  rw [toList_text_known, toList_text_named, hcons]
  intro h
  obtain rfl : c = '"' := List.head_eq_of_cons_eq h
  cases hletter

/-- The first attribute of a text and what comes after it are determined. -/
theorem text_append_inj {v w : Attribute} (hv : v.QuoteFree) (hw : w.QuoteFree) (hr : Ends r)
    (hr' : Ends r') (h : v.text.toList ++ r = w.text.toList ++ r') : v = w ∧ r = r' := by
  cases v with
  | known kind n =>
    cases w with
    | known kind' n' =>
      -- the letters of the kinds end first, and then the integers do
      rw [toList_text_known, toList_text_known, List.append_assoc, List.append_assoc] at h
      obtain ⟨hspelling, hrest⟩ := append_inj kind.isLetter_of_mem_spelling
        kind'.isLetter_of_mem_spelling (stops_payload kind n hr) (stops_payload kind' n' hr') h
      obtain rfl : kind = kind' := Kind.spelling_injective (String.toList_inj.mp hspelling)
      obtain ⟨rfl, hsame⟩ := payload_inj hr hr' hrest
      exact ⟨rfl, hsame⟩
    | named name s => exact absurd h (text_known_ne_named kind n name s)
  | named name s =>
    cases w with
    | known kind n => exact absurd h.symm (text_known_ne_named kind n name s)
    | named name' s' =>
      simp only [toList_text_named, List.cons_append, List.append_assoc] at h
      obtain ⟨hname, hrest⟩ := quotation_inj hv.1 hw.1 (List.tail_eq_of_cons_eq h)
      obtain ⟨rfl, hsame⟩ := value_inj hv.2 hw.2 hr hr' hrest
      obtain rfl : name = name' := String.toList_inj.mp hname
      exact ⟨rfl, hsame⟩

/-- What comes after an attribute in the text of a list. -/
def remainder : List Attribute → List Char
  | [] => []
  | v :: rest => ' ' :: (textOfList (v :: rest)).toList

theorem toList_textOfList_cons (v : Attribute) (rest : List Attribute) :
    (textOfList (v :: rest)).toList = v.text.toList ++ remainder rest := by
  cases rest with
  | nil => simp [textOfList, remainder]
  | cons w rest => simp [textOfList, remainder]

theorem ends_remainder (vs : List Attribute) : Ends (remainder vs) := by
  cases vs with
  | nil => exact .nothing
  | cons v rest =>
    obtain ⟨c, chars, hcons, hc⟩ := v.exists_text_eq_cons
    rw [remainder, toList_textOfList_cons, hcons]
    exact .space hc _

theorem textOfList_cons_ne_nil (v : Attribute) (rest : List Attribute) :
    textOfList (v :: rest) ≠ textOfList [] := by
  intro h
  have hchars := congrArg String.toList h
  obtain ⟨c, chars, hcons, -⟩ := v.exists_text_eq_cons
  rw [toList_textOfList_cons, hcons] at hchars
  cases hchars

theorem textOfList_inj {vs ws : List Attribute} (hvs : ∀ v ∈ vs, v.QuoteFree)
    (hws : ∀ w ∈ ws, w.QuoteFree) (h : textOfList vs = textOfList ws) : vs = ws := by
  induction vs generalizing ws with
  | nil =>
    cases ws with
    | nil => rfl
    | cons w ws => exact absurd h.symm (textOfList_cons_ne_nil w ws)
  | cons v vs ih =>
    cases ws with
    | nil => exact absurd h (textOfList_cons_ne_nil v vs)
    | cons w ws =>
      -- the first attributes are the same, and so is the text that is left
      rw [List.forall_mem_cons] at hvs hws
      have hchars := congrArg String.toList h
      rw [toList_textOfList_cons, toList_textOfList_cons] at hchars
      obtain ⟨rfl, hrest⟩ :=
        text_append_inj hvs.1 hws.1 (ends_remainder vs) (ends_remainder ws) hchars
      cases vs with
      | nil =>
        cases ws with
        | nil => rfl
        | cons w' ws => cases hrest
      | cons v' vs =>
        cases ws with
        | nil => cases hrest
        | cons w' ws =>
          have htext := String.toList_inj.mp (List.tail_eq_of_cons_eq hrest)
          rw [ih hvs.2 hws.2 htext]

/-- A text without quotation marks in names and values belongs to one list of
attributes only, whatever they are; so any two collections, wherever they are
kept, have the same text exactly if they list the same attributes in the same order. -/
theorem text_determines_list {vs ws : List Attribute} (hvs : ∀ v ∈ vs, v.QuoteFree)
    (hws : ∀ w ∈ ws, w.QuoteFree) :
    (textOfList vs = textOfList ws ↔ vs = ws) ∧
      ∀ {σ τ : Type} (c : Collection σ) (d : Collection τ) (s : σ) (t : τ),
        c.attributes.peek s = vs → d.attributes.peek t = ws →
          (c.text.peek s = d.text.peek t ↔ vs = ws) := by
  have hlists : textOfList vs = textOfList ws ↔ vs = ws :=
    ⟨textOfList_inj hvs hws, congrArg textOfList⟩
  refine ⟨hlists, ?_⟩
  rintro σ τ c d s t rfl rfl
  exact hlists

/-- An alignment, and a name that looks like one. -/
def aligned : OwnedCollection :=
  ⟨.parameter 0, [.known .alignment (some 16), .named "align 8" "=(8)"]⟩

/-- The same with the alignment torn apart. -/
def torn : OwnedCollection :=
  ⟨.returnValue, [.known .alignment none, .named "16" "", .named "align 8" "=(8)"]⟩

theorem text_determines_list_torn :
    (∀ v ∈ aligned.attributes, v.QuoteFree) ∧ (∀ v ∈ torn.attributes, v.QuoteFree) ∧
      OwnedCollection.collection.text.peek aligned ≠ OwnedCollection.collection.text.peek torn ∧
      textOfList aligned.attributes ≠ textOfList torn.attributes := by
  have haligned : ∀ v ∈ aligned.attributes, v.QuoteFree := by decide
  have htorn : ∀ v ∈ torn.attributes, v.QuoteFree := by decide
  have hdiffer : aligned.attributes ≠ torn.attributes := by decide
  obtain ⟨hlists, hcollections⟩ := text_determines_list haligned htorn
  refine ⟨haligned, htorn, ?_, mt hlists.mp hdiffer⟩
  exact mt (hcollections OwnedCollection.collection OwnedCollection.collection _ _ rfl rfl).mp
    hdiffer

end Attribute
end IRAttributes
