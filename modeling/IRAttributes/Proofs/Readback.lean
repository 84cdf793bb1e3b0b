import IRAttributes.Json.Form
import Mathlib.Logic.Function.Basic
import Mathlib.Tactic.IntervalCases

/-!
Reading back what was written. A text that is written for a tree is spelled in
tokens, and the tokens are those of the tree; both are shown for the parts of a
text first and then for an object around them, so that nothing depends on where
in a text a part stands. Decoding then gives back the very index or attribute
that was encoded, whether or not a checked constructor could have made it.
-/
namespace IRAttributes

theorem Kind.ofTag?_tag (k : Kind) : ofTag? k.tag = some k := by
  have hall : ∀ k ∈ all, ofTag? k.tag = some k := by decide +kernel
  exact hall k (mem_all k)

namespace Json

/-- A piece that stands for a character by itself. -/
def Piece.IsFor (c : Char) (p : Piece) : Prop :=
  p = .char c ∨ (p = .unit c.toNat ∧ c < ' ')

theorem Piece.IsFor.assemble_cons {c : Char} {p : Piece} (hp : p.IsFor c) (rest : List Piece) :
    assemble none (p :: rest) = (assemble none rest).map (c :: ·) := by
  rcases hp with rfl | ⟨rfl, hc⟩
  · rfl
  · -- a control character lies below both halves of a pair
    have hlt : c.toNat < 32 := hc
    have hfirst : isFirstHalf c.toNat = false := by simp [isFirstHalf]; omega
    have hsecond : isSecondHalf c.toNat = false := by simp [isSecondHalf]; omega
    simp only [assemble, hfirst, hsecond, Bool.false_eq_true, if_false, Char.ofNat_toNat]

/-- How a number without a sign stands when all of its digits have been read. -/
def Numeral.ofNat (n : Nat) : Numeral := if n = 0 then .zero false else .whole false n

theorem Numeral.token?_ofNat (n : Nat) : (ofNat n).token? = some (.natural n) := by
  unfold ofNat
  split
  · rename_i hn
    rw [hn]
    rfl
  · rfl

theorem Numeral.extend_ofNat {n d : Nat} (hn : 0 < n) (hd : d < 10) :
    (ofNat n).extend (Nat.digitChar d) = some (ofNat (10 * n + d)) := by
  have hdigit : digit? (Nat.digitChar d) = some d := by interval_cases d <;> rfl
  have hn' : n ≠ 0 := by omega
  have hsum : 10 * n + d ≠ 0 := by omega
  simp only [ofNat, hn', hsum, if_false, extend, hdigit]

namespace Reader

/-- The reader after some more characters. -/
def after (r : Reader) (cs : List Char) : Option Reader := cs.foldlM step r

theorem after_append (r : Reader) (cs ds : List Char) :
    r.after (cs ++ ds) = (r.after cs).bind (·.after ds) := List.foldlM_append

theorem after_cons (r : Reader) (c : Char) (cs : List Char) :
    r.after (c :: cs) = (r.step c).bind (·.after cs) := rfl

theorem step_unit (ts : List Token) (pieces : List Piece) (u digits : Nat) {d : Nat} (hd : d < 16) :
    step ⟨ts, .unit pieces u digits⟩ (Hex.digit d) =
      if digits = 3 then some ⟨ts, .text (.unit (16 * u + d) :: pieces)⟩
      else some ⟨ts, .unit pieces (16 * u + d) (digits + 1)⟩ := by
  simp only [step, Hex.digit?_digit d hd, Option.map_some]
  split <;> rfl

/-- An escaped character is one more piece of the text. -/
theorem after_escape (ts : List Token) (pieces : List Piece) (c : Char) :
    ∃ p : Piece, p.IsFor c ∧
      after ⟨ts, .text pieces⟩ (escape c) = some ⟨ts, .text (p :: pieces)⟩ := by
  unfold escape
  split
  case h_8 hquote hbackslash _ _ _ _ _ =>
    split
    · rename_i hcontrol
      have hlt : c.toNat < 32 := hcontrol
      have hunit : after ⟨ts, .text pieces⟩ ['\\', 'u', '0', '0', Hex.digit (c.toNat / 16),
          Hex.digit (c.toNat % 16)] =
            after ⟨ts, .unit pieces 0 2⟩ [Hex.digit (c.toNat / 16), Hex.digit (c.toNat % 16)] :=
        rfl
      have hvalue : 16 * (16 * 0 + c.toNat / 16) + c.toNat % 16 = c.toNat := by omega
      refine ⟨.unit c.toNat, Or.inr ⟨rfl, hcontrol⟩, ?_⟩
      rw [hunit, after_cons, step_unit ts pieces 0 2 (by omega), if_neg (by decide),
        Option.bind_some, after_cons, step_unit ts pieces _ 3 (by omega), if_pos rfl, hvalue]
      rfl
    · rename_i hplain
      refine ⟨.char c, Or.inl rfl, ?_⟩
      have hstep : step ⟨ts, .text pieces⟩ c = some ⟨ts, .text (.char c :: pieces)⟩ := by
        simp only [step, if_neg hquote, if_neg hbackslash, if_neg hplain]
      rw [after_cons, hstep]
      rfl
  all_goals exact ⟨_, Or.inl rfl, rfl⟩

theorem after_flatMap_escape (ts : List Token) (pieces : List Piece) (cs : List Char) :
    ∃ added : List Piece, Piece.assemble none added = some cs ∧
      after ⟨ts, .text pieces⟩ (cs.flatMap escape) =
        some ⟨ts, .text (added.reverse ++ pieces)⟩ := by
  induction cs generalizing pieces with
  | nil => exact ⟨[], rfl, rfl⟩
  | cons c rest ih =>
    obtain ⟨p, hp, hfirst⟩ := after_escape ts pieces c
    obtain ⟨added, hadded, hrest⟩ := ih (p :: pieces)
    refine ⟨p :: added, ?_, ?_⟩
    · rw [hp.assemble_cons, hadded, Option.map_some]
    · rw [List.flatMap_cons, after_append, hfirst, Option.bind_some, hrest, List.reverse_cons,
        List.append_assoc, List.singleton_append]

theorem after_quoted (ts : List Token) (s : String) :
    after ⟨ts, .blank⟩ (quoted s).toList = some ⟨.text (some s) :: ts, .blank⟩ := by
  obtain ⟨added, hadded, htext⟩ := after_flatMap_escape ts [] s.toList
  have hchars : (quoted s).toList = '"' :: (s.toList.flatMap escape ++ ['"']) := by
    simp only [quoted, String.toList_append, String.toList_ofList]
    rfl
  have hopened : step ⟨ts, .blank⟩ '"' = some ⟨ts, .text []⟩ := rfl
  have hclosed : step ⟨ts, .text (added.reverse ++ [])⟩ '"' =
      some ⟨.text (some s) :: ts, .blank⟩ := by
    simp only [step, if_true, List.append_nil, List.reverse_reverse, hadded, Option.map_some,
      String.ofList_toList]
  rw [hchars, after_cons, hopened, Option.bind_some, after_append, htext, Option.bind_some,
    after_cons, hclosed]
  rfl

theorem after_toDigits (ts : List Token) (n : Nat) :
    after ⟨ts, .blank⟩ (Nat.toDigits 10 n) = some ⟨ts, .number (.ofNat n)⟩ := by
  induction n using Nat.strongRecOn with
  | ind n ih =>
    by_cases hn : n < 10
    · rw [Nat.toDigits_of_lt_base hn]
      interval_cases n <;> rfl
    · have hpos : 0 < n / 10 := by omega
      have hdigit : n % 10 < 10 := by omega
      have hvalue : 10 * (n / 10) + n % 10 = n := by omega
      have hstep : step ⟨ts, .number (.ofNat (n / 10))⟩ (Nat.digitChar (n % 10)) =
          some ⟨ts, .number (.ofNat n)⟩ := by
        simp only [step, Numeral.extend_ofNat hpos hdigit, hvalue]
      rw [Nat.toDigits_eq_if (by decide), if_neg hn, after_append, ih (n / 10) (by omega),
        Option.bind_some, after_cons, hstep]
      rfl

/-- Everything that was read is complete: a mark that separates parts begins the
next token, and the text may as well end. -/
structure Between (r : Reader) (ts : List Token) : Prop where
  step : ∀ c, c = ',' ∨ c = '}' → r.step c = start ts c
  finish : r.finish = some ts.reverse

theorem between_blank (ts : List Token) : Between ⟨ts, .blank⟩ ts where
  step _ _ := rfl
  finish := rfl

theorem between_number (ts : List Token) (n : Nat) :
    Between ⟨ts, .number (.ofNat n)⟩ (.natural n :: ts) where
  step := by
    intro c hc
    have hlonger : (Numeral.ofNat n).extend c = none := by
      unfold Numeral.ofNat
      rcases hc with rfl | rfl <;> split <;> rfl
    simp only [Reader.step, hlonger, Numeral.token?_ofNat, Option.bind_some]
  finish := by simp only [Reader.finish, Numeral.token?_ofNat, Option.map_some]

end Reader

/-- The tokens that some characters are read as, wherever they stand. -/
def Spells (cs : List Char) (new : List Token) : Prop :=
  ∀ ts, ∃ r, Reader.after ⟨ts, .blank⟩ cs = some r ∧ r.Between (new.reverse ++ ts)

theorem spells_quoted (s : String) : Spells (quoted s).toList [.text (some s)] :=
  fun ts => ⟨_, Reader.after_quoted ts s, Reader.between_blank _⟩

theorem spells_null : Spells "null".toList [.null] := fun _ => ⟨_, rfl, Reader.between_blank _⟩

theorem spells_natural (n : Nat) : Spells (toString n).toList [.natural n] := by
  intro ts
  refine ⟨_, ?_, Reader.between_number ts n⟩
  rw [Nat.toString_eq_repr, Nat.toList_repr]
  exact Reader.after_toDigits ts n

section Spells

variable {cs ds : List Char} {new more : List Token}

theorem Spells.tokens (h : Spells cs new) : tokens cs = some new := by
  obtain ⟨r, hr, hbetween⟩ := h []
  have hread : cs.foldlM Reader.step ⟨[], .blank⟩ = some r := hr
  rw [Json.tokens, hread, Option.bind_some, hbetween.finish, List.append_nil, List.reverse_reverse]

theorem Spells.member (h : Spells cs new) (key : String) :
    Spells ((quoted key).toList ++ ':' :: cs) (.text (some key) :: .colon :: new) := by
  intro ts
  obtain ⟨r, hr, hbetween⟩ := h (.colon :: .text (some key) :: ts)
  have hcolon : Reader.step ⟨.text (some key) :: ts, .blank⟩ ':' =
      some ⟨.colon :: .text (some key) :: ts, .blank⟩ := rfl
  refine ⟨r, ?_, ?_⟩
  · rw [Reader.after_append, Reader.after_quoted, Option.bind_some, Reader.after_cons, hcolon,
      Option.bind_some, hr]
  · simpa using hbetween

theorem Spells.comma (h : Spells cs new) (h' : Spells ds more) :
    Spells (cs ++ ',' :: ds) (new ++ .comma :: more) := by
  intro ts
  obtain ⟨r, hr, hbetween⟩ := h ts
  obtain ⟨r', hr', hbetween'⟩ := h' (.comma :: (new.reverse ++ ts))
  have hcomma : Reader.start (new.reverse ++ ts) ',' =
      some ⟨.comma :: (new.reverse ++ ts), .blank⟩ := rfl
  refine ⟨r', ?_, ?_⟩
  · rw [Reader.after_append, hr, Option.bind_some, Reader.after_cons,
      hbetween.step ',' (Or.inl rfl), hcomma, Option.bind_some, hr']
  · simpa using hbetween'

theorem Spells.braces (h : Spells cs new) :
    Spells ('{' :: (cs ++ ['}'])) (.openBrace :: (new ++ [.closeBrace])) := by
  intro ts
  obtain ⟨r, hr, hbetween⟩ := h (.openBrace :: ts)
  have hopened : Reader.step ⟨ts, .blank⟩ '{' = some ⟨.openBrace :: ts, .blank⟩ := rfl
  have hclosed : Reader.start (new.reverse ++ .openBrace :: ts) '}' =
      some ⟨.closeBrace :: (new.reverse ++ .openBrace :: ts), .blank⟩ := rfl
  refine ⟨⟨.closeBrace :: (new.reverse ++ .openBrace :: ts), .blank⟩, ?_, ?_⟩
  · rw [Reader.after_cons, hopened, Option.bind_some, Reader.after_append, hr, Option.bind_some,
      Reader.after_cons, hbetween.step '}' (Or.inr rfl), hclosed]
    rfl
  · simpa using Reader.between_blank (.closeBrace :: (new.reverse ++ .openBrace :: ts))

end Spells

namespace Tree

/-- The tree that some tokens stand for, in whatever is open around them. -/
def Denotes (new : List Token) (t : Tree) : Prop :=
  ∀ stack rest, value stack (new ++ rest) = close t stack rest

theorem denotes_text (s : String) : Denotes [.text (some s)] (.text (some s)) := fun _ _ => rfl

theorem denotes_null : Denotes [.null] .null := fun _ _ => rfl

theorem denotes_natural (n : Nat) : Denotes [.natural n] (.natural n) := fun _ _ => rfl

theorem value_openBrace (stack : List Frame) (key : Option String) (rest : List Token) :
    value stack (.openBrace :: .text key :: .colon :: rest) =
      value (.object [] key :: stack) rest := by
  rw [value]

theorem close_comma (t : Tree) (members : List (Option String × Tree)) (key key' : Option String)
    (stack : List Frame) (rest : List Token) :
    close t (.object members key :: stack) (.comma :: .text key' :: .colon :: rest) =
      value (.object ((key, t) :: members) key' :: stack) rest := by
  rw [close]

theorem close_closeBrace (t : Tree) (members : List (Option String × Tree)) (key : Option String)
    (stack : List Frame) (rest : List Token) :
    close t (.object members key :: stack) (.closeBrace :: rest) =
      close (.object ((key, t) :: members).reverse) stack rest := by
  rw [close]

theorem Denotes.single {new : List Token} {t : Tree} (h : Denotes new t) (key : String) :
    Denotes (.openBrace :: (.text (some key) :: .colon :: new ++ [.closeBrace]))
      (.object [(some key, t)]) := by
  intro stack rest
  simp only [List.cons_append, List.append_assoc, List.nil_append]
  rw [value_openBrace, h, close_closeBrace, List.reverse_singleton]

theorem Denotes.double {new new' : List Token} {t t' : Tree} (h : Denotes new t)
    (h' : Denotes new' t') (key key' : String) :
    Denotes (.openBrace :: ((.text (some key) :: .colon :: new ++
        .comma :: .text (some key') :: .colon :: new') ++ [.closeBrace]))
      (.object [(some key, t), (some key', t')]) := by
  intro stack rest
  simp only [List.cons_append, List.append_assoc, List.nil_append]
  rw [value_openBrace, h, close_comma, h', close_closeBrace]
  rfl

/-- The text that is written for a tree. -/
def Writes (s : String) (t : Tree) : Prop := ∃ new, Spells s.toList new ∧ Denotes new t

theorem writes_quoted (s : String) : Writes (quoted s) (.text (some s)) :=
  ⟨_, spells_quoted s, denotes_text s⟩

theorem writes_null : Writes "null" .null := ⟨_, spells_null, denotes_null⟩

theorem writes_natural (n : Nat) : Writes (toString n) (.natural n) :=
  ⟨_, spells_natural n, denotes_natural n⟩

theorem Writes.tagged {content : String} {t : Tree} (h : Writes content t) (tag : String) :
    Writes (tagged tag content) (.object [(some tag, t)]) := by
  obtain ⟨new, hspells, hdenotes⟩ := h
  have hchars : (Json.tagged tag content).toList =
      '{' :: (((quoted tag).toList ++ ':' :: content.toList) ++ ['}']) := by
    simp [Json.tagged]
  refine ⟨_, ?_, hdenotes.single tag⟩
  rw [hchars]
  exact (hspells.member tag).braces

theorem Writes.pair {content content' : String} {t t' : Tree} (h : Writes content t)
    (h' : Writes content' t') (key key' : String) :
    Writes (pair key content key' content') (.object [(some key, t), (some key', t')]) := by
  obtain ⟨new, hspells, hdenotes⟩ := h
  obtain ⟨new', hspells', hdenotes'⟩ := h'
  have hchars : (Json.pair key content key' content').toList =
      '{' :: ((((quoted key).toList ++ ':' :: content.toList) ++
        ',' :: ((quoted key').toList ++ ':' :: content'.toList)) ++ ['}']) := by
    simp [Json.pair]
  refine ⟨_, ?_, hdenotes.double hdenotes' key key'⟩
  rw [hchars]
  exact ((hspells.member key).comma (hspells'.member key')).braces

theorem Writes.parse? {s : String} {t : Tree} (h : Writes s t) : parse? s = some t := by
  obtain ⟨new, hspells, hdenotes⟩ := h
  have hwhole := hdenotes [] []
  rw [List.append_nil] at hwhole
  rw [Tree.parse?, hspells.tokens, Option.bind_some, ofTokens?, hwhole]
  rfl

end Tree

open IRAttributes.Json.Tree

theorem writes_ofPayload (payload : Option UInt64) :
    ∃ t, Writes (ofPayload payload) t ∧ t.payload? = some payload := by
  cases payload with
  | none => exact ⟨_, writes_null, rfl⟩
  | some n =>
    refine ⟨.natural n.toNat, writes_natural n.toNat, ?_⟩
    have hlt : n.toNat < UInt64.size := n.toNat_lt_size
    simp only [payload?, if_pos hlt]
    simp

theorem toIndex?_ofIndex (index : Index) : toIndex? (ofIndex index) = some index := by
  cases index with
  | returnValue =>
    rw [toIndex?, ofIndex, (writes_quoted "Return").parse?]
    rfl
  | function =>
    rw [toIndex?, ofIndex, (writes_quoted "Function").parse?]
    rfl
  | parameter n =>
    have hlt : n.toNat < UInt32.size := n.toNat_lt_size
    have hwritten : Writes (ofIndex (.parameter n))
        (.object [(some "Parameter", .natural n.toNat)]) :=
      (writes_natural n.toNat).tagged "Parameter"
    rw [toIndex?, hwritten.parse?, Option.bind_some]
    simp only [index?, if_pos hlt]
    simp

theorem known?_members (kind : Kind) {payload : Option UInt64} {t : Tree}
    (ht : t.payload? = some payload) :
    known? (.object [(some "kind", .text (some kind.tag)), (some "value", t)]) =
      some (.known kind payload) := by
  have hkind : (Tree.text (some kind.tag)).kind? = some kind := kind.ofTag?_tag
  have hmembers : contents "kind" [(some "kind", .text (some kind.tag)), (some "value", t)] =
      [.text (some kind.tag)] := rfl
  have hpayload : contents "value" [(some "kind", .text (some kind.tag)), (some "value", t)] =
      [t] := rfl
  rw [known?, hmembers, hpayload]
  simp [keysReadable, hkind, ht]

theorem toAttribute?_ofAttribute (v : Attribute) : toAttribute? (ofAttribute v) = some v := by
  cases v with
  | known kind payload =>
    obtain ⟨t, hpayload, ht⟩ := writes_ofPayload payload
    have hwritten : Writes (ofAttribute (.known kind payload)) (.object [(some "Enum",
        .object [(some "kind", .text (some kind.tag)), (some "value", t)])]) :=
      ((writes_quoted kind.tag).pair hpayload "kind" "value").tagged "Enum"
    rw [toAttribute?, hwritten.parse?, Option.bind_some, attribute?]
    exact known?_members kind ht
  | named name value =>
    have hwritten : Writes (ofAttribute (.named name value)) (.object [(some "String",
        .object [(some "name", .text (some name)), (some "value", .text (some value))])]) :=
      ((writes_quoted name).pair (writes_quoted value) "name" "value").tagged "String"
    rw [toAttribute?, hwritten.parse?]
    rfl

/-- Nothing is lost in writing, even where no checked constructor would have
made what was written. -/
theorem decodes_encoded :
    (∀ v : Attribute, toAttribute? (ofAttribute v) = some v) ∧
      (∀ index : Index, toIndex? (ofIndex index) = some index) ∧
      Function.Injective ofAttribute ∧ Function.Injective ofIndex := by
  refine ⟨toAttribute?_ofAttribute, toIndex?_ofIndex, ?_, ?_⟩
  · intro v w heq
    have hsame : some v = some w := by
      rw [← toAttribute?_ofAttribute v, ← toAttribute?_ofAttribute w, heq]
    exact Option.some.inj hsame
  · intro i j heq
    have hsame : some i = some j := by rw [← toIndex?_ofIndex i, ← toIndex?_ofIndex j, heq]
    exact Option.some.inj hsame

end Json

end IRAttributes
