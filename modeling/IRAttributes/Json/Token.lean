import IRAttributes.ClassNames

/-!
JSON tokens. A machine reads one character at a time; its state is the tokens
found so far and the lexeme it is in. A number is kept only if it is a natural
number, since nothing else that has a digit in it is ever asked for. Text
escapes name 16-bit units: two halves of a pair make one character, and a text
with half a pair is well-formed JSON but no sequence of characters.
-/
namespace IRAttributes.Json

inductive Token
  | openBrace | closeBrace | openBracket | closeBracket | colon | comma
  | null
  | boolean (value : Bool)
  | natural (n : Nat)
  | otherNumber
  /-- `none` is a text with half a pair in it. -/
  | text (content : Option String)
  deriving DecidableEq

/-- A bit of a text: a character, or a unit written as four hexadecimal digits. -/
inductive Piece
  | char (c : Char)
  | unit (u : Nat)

namespace Piece

def isFirstHalf (u : Nat) : Bool := 0xD800 ≤ u && u < 0xDC00

def isSecondHalf (u : Nat) : Bool := 0xDC00 ≤ u && u < 0xE000

def ofHalves (first second : Nat) : Char :=
  Char.ofNat (0x10000 + (first - 0xD800) * 0x400 + (second - 0xDC00))

/-- Joins the halves of each pair; `first` is a half whose partner must follow. -/
def assemble (first : Option Nat) : List Piece → Option (List Char)
  | [] => if first.isNone then some [] else none
  | .char c :: rest => if first.isNone then (assemble none rest).map (c :: ·) else none
  | .unit u :: rest =>
      match first with
      | some f =>
          if isSecondHalf u then (assemble none rest).map (ofHalves f u :: ·) else none
      | none =>
          if isFirstHalf u then assemble (some u) rest
          else if isSecondHalf u then none
          else (assemble none rest).map (Char.ofNat u :: ·)

end Piece

def digit? (c : Char) : Option Nat :=
  if '0' ≤ c ∧ c ≤ '9' then some (c.toNat - '0'.toNat) else none

/-- How far a number has been read. -/
inductive Numeral
  | minus
  | zero (negative : Bool)
  | whole (negative : Bool) (n : Nat)
  | point
  | fraction
  | exponentMark
  | exponentSign
  | exponent

namespace Numeral

private def pointOrMark (c : Char) : Option Numeral :=
  if c = '.' then some .point
  else if c = 'e' ∨ c = 'E' then some .exponentMark
  else none

/-- The number with one more character, if the character can belong to it. -/
def extend : Numeral → Char → Option Numeral
  | .minus, c => (digit? c).map fun d => if d = 0 then .zero true else .whole true d
  | .zero _, c => pointOrMark c
  | .whole negative n, c =>
      match digit? c with
      | some d => some (.whole negative (10 * n + d))
      | none => pointOrMark c
  | .point, c => (digit? c).map fun _ => .fraction
  | .fraction, c =>
      if (digit? c).isSome then some .fraction
      else if c = 'e' ∨ c = 'E' then some .exponentMark
      else none
  | .exponentMark, c =>
      if c = '+' ∨ c = '-' then some .exponentSign else (digit? c).map fun _ => .exponent
  | .exponentSign, c => (digit? c).map fun _ => .exponent
  | .exponent, c => (digit? c).map fun _ => .exponent

/-- The token of a number that may end here. A sign makes even zero no natural number. -/
def token? : Numeral → Option Token
  | .zero false => some (.natural 0)
  | .whole false n => some (.natural n)
  | .zero true | .whole true _ | .fraction | .exponent => some .otherNumber
  | .minus | .point | .exponentMark | .exponentSign => none

end Numeral

inductive Lexeme
  | blank
  /-- The letters that must still follow. -/
  | word (rest : List Char) (token : Token)
  | number (read : Numeral)
  /-- The pieces read, newest first. -/
  | text (pieces : List Piece)
  | escape (pieces : List Piece)
  | unit (pieces : List Piece) (u : Nat) (digits : Nat)

structure Reader where
  tokens : List Token
  lexeme : Lexeme

namespace Reader

/-- The first character of a token, or a blank. -/
def start (tokens : List Token) (c : Char) : Option Reader :=
  match c with
  | ' ' | '\n' | '\t' | '\r' => some ⟨tokens, .blank⟩
  | '{' => some ⟨.openBrace :: tokens, .blank⟩
  | '}' => some ⟨.closeBrace :: tokens, .blank⟩
  | '[' => some ⟨.openBracket :: tokens, .blank⟩
  | ']' => some ⟨.closeBracket :: tokens, .blank⟩
  | ':' => some ⟨.colon :: tokens, .blank⟩
  | ',' => some ⟨.comma :: tokens, .blank⟩
  | 'n' => some ⟨tokens, .word ['u', 'l', 'l'] .null⟩
  | 't' => some ⟨tokens, .word ['r', 'u', 'e'] (.boolean true)⟩
  | 'f' => some ⟨tokens, .word ['a', 'l', 's', 'e'] (.boolean false)⟩
  | '"' => some ⟨tokens, .text []⟩
  | '-' => some ⟨tokens, .number .minus⟩
  | '0' => some ⟨tokens, .number (.zero false)⟩
  | c => (digit? c).map fun d => ⟨tokens, .number (.whole false d)⟩

def escaped? : Char → Option Char
  | '"' => some '"'
  | '\\' => some '\\'
  | '/' => some '/'
  | 'b' => some '\x08'
  | 'f' => some '\x0c'
  | 'n' => some '\n'
  | 'r' => some '\r'
  | 't' => some '\t'
  | _ => none

/-- A control character may not stand in a text as itself. -/
def step (r : Reader) (c : Char) : Option Reader :=
  match r.lexeme with
  | .blank => start r.tokens c
  | .word [] _ => none
  | .word (d :: rest) token =>
      if c = d then
        if rest.isEmpty then some ⟨token :: r.tokens, .blank⟩
        else some ⟨r.tokens, .word rest token⟩
      else none
  | .number read =>
      match read.extend c with
      | some longer => some ⟨r.tokens, .number longer⟩
      | none => read.token?.bind fun token => start (token :: r.tokens) c
  | .text pieces =>
      if c = '"' then
        let content := (Piece.assemble none pieces.reverse).map String.ofList
        some ⟨.text content :: r.tokens, .blank⟩
      else if c = '\\' then some ⟨r.tokens, .escape pieces⟩
      else if c < ' ' then none
      else some ⟨r.tokens, .text (.char c :: pieces)⟩
  | .escape pieces =>
      if c = 'u' then some ⟨r.tokens, .unit pieces 0 0⟩
      else (escaped? c).map fun d => ⟨r.tokens, .text (.char d :: pieces)⟩
  | .unit pieces u digits =>
      (Hex.digit? c).map fun d =>
        if digits = 3 then ⟨r.tokens, .text (.unit (16 * u + d) :: pieces)⟩
        else ⟨r.tokens, .unit pieces (16 * u + d) (digits + 1)⟩

def finish (r : Reader) : Option (List Token) :=
  match r.lexeme with
  | .blank => some r.tokens.reverse
  | .number read => read.token?.map fun token => (token :: r.tokens).reverse
  | _ => none

end Reader

def tokens (cs : List Char) : Option (List Token) :=
  (cs.foldlM Reader.step ⟨[], .blank⟩).bind Reader.finish

end IRAttributes.Json
