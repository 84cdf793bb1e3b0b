import IRAttributes.IndexClasses

/-!
The textual form of a set of index classes: the names of its classes separated
by bars, followed by any other bits as one hexadecimal number. Reading allows
blanks around each part, any number of hexadecimal parts, and a blank text for
the empty set. Blanks are the characters with the property White_Space; of the
hexadecimal digits both cases are read, and lower case is written.
-/
namespace IRAttributes

namespace Blank

def ranges : List (Nat × Nat) :=
  [(0x09, 0x0D), (0x20, 0x20), (0x85, 0x85), (0xA0, 0xA0), (0x1680, 0x1680),
   (0x2000, 0x200A), (0x2028, 0x2029), (0x202F, 0x202F), (0x205F, 0x205F), (0x3000, 0x3000)]

def isBlank (c : Char) : Bool :=
  ranges.any fun (first, last) => first ≤ c.toNat && c.toNat ≤ last

/-- A text without the blanks at both ends. -/
def trim (cs : List Char) : List Char :=
  ((cs.dropWhile isBlank).reverse.dropWhile isBlank).reverse

end Blank

namespace Hex

def digit? (c : Char) : Option Nat :=
  if '0' ≤ c ∧ c ≤ '9' then some (c.toNat - '0'.toNat)
  else if 'a' ≤ c ∧ c ≤ 'f' then some (c.toNat - 'a'.toNat + 10)
  else if 'A' ≤ c ∧ c ≤ 'F' then some (c.toNat - 'A'.toNat + 10)
  else none

def digit (n : Nat) : Char :=
  if n < 10 then Char.ofNat ('0'.toNat + n) else Char.ofNat ('a'.toNat + (n - 10))

/-- The digits of a number without leading zeros. -/
def text (n : Nat) : String := String.ofList (Nat.toDigits 16 n)

theorem digit?_digit (n : Nat) (h : n < 16) : digit? (digit n) = some n := by
  have all : ∀ k : Fin 16, digit? (digit k) = some k.val := by decide
  exact all ⟨n, h⟩

end Hex

namespace ClassNames

open Blank

def names : List (String × IndexClasses) :=
  [("FUNCTION", .function), ("RETURN", .returnValue), ("PARAMETER", .parameter)]

/-- The parts of a text between the separators; there is one more than separators. -/
def parts (separator : Char) : List Char → List (List Char)
  | [] => [[]]
  | c :: cs =>
      match parts separator cs with
      | [] => [[c]]
      | part :: rest => if c = separator then [] :: part :: rest else (c :: part) :: rest

def hexNumber? (cs : List Char) : Option Nat :=
  if cs.isEmpty then none
  else cs.foldlM (fun n c => (Hex.digit? c).map (16 * n + ·)) 0

/-- A plus sign may precede the digits; the number must fit into a byte. -/
def hexBits? (cs : List Char) : Option IndexClasses :=
  let digits := match cs with
    | '+' :: rest => rest
    | _ => cs
  (hexNumber? digits).bind fun n => if n < 256 then some ⟨n.toUInt8⟩ else none

def ofPart? (part : List Char) : Option IndexClasses :=
  match trim part with
  | '0' :: 'x' :: digits => hexBits? digits
  | name => (names.find? fun entry => entry.1.toList == name).map (·.2)

def ofText? (source : String) : Option IndexClasses :=
  if source.toList.all isBlank then some .empty
  else (parts '|' source.toList).foldlM (fun s part => (ofPart? part).map s.union) .empty

def otherBits (s : IndexClasses) : List String :=
  let rest := s.bits &&& 0xF8
  if rest = 0 then [] else ["0x" ++ Hex.text rest.toNat]

def text (s : IndexClasses) : String :=
  " | ".intercalate
    (((names.filter fun entry => s.contains entry.2).map (·.1)) ++ otherBits s)

end ClassNames

end IRAttributes
