import IRAttributes.Json.Token

/-!
JSON trees. The tokens are read from left to right; the lists and objects that
are still open wait on a stack, innermost first, so each token is looked at
once and nesting has no limit.
-/
namespace IRAttributes.Json

inductive Tree
  | null
  | boolean (value : Bool)
  | natural (n : Nat)
  | otherNumber
  | text (content : Option String)
  | list (items : List Tree)
  | object (members : List (Option String × Tree))

namespace Tree

/-- An open list or object, its parts newest first. -/
inductive Frame
  | list (items : List Tree)
  | object (members : List (Option String × Tree)) (key : Option String)

mutual

/-- A value has to come next. -/
def value (stack : List Frame) : List Token → Option Tree
  | .null :: rest => close .null stack rest
  | .boolean b :: rest => close (.boolean b) stack rest
  | .natural n :: rest => close (.natural n) stack rest
  | .otherNumber :: rest => close .otherNumber stack rest
  | .text s :: rest => close (.text s) stack rest
  | .openBracket :: .closeBracket :: rest => close (.list []) stack rest
  | .openBracket :: rest => value (.list [] :: stack) rest
  | .openBrace :: .closeBrace :: rest => close (.object []) stack rest
  | .openBrace :: .text key :: .colon :: rest => value (.object [] key :: stack) rest
  | _ => none

/-- A value has just ended; its place is in the innermost open list or object. -/
def close (t : Tree) (stack : List Frame) : List Token → Option Tree
  | [] => if stack.isEmpty then some t else none
  | .comma :: .text key' :: .colon :: rest =>
      match stack with
      | .object members key :: stack => value (.object ((key, t) :: members) key' :: stack) rest
      | _ => none
  | .comma :: rest =>
      match stack with
      | .list items :: stack => value (.list (t :: items) :: stack) rest
      | _ => none
  | .closeBracket :: rest =>
      match stack with
      | .list items :: stack => close (.list (t :: items).reverse) stack rest
      | _ => none
  | .closeBrace :: rest =>
      match stack with
      | .object members key :: stack =>
          close (.object ((key, t) :: members).reverse) stack rest
      | _ => none
  | _ => none

end

def ofTokens? (ts : List Token) : Option Tree := value [] ts

def parse? (source : String) : Option Tree := (tokens source.toList).bind ofTokens?

end Tree

end IRAttributes.Json
