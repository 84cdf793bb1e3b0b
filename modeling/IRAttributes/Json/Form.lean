import IRAttributes.Attribute
import IRAttributes.ClassNames
import IRAttributes.Json.Tree

/-!
The JSON forms of kinds, indices, sets of index classes and attributes. They
are written without blanks. Reading accepts in addition what the tagged layout
leaves open: a tag without content may stand alone or before `null`, the parts
of an attribute come as an object in any order, with other members ignored, or
as a list in the order they are written. Nothing is checked beyond the form,
so attributes can be read that no checked constructor makes.
-/
namespace IRAttributes.Json

/-- Quotes, backslashes and control characters are escaped, nothing else is. -/
def escape (c : Char) : List Char :=
  match c with
  | '"' => ['\\', '"']
  | '\\' => ['\\', '\\']
  | '\x08' => ['\\', 'b']
  | '\t' => ['\\', 't']
  | '\n' => ['\\', 'n']
  | '\x0c' => ['\\', 'f']
  | '\r' => ['\\', 'r']
  | c =>
      if c < ' ' then ['\\', 'u', '0', '0', Hex.digit (c.toNat / 16), Hex.digit (c.toNat % 16)]
      else [c]

def quoted (s : String) : String :=
  "\"" ++ String.ofList (s.toList.flatMap escape) ++ "\""

/-- An object with one member. -/
def tagged (tag content : String) : String :=
  "\x7b" ++ quoted tag ++ ":" ++ content ++ "\x7d"

/-- An object with two members. -/
def pair (key content key' content' : String) : String :=
  "\x7b" ++ quoted key ++ ":" ++ content ++ "," ++ quoted key' ++ ":" ++ content' ++ "\x7d"

def ofKind (kind : Kind) : String := quoted kind.tag

def ofIndex : Index → String
  | .returnValue => quoted "Return"
  | .parameter n => tagged "Parameter" (toString n)
  | .function => quoted "Function"

def ofClasses (s : IndexClasses) : String := quoted (ClassNames.text s)

def ofPayload : Option UInt64 → String
  | none => "null"
  | some n => toString n

def ofAttribute : Attribute → String
  | .known kind payload =>
      tagged "Enum" (pair "kind" (ofKind kind) "value" (ofPayload payload))
  | .named name value =>
      tagged "String" (pair "name" (quoted name) "value" (quoted value))

namespace Tree

/-- A tag that carries no content. -/
def bareTag? : Tree → Option String
  | .text content => content
  | .object [(key, .null)] => key
  | _ => none

def text? : Tree → Option String
  | .text content => content
  | _ => none

def kind? (t : Tree) : Option Kind := t.bareTag?.bind Kind.ofTag?

def index? : Tree → Option Index
  | .object [(some "Parameter", .natural n)] =>
      if n < UInt32.size then some (.parameter n.toUInt32) else none
  | t =>
      match t.bareTag? with
      | some "Return" => some .returnValue
      | some "Function" => some .function
      | _ => none

def classes? (t : Tree) : Option IndexClasses := t.text?.bind ClassNames.ofText?

def payload? : Tree → Option (Option UInt64)
  | .null => some none
  | .natural n => if n < UInt64.size then some (some n.toUInt64) else none
  | _ => none

/-- The contents of all members with a given key. -/
def contents (key : String) (members : List (Option String × Tree)) : List Tree :=
  (members.filter fun member => member.1 == some key).map (·.2)

def keysReadable (members : List (Option String × Tree)) : Bool :=
  members.all fun member => member.1.isSome

/-- A missing payload is the same as `null`. -/
def known? : Tree → Option Attribute
  | .list [kind, payload] => do return .known (← kind.kind?) (← payload.payload?)
  | .object members =>
      if keysReadable members then
        match contents "kind" members, contents "value" members with
        | [kind], [] => do return .known (← kind.kind?) none
        | [kind], [payload] => do return .known (← kind.kind?) (← payload.payload?)
        | _, _ => none
      else none
  | _ => none

def named? : Tree → Option Attribute
  | .list [name, value] => do return .named (← name.text?) (← value.text?)
  | .object members =>
      if keysReadable members then
        match contents "name" members, contents "value" members with
        | [name], [value] => do return .named (← name.text?) (← value.text?)
        | _, _ => none
      else none
  | _ => none

def attribute? : Tree → Option Attribute
  | .object [(some "Enum", content)] => content.known?
  | .object [(some "String", content)] => content.named?
  | _ => none

end Tree

def toKind? (source : String) : Option Kind := (Tree.parse? source).bind Tree.kind?

def toIndex? (source : String) : Option Index := (Tree.parse? source).bind Tree.index?

def toClasses? (source : String) : Option IndexClasses := (Tree.parse? source).bind Tree.classes?

def toAttribute? (source : String) : Option Attribute :=
  (Tree.parse? source).bind Tree.attribute?

end IRAttributes.Json
