import IRAttributes.ClassNames
import IRAttributes.Printable
import IRAttributes.Reference

/-!
Descriptions of functions, sets and views for a reader who debugs. Names are
quoted so that nothing in them is invisible: characters that do not show on
their own are given by number.
-/
namespace IRAttributes.Description

def escape (c : Char) : String :=
  match c with
  | '\x00' => "\\0"
  | '\t' => "\\t"
  | '\n' => "\\n"
  | '\r' => "\\r"
  | '"' => "\\\""
  | '\\' => "\\\\"
  | c =>
      if Printable.isPrintable c then String.singleton c
      else "\\u\x7b" ++ Hex.text c.toNat ++ "\x7d"

def quoted (s : String) : String := "\"" ++ String.join (s.toList.map escape) ++ "\""

/-- A title with labelled parts. -/
def record (title : String) (fields : List (String × String)) : String :=
  title ++ " \x7b " ++ ", ".intercalate (fields.map fun (label, s) => label ++ ": " ++ s) ++
    " \x7d"

def index : Index → String
  | .returnValue => "Return"
  | .parameter n => s!"Parameter({n})"
  | .function => "Function"

def function (f : Function) (w : Workspace) : String :=
  let name := match f.name? w with
    | some name => "Some(" ++ quoted name ++ ")"
    | none => "None"
  record "Function" [("handle", f.handle.text), ("name", name)]

def entitySet (entity : String) : String := record "StoreAttributeSet" [("entity", entity)]

def view (entity : String) (i : Index) : String :=
  record "StoreAttributeCollection" [("entity", entity), ("index", index i)]

end IRAttributes.Description
