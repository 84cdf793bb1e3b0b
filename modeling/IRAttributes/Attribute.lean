import IRAttributes.Error

/-!
A single attribute: a well-known kind with an optional integer, or a named
attribute with a text. Its key, the kind or the name, is what a collection
holds at most once. The checked constructors give an integer to exactly the
kinds that take one, and refuse an empty name; attributes read from JSON are
unchecked, so every other combination exists too.
-/
namespace IRAttributes

inductive Key
  | kind (kind : Kind)
  | name (name : String)
  deriving DecidableEq

namespace Key

/-- Nothing is ever looked up or removed under the empty name. -/
def isBlank : Key → Bool
  | .kind _ => false
  | .name s => s.isEmpty

end Key

inductive Attribute
  | known (kind : Kind) (payload : Option UInt64)
  | named (name value : String)
  deriving DecidableEq

namespace Attribute

def ofKind (kind : Kind) : Except Error Attribute :=
  if kind.takesPayload then .error (.payloadRequired kind) else .ok (.known kind none)

def ofPayload (kind : Kind) (payload : UInt64) : Except Error Attribute :=
  if kind.takesPayload then .ok (.known kind (some payload))
  else .error (.payloadNotTaken kind)

def ofName (name value : String) : Except Error Attribute :=
  if name.isEmpty then .error .emptyName else .ok (.named name value)

def key : Attribute → Key
  | .known kind _ => .kind kind
  | .named name _ => .name name

def isKnown : Attribute → Bool
  | .known _ _ => true
  | .named _ _ => false

def kind? : Attribute → Option Kind
  | .known kind _ => some kind
  | .named _ _ => none

def name? : Attribute → Option String
  | .known _ _ => none
  | .named name _ => some name

def payload? : Attribute → Option UInt64
  | .known _ payload => payload
  | .named _ _ => none

def value? : Attribute → Option String
  | .known _ _ => none
  | .named _ value => some value

/-- The spelling in the textual representation. Only an alignment is written
without parentheses, and an empty value is left out. -/
def text : Attribute → String
  | .known kind none => kind.spelling
  | .known .alignment (some n) => s!"{Kind.alignment.spelling} {n}"
  | .known kind (some n) => s!"{kind.spelling}({n})"
  | .named name value =>
      if value.isEmpty then s!"\"{name}\"" else s!"\"{name}\"=\"{value}\""

/-- Spellings separated by single spaces. -/
def textOfList : List Attribute → String
  | [] => ""
  | [v] => v.text
  | v :: rest => v.text ++ " " ++ textOfList rest

/-- What the checked constructors can produce. -/
def WellFormed : Attribute → Prop
  | .known kind payload => payload.isSome = kind.takesPayload
  | .named name _ => name ≠ ""

instance (v : Attribute) : Decidable v.WellFormed := by
  cases v <;> unfold WellFormed <;> infer_instance

/-- What the checked constructors produce can be looked up. -/
theorem WellFormed.key_isBlank {v : Attribute} (h : v.WellFormed) : v.key.isBlank = false := by
  cases v with
  | known kind payload => rfl
  | named name value =>
    have hname : name ≠ "" := h
    simp [key, Key.isBlank, hname]

theorem wellFormed_of_ofKind {kind : Kind} {v : Attribute} (h : ofKind kind = .ok v) :
    v.WellFormed := by
  unfold ofKind at h
  split at h
  · cases h
  · cases h
    simp_all [WellFormed]

theorem wellFormed_of_ofPayload {kind : Kind} {n : UInt64} {v : Attribute}
    (h : ofPayload kind n = .ok v) : v.WellFormed := by
  unfold ofPayload at h
  split at h
  · cases h
    simp_all [WellFormed]
  · cases h

theorem wellFormed_of_ofName {name value : String} {v : Attribute}
    (h : ofName name value = .ok v) : v.WellFormed := by
  unfold ofName at h
  split at h
  · cases h
  · cases h
    simp_all [WellFormed]

end Attribute

end IRAttributes
