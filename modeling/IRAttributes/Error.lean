import IRAttributes.Kind

/-!
What can go wrong with an attribute request. Every cause is a mistake of the
caller, and each has one wording.
-/
namespace IRAttributes

inductive Error
  | illegalPlace (kind : Kind) (index : Index)
  | payloadRequired (kind : Kind)
  | payloadNotTaken (kind : Kind)
  | parameterOutOfRange (position count : UInt32)
  | payloadMissing (kind : Kind) (index : Index)
  | notPresent (kind : Kind) (index : Index)
  | emptyName
  | indexMismatch (expected found : Index)
  | unknownKindId (id : UInt32)
  | deadHandle
  deriving DecidableEq

def Error.message : Error → String
  | .illegalPlace kind index =>
      s!"attribute `{kind.spelling}` is not valid on the {index.text} index"
  | .payloadRequired kind => s!"attribute `{kind.spelling}` requires a value"
  | .payloadNotTaken kind => s!"attribute `{kind.spelling}` does not take a value"
  | .parameterOutOfRange position count =>
      s!"parameter index {position} exceeds the number of parameters ({count})"
  | .payloadMissing kind index =>
      s!"attribute `{kind.spelling}` on the {index.text} index does not have an integral value"
  | .notPresent kind index =>
      s!"attribute `{kind.spelling}` is not present on the {index.text} index"
  | .emptyName => "attribute name must not be empty"
  | .indexMismatch expected found =>
      s!"attribute set is only addressable at the {expected.text} index, not {found.text}"
  | .unknownKindId id => s!"unknown attribute kind id `{id}`"
  | .deadHandle => "invalid entity handle"

/-- The kind with a given number, or the complaint that there is none. -/
def Kind.ofId (id : UInt32) : Except Error Kind :=
  match ofId? id with
  | some kind => .ok kind
  | none => .error (.unknownKindId id)

end IRAttributes
