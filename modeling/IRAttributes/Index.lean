import IRAttributes.IndexClasses

/-!
The places of a function or call site that attributes are attached to: the
return value, each parameter, and the function as a whole. Places are ordered
in this way, parameters among themselves by position. Stores number them with
32 bits: 0 is the return value, the greatest number is the function, and
parameter n is n + 1, so the two greatest positions have no number.
-/
namespace IRAttributes

inductive Index
  | returnValue
  | parameter (position : UInt32)
  | function
  deriving DecidableEq

namespace Index

def lt : Index → Index → Bool
  | .returnValue, .returnValue => false
  | .returnValue, _ => true
  | .parameter m, .parameter n => m < n
  | .parameter _, .function => true
  | _, _ => false

instance : LT Index := ⟨fun i j => i.lt j = true⟩

instance (i j : Index) : Decidable (i < j) := inferInstanceAs (Decidable (i.lt j = true))

def le (i j : Index) : Bool := !j.lt i

/-- The indices in ascending order; equal ones stay next to each other. -/
def sort (indices : List Index) : List Index := indices.mergeSort le

def classes : Index → IndexClasses
  | .returnValue => .returnValue
  | .parameter _ => .parameter
  | .function => .function

def position? : Index → Option UInt32
  | .parameter n => some n
  | _ => none

def rawFunction : UInt32 := 4294967295

def raw? : Index → Option UInt32
  | .returnValue => some 0
  | .parameter n => if n.toNat + 1 < rawFunction.toNat then some (n + 1) else none
  | .function => some rawFunction

def ofRaw (raw : UInt32) : Index :=
  if raw = rawFunction then .function
  else if raw = 0 then .returnValue
  else .parameter (raw - 1)

def text : Index → String
  | .returnValue => "return"
  | .parameter n => s!"param {n}"
  | .function => "function"

inductive OffsetError
  | positionOverflow (position offset : UInt32)
  | notParameter (index : Index)

def OffsetError.message : OffsetError → String
  | .positionOverflow n m => s!"parameter position {n} + {m} overflows"
  | .notParameter index => s!"cannot offset the {index.text} attribute index"

/-- Only a parameter can be moved on, and only as far as positions go. -/
def offset : Index → UInt32 → Except OffsetError Index
  | .parameter n, m =>
      if n.toNat + m.toNat < UInt32.size then .ok (.parameter (n + m))
      else .error (.positionOverflow n m)
  | index, _ => .error (.notParameter index)

end Index

def IndexClasses.permits (s : IndexClasses) (index : Index) : Bool :=
  s.contains index.classes

end IRAttributes
