/-!
Sets of index classes. An attribute sits on a function, on its return value or
on one of its parameters, and a kind of attribute is legal on some of these
three. A set is a byte with one bit per class; a byte read from text may carry
further bits, which are kept and count as members that no index has.
-/
namespace IRAttributes

structure IndexClasses where
  bits : UInt8
  deriving DecidableEq

namespace IndexClasses

def empty : IndexClasses := ⟨0⟩

def function : IndexClasses := ⟨1⟩

def returnValue : IndexClasses := ⟨2⟩

def parameter : IndexClasses := ⟨4⟩

def union (s t : IndexClasses) : IndexClasses := ⟨s.bits ||| t.bits⟩

/-- The classes of an index that holds a value: the return value and the parameters. -/
def value : IndexClasses := returnValue.union parameter

def contains (s t : IndexClasses) : Bool := s.bits &&& t.bits == t.bits

def isEmpty (s : IndexClasses) : Bool := s.bits == 0

/-- Refuses a number with a bit that stands for no class. -/
def ofBits? (n : Nat) : Option IndexClasses :=
  if n ≤ 7 then some ⟨n.toUInt8⟩ else none

end IndexClasses

end IRAttributes
