import IRAttributes.Attribute
import IRAttributes.KeyedList

/-!
Attributes the way a compiler library keeps them: a kind is a number, and every
kind has an integer, which is zero for those that take none. Storing thereby
loses an integer that does not belong, and an attribute without a name can be
stored but not read back.
-/
namespace IRAttributes

inductive NativeKey
  | id (id : UInt32)
  | name (name : String)
  deriving DecidableEq

def Key.native : Key → NativeKey
  | .kind k => .id k.id
  | .name s => .name s

inductive NativeAttribute
  | known (id : UInt32) (payload : UInt64)
  | named (name value : String)
  deriving DecidableEq

namespace NativeAttribute

def key : NativeAttribute → NativeKey
  | .known id _ => .id id
  | .named name _ => .name name

def ofAttribute : Attribute → NativeAttribute
  | .known kind payload => .known kind.id (payload.getD 0)
  | .named name value => .named name value

def toAttribute : NativeAttribute → Except Error Attribute
  | .known id payload => do
      let kind ← Kind.ofId id
      return .known kind (if kind.takesPayload then some payload else none)
  | .named name value => Attribute.ofName name value

def toAttribute? (a : NativeAttribute) : Option Attribute := a.toAttribute.toOption

theorem key_ofAttribute (v : Attribute) : (ofAttribute v).key = v.key.native := by
  cases v <;> rfl

end NativeAttribute

theorem Key.native_injective {j k : Key} (h : j.native = k.native) : j = k := by
  cases j <;> cases k <;> simp only [native, NativeKey.id.injEq, NativeKey.name.injEq,
    reduceCtorEq] at h
  · rw [Kind.id_injective h]
  · rw [h]

end IRAttributes
