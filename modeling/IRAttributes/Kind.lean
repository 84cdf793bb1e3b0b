import IRAttributes.Index

/-!
The well-known attribute kinds. Each has the number under which bitcode stores
it, its spelling in the textual representation, the tag that names it in JSON,
the classes of index it is legal on, and whether it carries an integer.
Numbers run from 1 without a gap and give the kinds their order.
-/
namespace IRAttributes

inductive Kind
  | alignment | alwaysInline | byVal | inlineHint | inReg | minSize | naked | nest
  | noAlias | noBuiltin | noCapture | noDuplicate | noImplicitFloat | noInline
  | nonLazyBind | noRedZone | noReturn | noUnwind | optimizeForSize | readNone | readOnly
  | returned | returnsTwice | sExt | stackAlignment | stackProtect | stackProtectReq
  | stackProtectStrong | structRet | sanitizeAddress | sanitizeThread | sanitizeMemory
  | uwTable | zExt | builtin | cold | optimizeNone | inAlloca | nonNull | jumpTable
  | dereferenceable | dereferenceableOrNull | convergent | safeStack | argMemOnly
  | swiftSelf | swiftError | noRecurse | inaccessibleMemOnly | inaccessibleMemOrArgMemOnly
  | allocSize | writeOnly | speculatable | strictFp | sanitizeHwAddress | noCfCheck
  | optForFuzzing | shadowCallStack | speculativeLoadHardening | immArg | willReturn
  | noFree | noSync | sanitizeMemTag | preallocated | noMerge | nullPointerIsValid
  | noUndef | byRef | mustProgress | noCallback | hot | noProfile
  deriving DecidableEq

namespace Kind

structure Entry where
  id : UInt32
  spelling : String
  tag : String
  classes : IndexClasses
  takesPayload : Bool

def functionOrParameter : IndexClasses := .union .function .parameter

def entry : Kind → Entry
  | .alignment => ⟨1, "align", "Alignment", .value, true⟩
  | .alwaysInline => ⟨2, "alwaysinline", "AlwaysInline", .function, false⟩
  | .byVal => ⟨3, "byval", "ByVal", .parameter, false⟩
  | .inlineHint => ⟨4, "inlinehint", "InlineHint", .function, false⟩
  | .inReg => ⟨5, "inreg", "InReg", .value, false⟩
  | .minSize => ⟨6, "minsize", "MinSize", .function, false⟩
  | .naked => ⟨7, "naked", "Naked", .function, false⟩
  | .nest => ⟨8, "nest", "Nest", .parameter, false⟩
  | .noAlias => ⟨9, "noalias", "NoAlias", .value, false⟩
  | .noBuiltin => ⟨10, "nobuiltin", "NoBuiltin", .function, false⟩
  | .noCapture => ⟨11, "nocapture", "NoCapture", .parameter, false⟩
  | .noDuplicate => ⟨12, "noduplicate", "NoDuplicate", .function, false⟩
  | .noImplicitFloat => ⟨13, "noimplicitfloat", "NoImplicitFloat", .function, false⟩
  | .noInline => ⟨14, "noinline", "NoInline", .function, false⟩
  | .nonLazyBind => ⟨15, "nonlazybind", "NonLazyBind", .function, false⟩
  | .noRedZone => ⟨16, "noredzone", "NoRedZone", .function, false⟩
  | .noReturn => ⟨17, "noreturn", "NoReturn", .function, false⟩
  | .noUnwind => ⟨18, "nounwind", "NoUnwind", .function, false⟩
  | .optimizeForSize => ⟨19, "optsize", "OptimizeForSize", .function, false⟩
  | .readNone => ⟨20, "readnone", "ReadNone", functionOrParameter, false⟩
  | .readOnly => ⟨21, "readonly", "ReadOnly", functionOrParameter, false⟩
  | .returned => ⟨22, "returned", "Returned", .parameter, false⟩
  | .returnsTwice => ⟨23, "returns_twice", "ReturnsTwice", .function, false⟩
  | .sExt => ⟨24, "signext", "SExt", .value, false⟩
  | .stackAlignment => ⟨25, "alignstack", "StackAlignment", .function, true⟩
  | .stackProtect => ⟨26, "ssp", "StackProtect", .function, false⟩
  | .stackProtectReq => ⟨27, "sspreq", "StackProtectReq", .function, false⟩
  | .stackProtectStrong => ⟨28, "sspstrong", "StackProtectStrong", .function, false⟩
  | .structRet => ⟨29, "sret", "StructRet", .parameter, false⟩
  | .sanitizeAddress => ⟨30, "sanitize_address", "SanitizeAddress", .function, false⟩
  | .sanitizeThread => ⟨31, "sanitize_thread", "SanitizeThread", .function, false⟩
  | .sanitizeMemory => ⟨32, "sanitize_memory", "SanitizeMemory", .function, false⟩
  | .uwTable => ⟨33, "uwtable", "UwTable", .function, false⟩
  | .zExt => ⟨34, "zeroext", "ZExt", .value, false⟩
  | .builtin => ⟨35, "builtin", "Builtin", .function, false⟩
  | .cold => ⟨36, "cold", "Cold", .function, false⟩
  | .optimizeNone => ⟨37, "optnone", "OptimizeNone", .function, false⟩
  | .inAlloca => ⟨38, "inalloca", "InAlloca", .parameter, false⟩
  | .nonNull => ⟨39, "nonnull", "NonNull", .value, false⟩
  | .jumpTable => ⟨40, "jumptable", "JumpTable", .function, false⟩
  | .dereferenceable => ⟨41, "dereferenceable", "Dereferenceable", .value, true⟩
  | .dereferenceableOrNull => ⟨42, "dereferenceable_or_null", "DereferenceableOrNull", .value, true⟩
  | .convergent => ⟨43, "convergent", "Convergent", .function, false⟩
  | .safeStack => ⟨44, "safestack", "SafeStack", .function, false⟩
  | .argMemOnly => ⟨45, "argmemonly", "ArgMemOnly", .function, false⟩
  | .swiftSelf => ⟨46, "swiftself", "SwiftSelf", .parameter, false⟩
  | .swiftError => ⟨47, "swifterror", "SwiftError", .parameter, false⟩
  | .noRecurse => ⟨48, "norecurse", "NoRecurse", .function, false⟩
  | .inaccessibleMemOnly => ⟨49, "inaccessiblememonly", "InaccessibleMemOnly", .function, false⟩
  | .inaccessibleMemOrArgMemOnly =>
      ⟨50, "inaccessiblemem_or_argmemonly", "InaccessibleMemOrArgMemOnly", .function, false⟩
  | .allocSize => ⟨51, "allocsize", "AllocSize", .function, true⟩
  | .writeOnly => ⟨52, "writeonly", "WriteOnly", functionOrParameter, false⟩
  | .speculatable => ⟨53, "speculatable", "Speculatable", .function, false⟩
  | .strictFp => ⟨54, "strictfp", "StrictFp", .function, false⟩
  | .sanitizeHwAddress => ⟨55, "sanitize_hwaddress", "SanitizeHwAddress", .function, false⟩
  | .noCfCheck => ⟨56, "nocf_check", "NoCfCheck", .function, false⟩
  | .optForFuzzing => ⟨57, "optforfuzzing", "OptForFuzzing", .function, false⟩
  | .shadowCallStack => ⟨58, "shadowcallstack", "ShadowCallStack", .function, false⟩
  | .speculativeLoadHardening =>
      ⟨59, "speculative_load_hardening", "SpeculativeLoadHardening", .function, false⟩
  | .immArg => ⟨60, "immarg", "ImmArg", .parameter, false⟩
  | .willReturn => ⟨61, "willreturn", "WillReturn", .function, false⟩
  | .noFree => ⟨62, "nofree", "NoFree", functionOrParameter, false⟩
  | .noSync => ⟨63, "nosync", "NoSync", .function, false⟩
  | .sanitizeMemTag => ⟨64, "sanitize_memtag", "SanitizeMemTag", .function, false⟩
  | .preallocated => ⟨65, "preallocated", "Preallocated", .parameter, false⟩
  | .noMerge => ⟨66, "nomerge", "NoMerge", .function, false⟩
  | .nullPointerIsValid => ⟨67, "null_pointer_is_valid", "NullPointerIsValid", .function, false⟩
  | .noUndef => ⟨68, "noundef", "NoUndef", .value, false⟩
  | .byRef => ⟨69, "byref", "ByRef", .parameter, false⟩
  | .mustProgress => ⟨70, "mustprogress", "MustProgress", .function, false⟩
  | .noCallback => ⟨71, "nocallback", "NoCallback", .function, false⟩
  | .hot => ⟨72, "hot", "Hot", .function, false⟩
  | .noProfile => ⟨73, "noprofile", "NoProfile", .function, false⟩

def id (k : Kind) : UInt32 := k.entry.id

def spelling (k : Kind) : String := k.entry.spelling

def tag (k : Kind) : String := k.entry.tag

def classes (k : Kind) : IndexClasses := k.entry.classes

def takesPayload (k : Kind) : Bool := k.entry.takesPayload

/-- Every kind, in the order of their numbers. -/
def all : List Kind :=
  [.alignment, .alwaysInline, .byVal, .inlineHint, .inReg, .minSize, .naked, .nest,
   .noAlias, .noBuiltin, .noCapture, .noDuplicate, .noImplicitFloat, .noInline,
   .nonLazyBind, .noRedZone, .noReturn, .noUnwind, .optimizeForSize, .readNone, .readOnly,
   .returned, .returnsTwice, .sExt, .stackAlignment, .stackProtect, .stackProtectReq,
   .stackProtectStrong, .structRet, .sanitizeAddress, .sanitizeThread, .sanitizeMemory,
   .uwTable, .zExt, .builtin, .cold, .optimizeNone, .inAlloca, .nonNull, .jumpTable,
   .dereferenceable, .dereferenceableOrNull, .convergent, .safeStack, .argMemOnly,
   .swiftSelf, .swiftError, .noRecurse, .inaccessibleMemOnly, .inaccessibleMemOrArgMemOnly,
   .allocSize, .writeOnly, .speculatable, .strictFp, .sanitizeHwAddress, .noCfCheck,
   .optForFuzzing, .shadowCallStack, .speculativeLoadHardening, .immArg, .willReturn,
   .noFree, .noSync, .sanitizeMemTag, .preallocated, .noMerge, .nullPointerIsValid,
   .noUndef, .byRef, .mustProgress, .noCallback, .hot, .noProfile]

def ofId? (id : UInt32) : Option Kind := all.find? (·.id == id)

def ofSpelling? (spelling : String) : Option Kind := all.find? (·.spelling == spelling)

def ofTag? (tag : String) : Option Kind := all.find? (·.tag == tag)

instance : Ord Kind := ⟨fun j k => compare j.id k.id⟩

theorem mem_all (k : Kind) : k ∈ all := by
  cases k <;> simp [all]

theorem ofId?_id (k : Kind) : ofId? k.id = some k := by
  cases k <;> rfl

theorem id_of_ofId? {id : UInt32} {k : Kind} (h : ofId? id = some k) : k.id = id := by
  have hfound : (k.id == id) = true := List.find?_some (p := fun j : Kind => j.id == id) h
  exact beq_iff_eq.mp hfound

theorem id_injective {j k : Kind} (h : j.id = k.id) : j = k := by
  have hj := ofId?_id j
  rw [h, ofId?_id k] at hj
  exact (Option.some.inj hj).symm

/-- A kind is legal on an index exactly if one of its classes is the index's. -/
def legalOn (k : Kind) (index : Index) : Bool := k.classes.permits index

end Kind

end IRAttributes
