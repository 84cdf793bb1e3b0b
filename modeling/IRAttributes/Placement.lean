import IRAttributes.Attribute

/-!
Where an attribute may be placed. A well-known kind is legal on some classes
of index only, a named attribute on all of them, and a parameter index must
address a parameter that exists unless the number of parameters is open.
-/
namespace IRAttributes.Placement

def checkKind (kind : Kind) (index : Index) : Except Error Unit :=
  if kind.legalOn index then .ok () else .error (.illegalPlace kind index)

def checkFlag (kind : Kind) (index : Index) : Except Error Unit :=
  if kind.takesPayload then .error (.payloadRequired kind) else checkKind kind index

def checkPayload (kind : Kind) (index : Index) : Except Error Unit :=
  if kind.takesPayload then checkKind kind index else .error (.payloadNotTaken kind)

/-- Without a count every position is in range. -/
def checkRange : Index → Option UInt32 → Except Error Unit
  | .parameter n, some count =>
      if count ≤ n then .error (.parameterOutOfRange n count) else .ok ()
  | _, _ => .ok ()

/-- The range is checked before the kind. -/
def check (v : Attribute) (index : Index) (count : Option UInt32) : Except Error Unit :=
  match checkRange index count, v.kind? with
  | .error e, _ => .error e
  | .ok (), some kind => checkKind kind index
  | .ok (), none => .ok ()

/-- What the checks stand for: a kind is on a class it is legal on. -/
def Legal (v : Attribute) (index : Index) : Prop :=
  ∀ kind ∈ v.kind?, kind.legalOn index = true

instance (v : Attribute) (index : Index) : Decidable (Legal v index) :=
  inferInstanceAs (Decidable (∀ kind ∈ v.kind?, kind.legalOn index = true))

/-- A parameter index lies below the count, if there is one. -/
def InRange : Index → Option UInt32 → Prop
  | .parameter n, some count => n < count
  | _, _ => True

theorem checkRange_eq_ok_iff (index : Index) (count : Option UInt32) :
    checkRange index count = .ok () ↔ InRange index count := by
  unfold checkRange InRange
  split
  · split <;> simp_all
  · simp

theorem checkKind_eq_ok_iff (kind : Kind) (index : Index) :
    checkKind kind index = .ok () ↔ kind.legalOn index = true := by
  unfold checkKind
  split <;> simp_all

theorem check_eq_ok_iff (v : Attribute) (index : Index) (count : Option UInt32) :
    check v index count = .ok () ↔ InRange index count ∧ Legal v index := by
  rw [← checkRange_eq_ok_iff]
  unfold check Legal
  cases hr : checkRange index count with
  | error e => simp
  | ok u =>
    cases hk : v.kind? with
    | none => simp
    | some kind => simp [checkKind_eq_ok_iff]

/-- Where the range is in order, an illegal kind is what is wrong. -/
theorem check_of_illegal {v : Attribute} {kind : Kind} {index : Index} {count : Option UInt32}
    (hin : InRange index count) (hkind : v.kind? = some kind)
    (hillegal : kind.legalOn index = false) :
    check v index count = .error (.illegalPlace kind index) := by
  have hrange := (checkRange_eq_ok_iff index count).mpr hin
  have hnot : ¬ kind.legalOn index = true := Bool.eq_false_iff.mp hillegal
  simp only [check, hrange, hkind, checkKind, if_neg hnot]

end IRAttributes.Placement
