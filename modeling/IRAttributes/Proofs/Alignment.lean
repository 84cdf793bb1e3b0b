import IRAttributes.Proofs.Access
import IRAttributes.Proofs.Complaints
import IRAttributes.Proofs.Copying
import IRAttributes.Proofs.NormalForm

/-!
Parameters that a function declares. There are two limits to a position: the
number that the function was declared with, and the numbers under which indices
are stored. The second is the tighter one for a single position only, and only
for the function with the most parameters that can be declared. Every other
declared parameter takes an alignment and gives it back.
-/
namespace IRAttributes

namespace Workspace

variable {w : Workspace} {f : Function} {name : String} {count position : UInt32}

/-- An argument takes an alignment, which is then found at its index, both
through the function and through the argument. -/
structure Aligns (w : Workspace) (a : Argument) (alignment : UInt64) : Prop where
  set : ((a.setAlignment alignment).run.run w).answer = .ok a
  ofFunction : ((a.function.attributes.payload a.index .alignment).run.run
    ((a.setAlignment alignment).run.run w).state).answer = .ok alignment
  ofArgument : ((a.attributes.payload a.index .alignment).run.run
    ((a.setAlignment alignment).run.run w).state).answer = .ok alignment

/-- What is put in a context through a view of the workspace. -/
private theorem view_add_of_put {k : Nat} (hk : k < w.contexts.length) {h : Handle} {index : Index}
    {v : Attribute} {c' : Context} (hcount : (w.contextAt k).parameterCount h = .ok count)
    (hcheck : Placement.check v index (some count) = .ok ())
    (hput : (w.contextAt k).put h index v = .ok c') :
    ((View.add (contextStore k) ⟨h, index⟩ v).run.run w).answer = .ok () ∧
      ((View.add (contextStore k) ⟨h, index⟩ v).run.run w).state = (context k).put c' w := by
  obtain ⟨hanswer, hstate⟩ := Context.view_add_of_put hcount hcheck hput
  obtain ⟨hsame, hfocus⟩ := (fits_context hk).run_view_add Context.store ⟨h, index⟩ v
  exact ⟨hsame.trans hanswer, hfocus.trans (congrArg (fun c => (context k).put c w) hstate)⟩

/-- The integer of an attribute that was found, read through a holder. -/
private theorem payload_of_find? {k : Nat} (holder : Holder) {index : Index} {kind : Kind}
    {n : UInt64}
    (hgrant : holder.grant index ((w.contextAt k).parameterCount holder.handle) = .ok ())
    (hfound : (w.contextAt k).find? holder.handle index (.kind kind) =
      some (.known kind (some n))) :
    (((holder.attributes (contextStore k)).payload index kind).run.run w).answer = .ok n := by
  have haccess := holder.run_collectionAt (run_parameterCount w k holder.handle) index
  rw [hgrant] at haccess
  have hread : (((View.collection (contextStore k) ⟨holder.handle, index⟩).find?
      (.kind kind)).run w).answer = some (.known kind (some n)) := hfound
  rw [AttributeSet.answer_payload haccess, hread]
  rfl

/-- An argument of a function puts its alignment where the function has it. -/
private theorem run_setAlignment {c' : Context} {alignment : UInt64}
    (hrole : (w.contextAt f.context).role? f.handle = some (.function name count))
    (hlt : position < count) (hput : (w.contextAt f.context).put f.handle (.parameter position)
      (.known .alignment (some alignment)) = .ok c') :
    (((Argument.mk f position).setAlignment alignment).run.run w).answer = .ok ⟨f, position⟩ ∧
      (((Argument.mk f position).setAlignment alignment).run.run w).state =
        (context f.context).put c' w := by
  have hcount := Context.parameterCount_of_function hrole
  have hlegal : Kind.alignment.classes.contains .parameter = true := by decide
  have hcheck : Placement.check (.known .alignment (some alignment)) (.parameter position)
      (some count) = .ok () := by
    refine (Placement.check_eq_ok_iff _ _ _).mpr ⟨hlt, ?_⟩
    rintro kind ⟨⟩
    exact hlegal
  have haccess := (Holder.entity f.handle).run_collectionAt
    (run_parameterCount w f.context f.handle) (.parameter position)
  have hgrant : (Holder.entity f.handle).grant (.parameter position)
      ((w.contextAt f.context).parameterCount f.handle) = .ok () :=
    Holder.grant_eq_ok_iff.mpr ⟨nofun, count, hcount, hlt⟩
  rw [hgrant] at haccess
  obtain ⟨hadded, hstate⟩ := view_add_of_put (lt_of_role? hrole) hcount hcheck hput
  have hadd : (f.attributes.add (.parameter position)
      (.known .alignment (some alignment))).run.run w =
        (View.add (contextStore f.context) ⟨f.handle, .parameter position⟩
          (.known .alignment (some alignment))).run.run w := Action.run_bind_of_ok _ haccess
  have hset : (Argument.mk f position).setAlignment alignment =
      f.attributes.add (.parameter position) (.known .alignment (some alignment)) >>= fun _ =>
        pure ⟨f, position⟩ := rfl
  rw [← hadd] at hadded hstate
  obtain ⟨hanswer, hlast⟩ := Action.bind_of_ok
    (fun _ => (pure ⟨f, position⟩ : Action Workspace Argument)) hadded
  rw [hset]
  exact ⟨hanswer, hlast.trans hstate⟩

/-- A declared parameter that has a number takes an alignment. -/
theorem aligns_of_lt (hrole : (w.contextAt f.context).role? f.handle = some (.function name count))
    (hlt : position < count) (hne : position ≠ 4294967294) (alignment : UInt64) :
    w.Aligns ⟨f, position⟩ alignment := by
  have hcounted := Context.parameterCount_of_function hrole
  have hindex : (Index.parameter position).Within count :=
    .of_inRange hlt fun heq => hne (Index.parameter.inj heq)
  obtain ⟨c', hput⟩ :=
    Context.exists_put hcounted hindex (.known .alignment (some alignment))
  obtain ⟨hanswer, hstate⟩ := run_setAlignment hrole hlt hput
  have hat : ((context f.context).put c' w).contextAt f.context = c' :=
    (fits_context (lt_of_role? hrole)).get_put c'
  have hcount : c'.parameterCount f.handle = .ok count :=
    (Context.parameterCount_of_put hput _).trans hcounted
  have hfound := Context.find?_of_put hput
  rw [← hat] at hcount hfound
  refine ⟨hanswer, ?_, ?_⟩
  · rw [hstate]
    exact payload_of_find? (.entity f.handle)
      (Holder.grant_eq_ok_iff.mpr ⟨nofun, count, hcount, hlt⟩) hfound
  · have hown : ∀ h position', Holder.argument f.handle position = .argument h position' →
        Index.parameter position = .parameter position' := by
      rintro _ _ ⟨⟩
      rfl
    rw [hstate]
    exact payload_of_find? (.argument f.handle position)
      (Holder.grant_eq_ok_iff.mpr ⟨hown, count, hcount, hlt⟩) hfound

theorem argument?_of_lt
    (hrole : (w.contextAt f.context).role? f.handle = some (.function name count))
    (hlt : position < count) : f.argument? position w = some ⟨f, position⟩ := by
  have hcount : f.parameterCount w = .ok count := Context.parameterCount_of_function hrole
  simp only [Function.argument?, hcount, if_pos hlt]

theorem getElem?_firstArguments
    (hrole : (w.contextAt f.context).role? f.handle = some (.function name count))
    (hlt : position < count) {limit : Nat} (hlimit : position.toNat < limit) :
    (f.firstArguments limit w)[position.toNat]? = some ⟨f, position⟩ := by
  have hcount : f.parameterCount w = .ok count := Context.parameterCount_of_function hrole
  have hlt' : position.toNat < count.toNat := UInt32.lt_iff_toNat_lt.mp hlt
  have hmin : position.toNat < min limit count.toNat := by omega
  simp only [Function.firstArguments, hcount, List.getElem?_map]
  rw [List.getElem?_range hmin]
  simp

/-- Every parameter that a function declares can be asked for, on its own and
among all of them, and unless it is at the one position without a number, it
takes any alignment and gives it back. No activity in any workspace calls a
position out of range that is below the number of parameters, except that one. -/
theorem aligns_of_declared (w : Workspace) (f : Function) {name : String} {count : UInt32}
    (hrole : (w.contextAt f.context).role? f.handle = some (.function name count)) :
    (∀ position, position < count →
      f.argument? position w = some ⟨f, position⟩ ∧
      (∀ limit, position.toNat < limit →
        (f.firstArguments limit w)[position.toNat]? = some ⟨f, position⟩) ∧
      (position ≠ 4294967294 → ∀ alignment, w.Aligns ⟨f, position⟩ alignment)) ∧
    ∀ (w' : Workspace) (a : Activity) (position count : UInt32),
      (w'.perform a).answer = .error (.parameterOutOfRange position count) →
        count ≤ position ∨ position = 4294967294 := by
  constructor
  · intro position hlt
    exact ⟨argument?_of_lt hrole hlt, fun limit => getElem?_firstArguments hrole hlt,
      aligns_of_lt hrole hlt⟩
  · intro w' a position count hrefused
    exact (a.fair_run w').1 _ hrefused

/-- A function with as many parameters as can be declared. -/
def fullFunction : Workspace := reached 1 [] [.addFunction 0 "f" 4294967295]

/-- Its last parameter but one still has a number. -/
theorem aligns_of_declared_fullFunction :
    (fullFunction.contextAt 0).role? (.issued 0 0) = some (.function "f" 4294967295) ∧
      (4294967293 : UInt32) < 4294967295 ∧
      fullFunction.Aligns ⟨⟨0, .issued 0 0⟩, 4294967293⟩ 16 := by
  have hrole : (fullFunction.contextAt 0).role? (.issued 0 0) =
      some (.function "f" 4294967295) := rfl
  have hlt : (4294967293 : UInt32) < 4294967295 := by decide
  have hall := (aligns_of_declared fullFunction ⟨0, .issued 0 0⟩ hrole).1 4294967293 hlt
  exact ⟨hrole, hlt, hall.2.2 (by decide) 16⟩

/-- Its last parameter is below the count and yet called out of range. -/
theorem not_aligns_fullFunction :
    (fullFunction.contextAt 0).role? (.issued 0 0) = some (.function "f" 4294967295) ∧
      (4294967294 : UInt32) < 4294967295 ∧
      (Function.mk 0 (.issued 0 0)).argument? 4294967294 fullFunction =
        some ⟨⟨0, .issued 0 0⟩, 4294967294⟩ ∧
      (fullFunction.perform (.setAlignment ⟨⟨0, .issued 0 0⟩, 4294967294⟩ 16)).answer =
        .error (.parameterOutOfRange 4294967294 4294967295) ∧
      ¬ fullFunction.Aligns ⟨⟨0, .issued 0 0⟩, 4294967294⟩ 16 := by
  have hrefused : (((Argument.mk ⟨0, .issued 0 0⟩ 4294967294).setAlignment 16).run.run
      fullFunction).answer = .error (.parameterOutOfRange 4294967294 4294967295) := rfl
  refine ⟨rfl, by decide, rfl, rfl, ?_⟩
  intro haligns
  have hset := haligns.set
  rw [hrefused] at hset
  cases hset

end Workspace

end IRAttributes
