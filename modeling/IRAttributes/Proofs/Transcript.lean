import IRAttributes.Proofs.Related
import IRAttributes.RecordedStore

/-!
What a recorded store is sent. The store itself is arbitrary: it may answer as
it likes, and differently every time. A computation is described by the
messages that it adds to the record together with its answer, and descriptions
are put together like the computations are. Adding an attribute is described by
a small grammar: the parameters are counted, the count is compared, and only
then the attribute is sent.
-/
namespace IRAttributes

variable {σ α β H : Type}

namespace Recorded

/-- What a computation adds to the record, and the answer it comes with. -/
def Sends (Q : List (Message H) → α → Prop) (x : Step (Recorded σ H) α) : Prop :=
  ∀ r, ∃ new, (x.run r).state.messages = r.messages ++ new ∧ Q new (x.run r).answer

namespace Sends

variable {P Q : List (Message H) → α → Prop} {R : List (Message H) → β → Prop}

theorem mono {x : Step (Recorded σ H) α} (h : Sends P x) (hPQ : ∀ new a, P new a → Q new a) :
    Sends Q x := by
  intro r
  obtain ⟨new, hnew, hP⟩ := h r
  exact ⟨new, hnew, hPQ new _ hP⟩

/-- What leaves the record alone. -/
theorem silent {x : Step (Recorded σ H) α} (hstate : ∀ r, (x.run r).state.messages = r.messages)
    (h : ∀ r, Q [] (x.run r).answer) : Sends Q x :=
  fun r => ⟨[], by rw [hstate r, List.append_nil], h r⟩

theorem pure {a : α} (h : Q [] a) : Sends Q (Pure.pure a : Step (Recorded σ H) α) :=
  silent (fun _ => rfl) fun _ => h

theorem bind {x : Step (Recorded σ H) α} {f : α → Step (Recorded σ H) β} (hx : Sends P x)
    (hf : ∀ first a, P first a → Sends (fun second b => R (first ++ second) b) (f a)) :
    Sends R (x >>= f) := by
  intro r
  obtain ⟨first, hfirst, hP⟩ := hx r
  obtain ⟨second, hsecond, hR⟩ := hf first _ hP (x.run r).state
  refine ⟨first ++ second, ?_, hR⟩
  rw [← List.append_assoc, ← hfirst]
  exact hsecond

/-- An action ends with the first error, or goes on with the result. -/
theorem andThen {P : List (Message H) → Except Error α → Prop}
    {R : List (Message H) → Except Error β → Prop} {x : Action (Recorded σ H) α}
    {f : α → Action (Recorded σ H) β} (hx : Sends P x.run)
    (herror : ∀ first e, P first (.error e) → R first (.error e))
    (hok : ∀ first a, P first (.ok a) →
      Sends (fun second r => R (first ++ second) r) (f a).run) : Sends R (x >>= f).run := by
  refine bind hx ?_
  intro first result hP
  cases result with
  | error e =>
    refine pure ?_
    rw [List.append_nil]
    exact herror first e hP
  | ok a => exact hok first a hP

theorem lift {x : Step (Recorded σ H) α} (h : Sends Q x) :
    Sends (fun new r => ∃ a, r = .ok a ∧ Q new a) (liftM x : Action (Recorded σ H) α).run := by
  intro r
  obtain ⟨new, hnew, hQ⟩ := h r
  exact ⟨new, hnew, _, rfl, hQ⟩

/-- Turning the result into something else sends nothing. -/
theorem map {P : List (Message H) → Except Error α → Prop} {x : Action (Recorded σ H) α}
    (h : Sends P x.run) (f : α → β) :
    Sends (fun new r' => ∃ r, P new r ∧ r' = r.map f)
      (do return f (← x) : Action (Recorded σ H) β).run := by
  refine andThen h ?_ ?_
  · intro first e hfirst
    exact ⟨.error e, hfirst, rfl⟩
  · intro first a hfirst
    refine pure ⟨.ok a, ?_, rfl⟩
    rw [List.append_nil]
    exact hfirst

theorem ofExcept (r : Except Error α) :
    Sends (fun new r' => new = [] ∧ r' = r)
      (Action.ofExcept r : Action (Recorded σ H) α).run :=
  pure ⟨rfl, rfl⟩

theorem noting (m : Message H) (x : Step σ α) :
    Sends (fun new _ => new = [m]) (noting m x) :=
  fun _ => ⟨[m], rfl, rfl⟩

end Sends

/-- Only messages of a certain kind are sent. -/
def SendsOnly (p : Message H → Prop) (x : Step (Recorded σ H) α) : Prop :=
  Sends (fun new _ => ∀ m ∈ new, p m) x

namespace SendsOnly

variable {p : Message H → Prop}

theorem pure (a : α) : SendsOnly p (Pure.pure a : Step (Recorded σ H) α) :=
  Sends.pure fun _ hm => absurd hm List.not_mem_nil

theorem bind {x : Step (Recorded σ H) α} {f : α → Step (Recorded σ H) β} (hx : SendsOnly p x)
    (hf : ∀ a, SendsOnly p (f a)) : SendsOnly p (x >>= f) := by
  refine Sends.bind hx ?_
  intro first a hfirst
  refine Sends.mono (hf a) ?_
  intro second _ hsecond m hm
  exact (List.mem_append.mp hm).elim (hfirst m) (hsecond m)

theorem andThen {x : Action (Recorded σ H) α} {f : α → Action (Recorded σ H) β}
    (hx : SendsOnly p x.run) (hf : ∀ a, SendsOnly p (f a).run) : SendsOnly p (x >>= f).run := by
  refine bind hx ?_
  intro result
  cases result with
  | error e => exact pure _
  | ok a => exact hf a

theorem lift {x : Step (Recorded σ H) α} (h : SendsOnly p x) :
    SendsOnly p (liftM x : Action (Recorded σ H) α).run := h

/-- The results may be known to be of some kind. -/
theorem andThenOf {Q : α → Prop} {x : Action (Recorded σ H) α} {f : α → Action (Recorded σ H) β}
    (hx : Sends (fun new r => (∀ m ∈ new, p m) ∧ ∀ a, r = .ok a → Q a) x.run)
    (hf : ∀ a, Q a → SendsOnly p (f a).run) : SendsOnly p (x >>= f).run := by
  refine Sends.andThen hx (fun _ _ h => h.1) ?_
  intro first a hfirst
  refine Sends.mono (hf a (hfirst.2 a rfl)) ?_
  intro second _ hsecond m hm
  exact (List.mem_append.mp hm).elim (hfirst.1 m) (hsecond m)

theorem read (f : Recorded σ H → α) : SendsOnly p (Step.read f) :=
  Sends.silent (fun _ => rfl) fun _ _ hm => absurd hm List.not_mem_nil

theorem noting {m : Message H} (hm : p m) (x : Step σ α) : SendsOnly p (noting m x) :=
  Sends.mono (Sends.noting m x) fun new _ hnew m' hm' => by
    subst hnew
    exact List.mem_singleton.mp hm' ▸ hm

end SendsOnly

end Recorded

open Recorded

/-- What is sent when an attribute is added, and the result. The result of what
was sent is up to the store. -/
inductive Adds (e : H) (i : Index) (v : Attribute) : List (Message H) → Except Error Unit → Prop
  | uncounted (error : Error) : Adds e i v [.parameterCount e (.error error)] (.error error)
  | refused (count : UInt32) (error : Error) (h : Placement.check v i (some count) = .error error) :
      Adds e i v [.parameterCount e (.ok count)] (.error error)
  | sent (count : UInt32) (r : Except Error Unit) (h : Placement.check v i (some count) = .ok ()) :
      Adds e i v [.parameterCount e (.ok count), .add e i v] r

/-- What is sent when one item after the other is added: nothing more after the
first one that cannot be built or added. -/
inductive AddsAll (e : H) (i : Index) :
    List (Except Error Attribute) → List (Message H) → Except Error Unit → Prop
  | done : AddsAll e i [] [] (.ok ())
  | unbuilt (error : Error) (rest : List (Except Error Attribute)) :
      AddsAll e i (.error error :: rest) [] (.error error)
  | stopped {v : Attribute} {new : List (Message H)} {error : Error}
      (h : Adds e i v new (.error error)) (rest : List (Except Error Attribute)) :
      AddsAll e i (.ok v :: rest) new (.error error)
  | next {v : Attribute} {rest : List (Except Error Attribute)} {new new' : List (Message H)}
      {r : Except Error Unit} (h : Adds e i v new (.ok ())) (h' : AddsAll e i rest new' r) :
      AddsAll e i (.ok v :: rest) (new ++ new') r

namespace AddsAll

variable {e : H} {i : Index} {x : Except Error Attribute} {items : List (Except Error Attribute)}
  {v : Attribute} {new new' : List (Message H)} {r : Except Error Unit}

theorem single (h : Adds e i v new r) : AddsAll e i [.ok v] new r := by
  cases r with
  | error error => exact stopped h []
  | ok u =>
    have hnext := next h done
    rw [List.append_nil] at hnext
    exact hnext

/-- What fails for the first item fails for all of them. -/
theorem cons_error {error : Error} (h : AddsAll e i [x] new (.error error)) :
    AddsAll e i (x :: items) new (.error error) := by
  cases h with
  | unbuilt => exact unbuilt error items
  | stopped hadds => exact stopped hadds items
  | next hadds hrest => cases hrest

theorem cons_ok (h : AddsAll e i [x] new (.ok ())) (h' : AddsAll e i items new' r) :
    AddsAll e i (x :: items) (new ++ new') r := by
  cases h with
  | next hadds hrest =>
    cases hrest
    rw [List.append_nil]
    exact next hadds h'

/-- A batch is sent item by item. -/
theorem forM {γ : Type} {f : γ → Action (Recorded σ H) Unit} {g : γ → Except Error Attribute}
    (h : ∀ a, Sends (AddsAll e i [g a]) (f a).run) (as : List γ) :
    Sends (AddsAll e i (as.map g)) (as.forM f).run := by
  induction as with
  | nil => exact Sends.pure done
  | cons a rest ih =>
    refine Sends.andThen (h a) ?_ ?_
    · intro first error hfirst
      exact hfirst.cons_error
    · intro first _ hfirst
      refine Sends.mono ih ?_
      intro second r hsecond
      exact hfirst.cons_ok hsecond

end AddsAll

/-- What is sent when the collection at an index is reached for. -/
inductive Reaches (store : Store σ H) (e : H) (i : Index) :
    List (Message H) → Except Error (Collection (Recorded σ H)) → Prop
  | uncounted (error : Error) :
      Reaches store e i [.parameterCount e (.error error)] (.error error)
  | outOfRange (count : UInt32) (error : Error)
      (h : Placement.checkRange i (some count) = .error error) :
      Reaches store e i [.parameterCount e (.ok count)] (.error error)
  | granted (count : UInt32) (h : Placement.checkRange i (some count) = .ok ()) :
      Reaches store e i [.parameterCount e (.ok count)]
        (.ok (View.collection store.recorded ⟨e, i⟩))

section

variable (store : Store σ H)

theorem sends_parameterCount (e : H) :
    Sends (fun new r => new = [.parameterCount e r]) (store.recorded.parameterCount e).run :=
  fun _ => ⟨_, rfl, rfl⟩

theorem sends_collectionAt (e : H) (i : Index) :
    Sends (Reaches store e i) ((store.recorded.attributeSet e).collectionAt i).run := by
  have hview : Sends (fun new r => Reaches store e i new (r.map (View.collection store.recorded)))
      (store.recorded.viewAt e i).run := by
    refine Sends.andThen (sends_parameterCount store e) ?_ ?_
    · rintro _ error rfl
      exact Reaches.uncounted error
    · rintro _ count rfl
      refine Sends.andThen (Sends.ofExcept _) ?_ ?_
      · rintro _ error ⟨rfl, herror⟩
        exact Reaches.outOfRange count error herror.symm
      · rintro _ u ⟨rfl, hok⟩
        exact Sends.pure (Reaches.granted count hok.symm)
  refine Sends.andThen hview ?_ ?_
  · intro first error hfirst
    exact hfirst
  · intro first view hfirst
    refine Sends.pure ?_
    rw [List.append_nil]
    exact hfirst

theorem sends_add (view : View H) (v : Attribute) :
    Sends (Adds view.entity view.index v) (View.add store.recorded view v).run := by
  refine Sends.andThen (sends_parameterCount store view.entity) ?_ ?_
  · rintro _ error rfl
    exact Adds.uncounted error
  · rintro _ count rfl
    refine Sends.andThen (Sends.ofExcept _) ?_ ?_
    · rintro _ error ⟨rfl, herror⟩
      exact Adds.refused count error herror.symm
    · rintro _ u ⟨rfl, hok⟩
      have hreport : Sends (fun new r => new = [] ∧ r = .ok ())
          (Action.report (.viewAdds v (store.recorded.entityText view.entity) view.index) :
            Action (Recorded σ H) Unit).run := Sends.silent (fun _ => rfl) fun _ => ⟨rfl, rfl⟩
      refine Sends.andThen hreport ?_ ?_
      · rintro _ error ⟨-, herror⟩
        cases herror
      · rintro _ u' ⟨rfl, -⟩
        refine Sends.mono (Sends.noting _ _) ?_
        rintro _ r rfl
        exact Adds.sent count r hok.symm

end

/-- Neither changes anything nor names a key. -/
def Message.IsPlain : Message H → Prop
  | .parameterCount _ _ | .count _ _ | .attributes _ _ => True
  | _ => False

section Reading

variable (store : Store σ H) {p : Message H → Prop} (hplain : ∀ m : Message H, m.IsPlain → p m)
include hplain

theorem only_attributes (view : View H) :
    SendsOnly p (View.collection store.recorded view).attributes :=
  SendsOnly.noting (hplain (.attributes _ _) trivial) _

theorem only_size (view : View H) : SendsOnly p (View.collection store.recorded view).size :=
  SendsOnly.bind (SendsOnly.noting (hplain (.count _ _) trivial) _) fun _ => SendsOnly.pure _

theorem only_isEmpty (view : View H) : SendsOnly p (View.collection store.recorded view).isEmpty :=
  SendsOnly.bind (only_size store hplain view) fun _ => SendsOnly.pure _

theorem only_text (view : View H) : SendsOnly p (View.collection store.recorded view).text :=
  SendsOnly.bind (only_attributes store hplain view) fun _ => SendsOnly.pure _

theorem only_summary (view : View H) :
    SendsOnly p (View.collection store.recorded view).summary := by
  refine SendsOnly.bind (SendsOnly.read _) fun _ => ?_
  refine SendsOnly.bind (only_size store hplain view) fun _ => ?_
  refine SendsOnly.bind (only_isEmpty store hplain view) fun _ => ?_
  refine SendsOnly.bind (only_attributes store hplain view) fun _ => ?_
  exact SendsOnly.bind (only_text store hplain view) fun _ => SendsOnly.pure _

/-- Reaching for an index counts the parameters. -/
theorem only_at (e : H) (i : Index)
    {f : Collection (Recorded σ H) → Action (Recorded σ H) α}
    (hf : SendsOnly p (f (View.collection store.recorded ⟨e, i⟩)).run) :
    SendsOnly p (((store.recorded.attributeSet e).collectionAt i) >>= f).run := by
  refine SendsOnly.andThenOf (Q := fun c => c = View.collection store.recorded ⟨e, i⟩) ?_ ?_
  · refine Sends.mono (sends_collectionAt store e i) ?_
    intro new r hreach
    cases hreach with
    | uncounted error =>
      refine ⟨?_, fun _ hr => by cases hr⟩
      intro m hm
      exact List.mem_singleton.mp hm ▸ hplain _ trivial
    | outOfRange count error hrange =>
      refine ⟨?_, fun _ hr => by cases hr⟩
      intro m hm
      exact List.mem_singleton.mp hm ▸ hplain _ trivial
    | granted count hrange =>
      refine ⟨?_, fun _ hr => (Except.ok.inj hr).symm⟩
      intro m hm
      exact List.mem_singleton.mp hm ▸ hplain _ trivial
  · rintro c rfl
    exact hf

omit hplain in
theorem only_find? (view : View H) (key : Key)
    (hfind : key.isBlank = false → p (.find view.entity view.index key)) :
    SendsOnly p ((View.collection store.recorded view).find? key) := by
  simp only [View.collection, View.find?]
  cases hblank : key.isBlank with
  | true => exact SendsOnly.pure _
  | false => exact SendsOnly.noting (hfind hblank) _

omit hplain in
theorem only_has (view : View H) (key : Key)
    (hfind : key.isBlank = false → p (.find view.entity view.index key)) :
    SendsOnly p ((View.collection store.recorded view).has key) :=
  SendsOnly.bind (only_find? store view key hfind) fun _ => SendsOnly.pure _

theorem only_parameterCount (e : H) :
    SendsOnly p (store.recorded.attributeSet e).parameterCount := by
  refine SendsOnly.bind ?_ fun _ => SendsOnly.pure _
  refine Sends.mono (sends_parameterCount store e) ?_
  rintro _ r rfl m hm
  exact List.mem_singleton.mp hm ▸ hplain _ trivial

theorem only_parameterSummary (e : H) (position : UInt32) :
    SendsOnly p ((store.recorded.attributeSet e).parameterSummary position).run := by
  simp only [AttributeSet.parameterSummary, AttributeSet.parameterCollection, bind_assoc]
  refine SendsOnly.andThen (SendsOnly.lift (only_parameterCount store hplain e)) fun _ => ?_
  refine SendsOnly.andThen (SendsOnly.pure _) fun _ => ?_
  exact only_at store hplain e _ (SendsOnly.lift (only_summary store hplain _))

theorem only_payload (e : H) (i : Index) (kind : Kind) (hfind : p (.find e i (.kind kind))) :
    SendsOnly p ((store.recorded.attributeSet e).payload i kind).run := by
  refine only_at store hplain e i ?_
  refine SendsOnly.andThen (SendsOnly.lift (only_find? store _ _ fun _ => hfind)) fun found => ?_
  cases found with
  | none => exact SendsOnly.pure _
  | some v =>
    simp only
    cases v.payload? with
    | none => exact SendsOnly.pure _
    | some n => exact SendsOnly.pure _

end Reading

end IRAttributes
