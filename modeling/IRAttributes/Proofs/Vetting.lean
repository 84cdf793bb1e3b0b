import Mathlib.Data.List.Induction
import IRAttributes.Proofs.RelatedRequests
import IRAttributes.Proofs.Transcript

/-!
How sets and views of a store vet what they pass on. Whatever the store answers,
no attribute reaches it that was not checked against the number of parameters
just before; of the attributes that a request is to add, the first ones are
sent, each once and as given, and the rest is kept back when one of them fails;
and nothing is removed or looked up under the empty name.
-/
namespace IRAttributes

variable {σ α H : Type}

namespace Message

def added? : Message H → Option (H × Index × Attribute)
  | .add e i v => some (e, i, v)
  | _ => none

def removed? : Message H → Option (H × Index × Key)
  | .remove e i key => some (e, i, key)
  | _ => none

def sought? : Message H → Option (H × Index × Key)
  | .find e i key => some (e, i, key)
  | _ => none

end Message

namespace CollectionRequest

/-- The attribute of a kind without an integer, if there may be one on the index. -/
def flagOn (index : Index) (kind : Kind) : Except Error Attribute := do
  Placement.checkFlag kind index
  Attribute.ofKind kind

/-- The attributes that a request is to add, one after the other, or why one
cannot be built for the index. -/
def items (index : Index) : CollectionRequest → List (Except Error Attribute)
  | .add v => [.ok v]
  | .addKind kind => [flagOn index kind]
  | .addPayload kind n => [do Placement.checkPayload kind index; Attribute.ofPayload kind n]
  | .addNamed name value => [Attribute.ofName name value]
  | _ => []

def removal? : CollectionRequest → Option Key
  | .removeLike v => some v.key
  | .remove key => some key
  | _ => none

def lookup? : CollectionRequest → Option Key
  | .find key | .has key => some key
  | _ => none

end CollectionRequest

namespace SetRequest

def items : SetRequest → List (Except Error Attribute)
  | .addKind index kind => (CollectionRequest.addKind kind).items index
  | .addKinds index kinds => kinds.map (CollectionRequest.flagOn index)
  | .addPayload index kind n => (CollectionRequest.addPayload kind n).items index
  | .add index v => (CollectionRequest.add v).items index
  | .addAll _ vs => vs.map .ok
  | _ => []

def removal? : SetRequest → Option Key
  | .remove _ key => some key
  | _ => none

def lookup? : SetRequest → Option Key
  | .has _ key => some key
  | .payload _ kind => some (.kind kind)
  | _ => none

end SetRequest

/-- A request that is made through a set or through a view of a store. -/
inductive Use (H : Type)
  | onSet (entity : H) (request : SetRequest)
  | onView (view : View H) (request : CollectionRequest)

namespace Use

def entity : Use H → H
  | .onSet entity _ => entity
  | .onView view _ => view.entity

/-- The index that a use is about; counting parameters is about none in particular. -/
def index : Use H → Index
  | .onSet _ request => request.index?.getD .function
  | .onView view _ => view.index

def items : Use H → List (Except Error Attribute)
  | .onSet _ request => request.items
  | .onView view request => request.items view.index

def removal? : Use H → Option Key
  | .onSet _ request => request.removal?
  | .onView _ request => request.removal?

def lookup? : Use H → Option Key
  | .onSet _ request => request.lookup?
  | .onView _ request => request.lookup?

/-- A key at the place that a use is about, unless it is empty. -/
def under (u : Use H) (key? : Option Key) : List (H × Index × Key) :=
  (key?.filter fun key => !key.isBlank).toList.map fun key => (u.entity, u.index, key)

def run (store : Store σ H) : Use H → Action σ Answer
  | .onSet entity request => request.run (store.attributeSet entity)
  | .onView view request => request.run (view.collection store)

end Use

/-- Every addition comes right after the parameters of its entity were counted,
with a count that the index is in range of, and the attribute is legal there. -/
def Vetted (messages : List (Message H)) : Prop :=
  ∀ before e i v after, messages = before ++ .add e i v :: after →
    ∃ earlier count, before = earlier ++ [.parameterCount e (.ok count)] ∧
      Placement.InRange i (some count) ∧ Placement.Legal v i

/-- Why an item was not sent, with the error that was answered. -/
inductive Halts (e : H) (i : Index) (new : List (Message H)) (error : Error)
    (x : Except Error Attribute) : Prop
  | uncounted (h : new.getLast? = some (.parameterCount e (.error error)))
  | outOfRange (count : UInt32) (h : new.getLast? = some (.parameterCount e (.ok count)))
      (hrange : Placement.checkRange i (some count) = .error error)
  | unbuilt (hx : x = .error error)
  | illegal (count : UInt32) (v : Attribute) (hx : x = .ok v)
      (h : new.getLast? = some (.parameterCount e (.ok count)))
      (hcheck : Placement.check v i (some count) = .error error)
  /-- The store refused the attribute before. -/
  | byStore (v : Attribute) (h : new.getLast? = some (.add e i v))

/-- What a use conveys to the store. Of its items the first ones are sent, in
order, once each and as given, and what is left has a reason; a key is removed
if the use succeeds, and looked up at most, unless it is empty. -/
structure Use.Conveys (u : Use H) (new : List (Message H)) (answer : Except Error Answer) :
    Prop where
  vetted : Vetted new
  items : ∃ (sent : List Attribute) (unsent : List (Except Error Attribute)),
    u.items = sent.map .ok ++ unsent ∧
    new.filterMap Message.added? = sent.map (fun v => (u.entity, u.index, v)) ∧
    ∀ x more, unsent = x :: more → ∃ error, answer = .error error ∧
      Halts u.entity u.index new error x
  removals : new.filterMap Message.removed? =
    match answer with
    | .ok _ => u.under u.removal?
    | .error _ => []
  lookups : ∀ sought ∈ new.filterMap Message.sought?, sought ∈ u.under u.lookup?

namespace Vetted

variable {messages messages' : List (Message H)}

theorem of_added?_eq_none (h : ∀ m ∈ messages, m.added? = none) : Vetted messages := by
  rintro before e i v after rfl
  have hadd := h (.add e i v) (List.mem_append_right before List.mem_cons_self)
  cases hadd

theorem append (h : Vetted messages) (h' : Vetted messages') : Vetted (messages ++ messages') := by
  intro before e i v after hsplit
  rcases List.append_eq_append_iff.mp hsplit with ⟨between, rfl, hrest⟩ | ⟨between, rfl, hrest⟩
  · obtain ⟨earlier, count, rfl, hplace⟩ := h' between e i v after hrest
    exact ⟨messages ++ earlier, count, (List.append_assoc _ _ _).symm, hplace⟩
  · cases between with
    | nil =>
      -- an addition never comes first, so it cannot be the first of the second part
      obtain ⟨earlier, count, hnil, -⟩ := h' [] e i v after hrest.symm
      simp at hnil
    | cons m between =>
      cases hrest
      exact h before e i v between rfl

end Vetted

namespace Adds

variable {e : H} {i : Index} {v : Attribute} {new : List (Message H)} {r : Except Error Unit}

theorem vetted (h : Adds e i v new r) : Vetted new := by
  cases h with
  | uncounted error =>
    refine Vetted.of_added?_eq_none ?_
    simp [Message.added?]
  | refused count error hcheck =>
    refine Vetted.of_added?_eq_none ?_
    simp [Message.added?]
  | sent count r hcheck =>
    have hplace := (Placement.check_eq_ok_iff v i (some count)).mp hcheck
    intro before e' i' v' after hsplit
    cases before with
    | nil => cases hsplit
    | cons m before =>
      cases before with
      | nil =>
        cases hsplit
        exact ⟨[], count, rfl, hplace⟩
      | cons m' before => simp at hsplit

theorem removed? (h : Adds e i v new r) : new.filterMap Message.removed? = [] := by
  cases h <;> rfl

theorem sought? (h : Adds e i v new r) : new.filterMap Message.sought? = [] := by
  cases h <;> rfl

end Adds

namespace AddsAll

variable {e : H} {i : Index} {items : List (Except Error Attribute)} {new : List (Message H)}
  {r : Except Error Unit}

theorem vetted (h : AddsAll e i items new r) : Vetted new := by
  induction h with
  | done | unbuilt => exact Vetted.of_added?_eq_none fun _ hm => absurd hm List.not_mem_nil
  | stopped hadds => exact hadds.vetted
  | next hadds _ ih => exact hadds.vetted.append ih

theorem removed? (h : AddsAll e i items new r) : new.filterMap Message.removed? = [] := by
  induction h with
  | done | unbuilt => rfl
  | stopped hadds => exact hadds.removed?
  | next hadds _ ih => rw [List.filterMap_append, hadds.removed?, ih, List.nil_append]

theorem sought? (h : AddsAll e i items new r) : new.filterMap Message.sought? = [] := by
  induction h with
  | done | unbuilt => rfl
  | stopped hadds => exact hadds.sought?
  | next hadds _ ih => rw [List.filterMap_append, hadds.sought?, ih, List.nil_append]

end AddsAll

private theorem getLast?_prepend {first new : List (Message H)} {m : Message H}
    (h : new.getLast? = some m) : (first ++ new).getLast? = some m := by
  rw [List.getLast?_append, h, Option.some_or]

/-- The reason stays the same if more was sent before. -/
theorem Halts.prepend {e : H} {i : Index} {new : List (Message H)} {error : Error}
    {x : Except Error Attribute} (h : Halts e i new error x) (first : List (Message H)) :
    Halts e i (first ++ new) error x := by
  cases h with
  | uncounted h => exact uncounted (getLast?_prepend h)
  | outOfRange count h hrange => exact outOfRange count (getLast?_prepend h) hrange
  | unbuilt hx => exact unbuilt hx
  | illegal count v hx h hcheck => exact illegal count v hx (getLast?_prepend h) hcheck
  | byStore v h => exact byStore v (getLast?_prepend h)

/-- The first items are sent, once each, and what is left has a reason. -/
theorem AddsAll.items {e : H} {i : Index} {items : List (Except Error Attribute)}
    {new : List (Message H)} {r : Except Error Unit} (h : AddsAll e i items new r) :
    ∃ (sent : List Attribute) (unsent : List (Except Error Attribute)),
      items = sent.map .ok ++ unsent ∧
      new.filterMap Message.added? = sent.map (fun v => (e, i, v)) ∧
      ∀ x more, unsent = x :: more → ∃ error, r = .error error ∧ Halts e i new error x := by
  induction h with
  | done => exact ⟨[], [], rfl, rfl, fun _ _ hnil => by cases hnil⟩
  | unbuilt error rest =>
    refine ⟨[], .error error :: rest, rfl, rfl, ?_⟩
    intro x more hcons
    cases hcons
    exact ⟨error, rfl, Halts.unbuilt rfl⟩
  | @stopped v new error h rest =>
    cases h with
    | uncounted =>
      refine ⟨[], .ok v :: rest, rfl, rfl, ?_⟩
      intro x more _
      exact ⟨error, rfl, Halts.uncounted rfl⟩
    | refused count error hcheck =>
      refine ⟨[], .ok v :: rest, rfl, rfl, ?_⟩
      intro x more hcons
      cases hcons
      exact ⟨error, rfl, Halts.illegal count v rfl rfl hcheck⟩
    | sent count r hcheck =>
      refine ⟨[v], rest, rfl, rfl, ?_⟩
      intro x more _
      exact ⟨error, rfl, Halts.byStore v rfl⟩
  | @next v rest new new' r h _ ih =>
    obtain ⟨sent, unsent, rfl, hadded, hunsent⟩ := ih
    cases h with
    | sent count r hcheck =>
      refine ⟨v :: sent, unsent, rfl, ?_, ?_⟩
      · rw [List.filterMap_append, hadded]
        rfl
      · intro x more hcons
        obtain ⟨error, herror, hhalts⟩ := hunsent x more hcons
        exact ⟨error, herror, hhalts.prepend _⟩

namespace Use

variable {u : Use H} {new opening body : List (Message H)} {answer : Except Error Answer}

/-- Counting and listing conveys nothing. -/
private theorem filterMap_plain (hopening : ∀ m ∈ opening, m.IsPlain) :
    opening.filterMap Message.added? = [] ∧ opening.filterMap Message.removed? = [] ∧
      opening.filterMap Message.sought? = [] := by
  have hnone : ∀ m ∈ opening, m.added? = none ∧ m.removed? = none ∧ m.sought? = none := by
    intro m hm
    have hplain := hopening m hm
    cases m with
    | parameterCount | count | attributes => exact ⟨rfl, rfl, rfl⟩
    | add | remove | find => exact False.elim hplain
  refine ⟨?_, ?_, ?_⟩
  · exact List.filterMap_eq_nil_iff.mpr fun m hm => (hnone m hm).1
  · exact List.filterMap_eq_nil_iff.mpr fun m hm => (hnone m hm).2.1
  · exact List.filterMap_eq_nil_iff.mpr fun m hm => (hnone m hm).2.2

private theorem vetted_of_filterMap (h : new.filterMap Message.added? = []) : Vetted new :=
  Vetted.of_added?_eq_none (List.filterMap_eq_nil_iff.mp h)

/-- What may be sent by a use that only reads. -/
def Quiet (u : Use H) (m : Message H) : Prop :=
  m.added? = none ∧ m.removed? = none ∧ ∀ sought ∈ m.sought?, sought ∈ u.under u.lookup?

theorem quiet_of_isPlain (u : Use H) (m : Message H) (h : m.IsPlain) : u.Quiet m := by
  cases m with
  | parameterCount | count | attributes => exact ⟨rfl, rfl, fun _ hnone => by cases hnone⟩
  | add | remove | find => exact False.elim h

theorem quiet_find {key : Key} (hlookup : u.lookup? = some key) (hblank : key.isBlank = false) :
    u.Quiet (.find u.entity u.index key) := by
  refine ⟨rfl, rfl, ?_⟩
  intro sought hsought
  cases hsought
  simp [under, hlookup, Option.filter, hblank]

/-- A use that only reads conveys nothing. -/
theorem Conveys.reading (hitems : u.items = []) (hremoval : u.removal? = none)
    (h : ∀ m ∈ new, u.Quiet m) : u.Conveys new answer where
  vetted := Vetted.of_added?_eq_none fun m hm => (h m hm).1
  items := by
    refine ⟨[], [], hitems, ?_, fun _ _ hnil => by cases hnil⟩
    exact List.filterMap_eq_nil_iff.mpr fun m hm => (h m hm).1
  removals := by
    have hnone : new.filterMap Message.removed? = [] :=
      List.filterMap_eq_nil_iff.mpr fun m hm => (h m hm).2.1
    rw [hnone, hremoval]
    cases answer <;> rfl
  lookups := by
    intro sought hsought
    obtain ⟨m, hm, hmsought⟩ := List.mem_filterMap.mp hsought
    exact (h m hm).2.2 sought hmsought

/-- A use that does not reach its index conveys nothing. -/
theorem Conveys.unreached {store : Store σ H} {error : Error}
    (h : Reaches store u.entity u.index new (.error error)) : u.Conveys new (.error error) := by
  have hhalts : ∀ x, Halts u.entity u.index new error x := by
    intro x
    cases h with
    | uncounted => exact Halts.uncounted rfl
    | outOfRange count _ hrange => exact Halts.outOfRange count rfl hrange
  have hplain : ∀ m ∈ new, m.IsPlain := by
    cases h with
    | uncounted | outOfRange => exact List.forall_mem_singleton.mpr trivial
  obtain ⟨hadded, hremoved, hsought⟩ := filterMap_plain hplain
  refine ⟨vetted_of_filterMap hadded, ?_, hremoved, ?_⟩
  · exact ⟨[], u.items, rfl, hadded, fun x _ _ => ⟨error, rfl, hhalts x⟩⟩
  · rw [hsought]
    exact fun _ hnil => absurd hnil List.not_mem_nil

/-- A use that adds its items after some counting. -/
theorem Conveys.adding {r : Except Error Unit} (hremoval : u.removal? = none)
    (hopening : ∀ m ∈ opening, m.IsPlain) (h : AddsAll u.entity u.index u.items body r) :
    u.Conveys (opening ++ body) (r.map fun _ => .done) := by
  obtain ⟨hadded, hremoved, hsought⟩ := filterMap_plain hopening
  obtain ⟨sent, unsent, hitems, hsent, hunsent⟩ := h.items
  refine ⟨(vetted_of_filterMap hadded).append h.vetted, ?_, ?_, ?_⟩
  · refine ⟨sent, unsent, hitems, ?_, ?_⟩
    · rw [List.filterMap_append, hadded, hsent, List.nil_append]
    · intro x more hcons
      obtain ⟨error, rfl, hhalts⟩ := hunsent x more hcons
      exact ⟨error, rfl, hhalts.prepend opening⟩
  · rw [List.filterMap_append, hremoved, h.removed?, hremoval]
    cases r <;> rfl
  · rw [List.filterMap_append, hsought, h.sought?]
    exact fun _ hnil => absurd hnil List.not_mem_nil

/-- A use that removes a key after some counting. -/
theorem Conveys.removing {a : Answer} (hitems : u.items = [])
    (hopening : ∀ m ∈ opening, m.IsPlain)
    (hbody : body = (u.under u.removal?).map fun (e, i, key) => .remove e i key) :
    u.Conveys (opening ++ body) (.ok a) := by
  obtain ⟨hadded, hremoved, hsought⟩ := filterMap_plain hopening
  have hnone : (opening ++ body).filterMap Message.added? = [] := by
    rw [List.filterMap_append, hadded, List.nil_append, hbody, List.filterMap_map]
    exact List.filterMap_eq_nil_iff.mpr fun _ _ => rfl
  have hremovals : (opening ++ body).filterMap Message.removed? = u.under u.removal? := by
    rw [List.filterMap_append, hremoved, List.nil_append, hbody, List.filterMap_map]
    exact List.filterMap_some
  have hlookups : (opening ++ body).filterMap Message.sought? = [] := by
    rw [List.filterMap_append, hsought, List.nil_append, hbody, List.filterMap_map]
    exact List.filterMap_eq_nil_iff.mpr fun _ _ => rfl
  refine ⟨vetted_of_filterMap hnone, ?_, hremovals, ?_⟩
  · exact ⟨[], [], hitems, hnone, fun _ _ hnil => by cases hnil⟩
  · rw [hlookups]
    exact fun _ hnil => absurd hnil List.not_mem_nil

section Requests

open Recorded

variable (store : Store σ H) (view : View H)

/-- An item that was checked and built is added as it is. -/
private theorem sends_item (checked : Except Error Unit) (built : Except Error Attribute) :
    Sends (AddsAll view.entity view.index [do checked; built])
      (do
        Action.ofExcept checked
        View.add store.recorded view (← Action.ofExcept built)).run := by
  refine Sends.andThen (Sends.ofExcept checked) ?_ ?_
  · rintro _ error ⟨rfl, rfl⟩
    exact AddsAll.unbuilt error []
  · rintro _ u ⟨rfl, rfl⟩
    refine Sends.andThen (Sends.ofExcept built) ?_ ?_
    · rintro _ error ⟨rfl, rfl⟩
      exact AddsAll.unbuilt error []
    · rintro _ v ⟨rfl, rfl⟩
      exact Sends.mono (sends_add store view v) fun _ _ h => AddsAll.single h

theorem sends_addKind (kind : Kind) :
    Sends (AddsAll view.entity view.index ((CollectionRequest.addKind kind).items view.index))
      ((View.collection store.recorded view).addKind kind).run :=
  sends_item store view _ _

theorem sends_addPayload (kind : Kind) (n : UInt64) :
    Sends
      (AddsAll view.entity view.index ((CollectionRequest.addPayload kind n).items view.index))
      ((View.collection store.recorded view).addPayload kind n).run :=
  sends_item store view _ _

theorem sends_addNamed (name value : String) :
    Sends
      (AddsAll view.entity view.index ((CollectionRequest.addNamed name value).items view.index))
      ((View.collection store.recorded view).addNamed name value).run :=
  sends_item store view (.ok ()) _

theorem sends_addOne (v : Attribute) :
    Sends (AddsAll view.entity view.index ((CollectionRequest.add v).items view.index))
      (View.add store.recorded view v).run :=
  Sends.mono (sends_add store view v) fun _ _ h => AddsAll.single h

theorem sends_addKinds (kinds : List Kind) :
    Sends (AddsAll view.entity view.index ((SetRequest.addKinds view.index kinds).items))
      ((View.collection store.recorded view).addKinds kinds).run :=
  AddsAll.forM (sends_addKind store view) kinds

theorem sends_addAll (vs : List Attribute) :
    Sends (AddsAll view.entity view.index ((SetRequest.addAll view.index vs).items))
      ((View.collection store.recorded view).addAll vs).run :=
  AddsAll.forM (sends_addOne store view) vs

/-- Nothing is sent for a blank key. -/
theorem sends_remove (key : Key) :
    Sends (fun new _ => new = if key.isBlank then [] else [.remove view.entity view.index key])
      (View.remove store.recorded view key) := by
  unfold View.remove
  cases key.isBlank with
  | true => exact Sends.pure rfl
  | false => exact Sends.noting _ _

variable {u : Use H}

/-- What only reads conveys nothing. -/
private theorem sends_reading {x : Action (Recorded σ H) α} {f : α → Answer}
    (hitems : u.items = []) (hremoval : u.removal? = none) (hx : SendsOnly u.Quiet x.run) :
    Sends u.Conveys (do return f (← x) : Action (Recorded σ H) Answer).run := by
  have honly : SendsOnly u.Quiet (do return f (← x) : Action (Recorded σ H) Answer).run :=
    SendsOnly.andThen hx fun _ => SendsOnly.pure _
  exact Sends.mono honly fun new r hnew => Conveys.reading hitems hremoval hnew

private theorem sends_adding {opening : List (Message H)} {x : Action (Recorded σ H) Unit}
    (hremoval : u.removal? = none) (hopening : ∀ m ∈ opening, m.IsPlain)
    (hx : Sends (AddsAll u.entity u.index u.items) x.run) :
    Sends (fun body r => u.Conveys (opening ++ body) r)
      (do x; return .done : Action (Recorded σ H) Answer).run := by
  refine Sends.mono (Sends.map hx fun _ => Answer.done) ?_
  rintro body _ ⟨r, hbody, rfl⟩
  exact Conveys.adding hremoval hopening hbody

private theorem sends_removing (opening : List (Message H)) (key : Key) (hitems : u.items = [])
    (hremoval : u.removal? = some key) (hopening : ∀ m ∈ opening, m.IsPlain) :
    Sends (fun body r => u.Conveys (opening ++ body) r)
      (do
        liftM (View.remove store.recorded ⟨u.entity, u.index⟩ key)
        return .done : Action (Recorded σ H) Answer).run := by
  refine Sends.mono (Sends.map (Sends.lift (sends_remove store _ key)) fun _ => Answer.done) ?_
  rintro body _ ⟨_, ⟨_, rfl, hbody⟩, rfl⟩
  refine Conveys.removing hitems hopening ?_
  rw [hbody, hremoval, under]
  cases hblank : key.isBlank <;> simp [Option.filter, hblank]

/-- A request on an index first reaches for it. -/
private theorem sends_reached {f : Collection (Recorded σ H) → Action (Recorded σ H) Answer}
    (hf : ∀ count,
      Sends (fun body r => u.Conveys ([.parameterCount u.entity (.ok count)] ++ body) r)
        (f (View.collection store.recorded ⟨u.entity, u.index⟩)).run) :
    Sends u.Conveys ((store.recorded.attributeSet u.entity).collectionAt u.index >>= f).run := by
  refine Sends.andThen (sends_collectionAt store u.entity u.index) ?_ ?_
  · intro first error hreach
    exact Conveys.unreached hreach
  · intro first reached hreach
    cases hreach with
    | granted count hrange => exact hf count

theorem sends_onView (request : CollectionRequest) :
    Sends (Use.onView view request).Conveys (request.run (view.collection store.recorded)).run := by
  have hquiet := (Use.onView view request).quiet_of_isPlain
  have hplain : ∀ m ∈ ([] : List (Message H)), m.IsPlain := fun m hm => absurd hm List.not_mem_nil
  cases request with
  | summary => exact sends_reading rfl rfl (SendsOnly.lift (only_summary store hquiet view))
  | index => exact sends_reading rfl rfl (SendsOnly.lift (SendsOnly.read _))
  | find key =>
    exact sends_reading rfl rfl (SendsOnly.lift (only_find? store view key (quiet_find rfl)))
  | attributes => exact sends_reading rfl rfl (SendsOnly.lift (only_attributes store hquiet view))
  | size => exact sends_reading rfl rfl (SendsOnly.lift (only_size store hquiet view))
  | isEmpty => exact sends_reading rfl rfl (SendsOnly.lift (only_isEmpty store hquiet view))
  | has key =>
    exact sends_reading rfl rfl (SendsOnly.lift (only_has store view key (quiet_find rfl)))
  | text => exact sends_reading rfl rfl (SendsOnly.lift (only_text store hquiet view))
  | add v => exact sends_adding rfl hplain (sends_addOne store view v)
  | addKind kind => exact sends_adding rfl hplain (sends_addKind store view kind)
  | addPayload kind n => exact sends_adding rfl hplain (sends_addPayload store view kind n)
  | addNamed name value => exact sends_adding rfl hplain (sends_addNamed store view name value)
  | removeLike v => exact sends_removing store [] v.key rfl rfl hplain
  | remove key => exact sends_removing store [] key rfl rfl hplain

theorem sends_onSet (e : H) (request : SetRequest) :
    Sends (Use.onSet e request).Conveys
      (request.run (store.recorded.attributeSet e)).run := by
  have hquiet := (Use.onSet e request).quiet_of_isPlain
  have hcounted : ∀ count, ∀ m ∈ [Message.parameterCount e (.ok count)], m.IsPlain :=
    fun count => List.forall_mem_singleton.mpr trivial
  cases request with
  | summary index =>
    exact sends_reading rfl rfl
      (only_at store hquiet e index (SendsOnly.lift (only_summary store hquiet _)))
  | parameterSummary position =>
    exact sends_reading rfl rfl (only_parameterSummary store hquiet e position)
  | parameterCount =>
    exact sends_reading rfl rfl (SendsOnly.lift (only_parameterCount store hquiet e))
  | addKind index kind =>
    simp only [SetRequest.run, AttributeSet.addKind, bind_assoc]
    exact sends_reached store fun count =>
      sends_adding rfl (hcounted count) (sends_addKind store ⟨e, index⟩ kind)
  | addKinds index kinds =>
    simp only [SetRequest.run, AttributeSet.addKinds, bind_assoc]
    exact sends_reached store fun count =>
      sends_adding rfl (hcounted count) (sends_addKinds store ⟨e, index⟩ kinds)
  | addPayload index kind n =>
    simp only [SetRequest.run, AttributeSet.addPayload, bind_assoc]
    exact sends_reached store fun count =>
      sends_adding rfl (hcounted count) (sends_addPayload store ⟨e, index⟩ kind n)
  | add index v =>
    simp only [SetRequest.run, AttributeSet.add, bind_assoc]
    exact sends_reached store fun count =>
      sends_adding rfl (hcounted count) (sends_addOne store ⟨e, index⟩ v)
  | addAll index vs =>
    simp only [SetRequest.run, AttributeSet.addAll, bind_assoc]
    exact sends_reached store fun count =>
      sends_adding rfl (hcounted count) (sends_addAll store ⟨e, index⟩ vs)
  | remove index key =>
    simp only [SetRequest.run, AttributeSet.remove, bind_assoc]
    exact sends_reached store fun count => sends_removing store _ key rfl rfl (hcounted count)
  | has index key =>
    exact sends_reading rfl rfl
      (only_at store hquiet e index (SendsOnly.lift (only_has store _ key (quiet_find rfl))))
  | hasAny index =>
    exact sends_reading rfl rfl (only_at store hquiet e index
      (SendsOnly.andThen (SendsOnly.lift (only_isEmpty store hquiet _)) fun _ => SendsOnly.pure _))
  | text index =>
    exact sends_reading rfl rfl
      (only_at store hquiet e index (SendsOnly.lift (only_text store hquiet _)))
  | payload index kind =>
    exact sends_reading rfl rfl (only_payload store hquiet e index kind (quiet_find rfl rfl))

end Requests

end Use

namespace Recorded

/-- The recorded store is in a certain state. -/
def Holds (r : Recorded σ H) (s : σ) : Prop := r.store = s

/-- Recording changes neither the answers nor what the store does. -/
private theorem related_plain {Q : α → α → Prop} {x : Step (Recorded σ H) α} {y : Step σ α}
    (hQ : ∀ s, Q (y.run s).answer (y.run s).answer)
    (hanswer : ∀ r, (x.run r).answer = (y.run r.store).answer)
    (hstate : ∀ r, (x.run r).state.store = (y.run r.store).state) :
    Step.Related Holds Q x y := by
  rintro r _ rfl
  refine ⟨?_, hstate r⟩
  rw [hanswer]
  exact hQ r.store

theorem reads (store : Store σ H) (e : H) (i : Index) :
    store.recorded.Reads Holds (fun _ => True) store e i where
  parameterCount := related_plain (fun _ => Action.agree_self _) (fun _ => rfl) fun _ => rfl
  count := related_plain (fun _ => rfl) (fun _ => rfl) fun _ => rfl
  attributes :=
    related_plain (fun _ => ⟨rfl, fun _ _ => trivial⟩) (fun _ => rfl) fun _ => rfl
  find? _ := related_plain (fun _ => rfl) (fun _ => rfl) fun _ => rfl

theorem writes (store : Store σ H) (e : H) (i : Index) :
    store.recorded.Writes Holds (fun _ => True) store e i where
  parameterCount := related_plain (fun _ => Action.agree_self _) (fun _ => rfl) fun _ => rfl
  add _ _ := related_plain (fun _ => Action.agree_self _) (fun _ => rfl) fun _ => rfl
  remove _ := related_plain (fun _ => rfl) (fun _ => rfl) fun _ => rfl

end Recorded

namespace Use

variable (store : Store σ H)

/-- A use gets the same answer from a store whether or not that is recorded. -/
theorem run_recorded (u : Use H) :
    Action.Related Recorded.Holds Eq (u.run store.recorded) (u.run store) := by
  cases u with
  | onSet e request =>
    refine SetRequest.run_related (fun _ _ => trivial) (fun _ _ => trivial)
      (Store.related_parameterCount (Recorded.reads store e .function).parameterCount) ?_ ?_
    · intro index _
      have hreads := Recorded.reads store e index
      exact AttributeSet.Reads.of_count (Store.related_parameterCount hreads.parameterCount)
        (Store.related_collectionAt hreads.parameterCount hreads.view)
    · intro index _
      have hwrites := Recorded.writes store e index
      exact Store.related_collectionAt hwrites.parameterCount hwrites.view
  | onView view request =>
    exact CollectionRequest.run_related request (fun _ _ => trivial) (fun _ _ => trivial)
      (Recorded.reads store view.entity view.index).view
      (Recorded.writes store view.entity view.index).view

theorem sends (u : Use H) : Recorded.Sends u.Conveys (u.run store.recorded).run := by
  cases u with
  | onSet e request => exact sends_onSet store e request
  | onView view request => exact sends_onView store view request

end Use

namespace Store

variable (store : Store σ H)

/-- The state of a store after some uses. -/
def after (s : σ) (uses : List (Use H)) : σ :=
  uses.foldl (fun s u => ((u.run store).run.run s).state) s

/-- What the store was sent. -/
def transcript (s : σ) (uses : List (Use H)) : List (Message H) :=
  (store.recorded.after ⟨s, []⟩ uses).messages

theorem transcript_append (s : σ) (earlier : List (Use H)) (u : Use H) :
    ∃ new, store.transcript s (earlier ++ [u]) = store.transcript s earlier ++ new ∧
      u.Conveys new ((u.run store).run.run (store.after s earlier)).answer := by
  have hholds : ∀ uses, (store.recorded.after ⟨s, []⟩ uses).store = store.after s uses := by
    intro uses
    induction uses using List.reverseRecOn with
    | nil => rfl
    | append_singleton uses u ih =>
      simp only [after, List.foldl_append, List.foldl_cons, List.foldl_nil]
      exact (u.run_recorded store _ _ ih).2
  have hanswer := (u.run_recorded store _ _ (hholds earlier)).1
  obtain ⟨new, hnew, hconveys⟩ := u.sends store (store.recorded.after ⟨s, []⟩ earlier)
  refine ⟨new, ?_, Action.agree_eq_iff.mp hanswer ▸ hconveys⟩
  simp only [transcript, after, List.foldl_append, List.foldl_cons, List.foldl_nil]
  exact hnew

/-- Whatever a store answers and however it changes, nothing gets into it that
was not vetted, and every use conveys to it what it is about and no more. -/
theorem vetted_and_conveyed (s : σ) :
    (∀ uses : List (Use H), Vetted (store.transcript s uses)) ∧
      ∀ (earlier : List (Use H)) (u : Use H), ∃ new,
        store.transcript s (earlier ++ [u]) = store.transcript s earlier ++ new ∧
          u.Conveys new ((u.run store).run.run (store.after s earlier)).answer := by
  refine ⟨?_, store.transcript_append s⟩
  intro uses
  induction uses using List.reverseRecOn with
  | nil => exact Vetted.of_added?_eq_none fun _ hm => absurd hm List.not_mem_nil
  | append_singleton earlier u ih =>
    obtain ⟨new, hnew, hconveys⟩ := store.transcript_append s earlier u
    rw [hnew]
    exact ih.append hconveys.vetted

end Store

end IRAttributes
