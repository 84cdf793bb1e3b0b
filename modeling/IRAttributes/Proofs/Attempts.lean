import IRAttributes.Proofs.Access
import IRAttributes.Proofs.Callees
import IRAttributes.Proofs.History
import IRAttributes.Proofs.Portion
import IRAttributes.Proofs.Vetting
import IRAttributes.Proofs.Views
import Mathlib.Data.List.TakeWhile

/-!
What operations attempt. An operation that is to change attributes makes a number
of attempts, which can be told beforehand: it reaches for an index, adds
attributes one after the other, and erases a key unless that is empty. Whether an
attempt succeeds can be told beforehand as well, and no attempt has an influence
on the next one. What is carried out are the attempts up to the first one that
fails, and the operation succeeds if there is none.
-/
namespace IRAttributes

/-- One of the things that an operation does on its way. -/
inductive Attempt
  | access (holder : Holder) (index : Index)
  /-- An attribute is added through a view, or there is none because it could not be built. -/
  | add (h : Handle) (index : Index) (item : Except Error Attribute)
  /-- An attribute is added to the store itself, which does not check its place. -/
  | put (h : Handle) (index : Index) (v : Attribute)
  | erase (h : Handle) (index : Index) (key : Key)

/-- An entity is there, and there is a number for the index. -/
def Context.takes (c : Context) (h : Handle) (index : Index) : Bool :=
  c.contains h && index.raw?.isSome

namespace Attempt

def succeeds (c : Context) : Attempt → Bool
  | .access holder index => (holder.grant index (c.parameterCount holder.handle)).isOk
  | .add h index item =>
      match item, c.parameterCount h with
      | .ok v, .ok count => (Placement.check v index (some count)).isOk && c.takes h index
      | _, _ => false
  | .put h index _ => c.takes h index
  | .erase _ _ _ => true

/-- What an attempt does to the attributes of an entity if it succeeds. -/
def move? : Attempt → Option Move
  | .add h index (.ok v) | .put h index v => some (.put h index v)
  | .erase h index key => some (.erase h index key)
  | _ => none

/-- What comes of attempts that end at the first one that fails. -/
def carriedOut (c : Context) (attempts : List Attempt) : List Move :=
  (attempts.takeWhile (·.succeeds c)).filterMap move?

/-- An index is reached for, and then items are added there. -/
def batch (holder : Holder) (index : Index) (items : List (Except Error Attribute)) :
    List Attempt :=
  .access holder index :: items.map (.add holder.handle index)

/-- Nothing is erased under the empty name. -/
def removal (h : Handle) (index : Index) (key? : Option Key) : List Attempt :=
  (key?.filter fun key => !key.isBlank).toList.map (.erase h index)

end Attempt

/-- The attempts that an operation makes in a context; there are none if it only
reads, or if it creates or removes an entity. -/
def Operation.attempts (c : Context) : Operation → List Attempt
  | .onStore h (.add index v) => [.put h index v]
  | .onStore h (.remove index key) => [.erase h index key]
  | .onSet holder request =>
      match request.isReading, request.index? with
      | false, some index =>
          Attempt.batch holder index request.items ++
            Attempt.removal holder.handle index request.removal?
      | _, _ => []
  | .onView view request =>
      (request.items view.index).map (.add view.entity view.index) ++
        Attempt.removal view.entity view.index request.removal?
  | .setAlignment h position alignment =>
      Attempt.batch (.entity h) (.parameter position) [Attribute.ofPayload .alignment alignment]
  | .addCollection target index source =>
      Attempt.batch target index ((c.attributes source.entity source.index).map .ok)
  | .addFrom target index source =>
      .access source index ::
        Attempt.batch target index ((c.attributes source.handle index).map .ok)
  | .applySet source target =>
      source.collections.flatMap fun d => Attempt.batch target d.index (d.attributes.map .ok)
  | _ => []

namespace Context

/-- An action makes some attempts, one after the other, up to the first one that fails. -/
structure Makes {α : Type} (c : Context) (attempts : List Attempt) (x : Action Context α) :
    Prop where
  path : c.Path (Attempt.carriedOut c attempts) (x.run.run c).state
  /-- Whatever may be attempted next succeeds as it would have done before. -/
  succeeds : ∀ a : Attempt, a.succeeds (x.run.run c).state = a.succeeds c
  answer : (∃ r, (x.run.run c).answer = .ok r) ↔ ∀ a ∈ attempts, a.succeeds c = true

/-- A context becomes another one, and nobody's attributes are edited on the way. -/
def Unedited (c c' : Context) : Prop :=
  ∃ moves, c.Path moves c' ∧ ∀ h index, Move.edits h index moves = []

end Context

namespace Attempt

variable {c c' : Context} {attempts first : List Attempt}

theorem carriedOut_congr (h : ∀ a : Attempt, a.succeeds c' = a.succeeds c)
    (attempts : List Attempt) : carriedOut c' attempts = carriedOut c attempts := by
  have hsame : (fun a : Attempt => a.succeeds c') = fun a => a.succeeds c := funext h
  rw [carriedOut, hsame, carriedOut]

theorem carriedOut_eq_nil (h : ∀ a ∈ attempts, a.move? = none) : carriedOut c attempts = [] :=
  List.filterMap_eq_nil_iff.mpr fun a ha => h a ((List.takeWhile_prefix _).subset ha)

theorem carriedOut_append_of_forall (h : ∀ a ∈ first, a.succeeds c = true)
    (second : List Attempt) :
    carriedOut c (first ++ second) = carriedOut c first ++ carriedOut c second := by
  have hfirst : first.takeWhile (·.succeeds c) = first := List.takeWhile_eq_self_iff.mpr h
  rw [carriedOut, List.takeWhile_append_of_pos h, List.filterMap_append, carriedOut, hfirst,
    carriedOut]

/-- After an attempt that fails nothing is carried out. -/
theorem carriedOut_append_of_not_forall (h : ¬ ∀ a ∈ first, a.succeeds c = true)
    (second : List Attempt) : carriedOut c (first ++ second) = carriedOut c first := by
  induction first with
  | nil => exact absurd (fun a ha => absurd ha List.not_mem_nil) h
  | cons a rest ih =>
    cases ha : a.succeeds c with
    | false => simp [carriedOut, ha]
    | true =>
      have hrest : ¬ ∀ a ∈ rest, a.succeeds c = true :=
        fun hall => h (List.forall_mem_cons.mpr ⟨ha, hall⟩)
      have hsame := ih hrest
      simp only [carriedOut, List.cons_append, List.takeWhile_cons, ha, if_true] at hsame ⊢
      cases hm : a.move? with
      | none => simpa only [List.filterMap_cons, hm] using hsame
      | some m => simp only [List.filterMap_cons, hm, hsame]

theorem succeeds_update {f : Entity → Entity} (hrole : ∀ e, (f e).role = e.role) (c : Context)
    (h : Handle) (a : Attempt) : a.succeeds (c.update h f) = a.succeeds c := by
  have hcount := Context.parameterCount_update hrole c h
  have htakes : ∀ h' index, (c.update h f).takes h' index = c.takes h' index := by
    intro h' index
    have hthere : (c.update h f).contains h' = c.contains h' := by
      have hroles := congrArg Option.isSome (Context.role?_update hrole c h h')
      rwa [Context.role?, Option.isSome_map, Context.role?, Option.isSome_map] at hroles
    rw [Context.takes, hthere, Context.takes]
  cases a with
  | access holder index => simp only [succeeds, hcount]
  | add h' index item => simp only [succeeds, hcount, htakes]
  | put h' index v => exact htakes h' index
  | erase h' index key => rfl

theorem succeeds_of_put {h : Handle} {index : Index} {v : Attribute}
    (hput : c.put h index v = .ok c') (a : Attempt) : a.succeeds c' = a.succeeds c := by
  cases Context.moves_put hput with
  | put _ _ _ hindex hlive => exact succeeds_update (·.role_putAt index v) c h a

end Attempt

namespace Context

variable {c c' : Context} {h : Handle} {index : Index} {v : Attribute}

theorem takes_eq_true_iff : c.takes h index = true ↔ ∃ c', c.put h index v = .ok c' := by
  constructor
  · intro htakes
    obtain ⟨hlive, hindex⟩ := (Bool.and_eq_true _ _).mp htakes
    exact exists_put_of_contains hlive hindex v
  · rintro ⟨c', hput⟩
    cases moves_put hput with
    | put _ _ _ hindex hlive => rw [takes, hlive, hindex, Bool.and_self]

theorem takes_of_error {e : Error} (hput : c.put h index v = .error e) :
    c.takes h index = false := by
  refine Bool.eq_false_iff.mpr fun htakes => ?_
  obtain ⟨c', hok⟩ := takes_eq_true_iff.mp htakes
  rw [hput] at hok
  cases hok

namespace Makes

variable {α β : Type} {a : Attempt} {attempts first second : List Attempt}
  {x : Action Context α} {e : Error}

/-- What succeeds without a trace attempts nothing. -/
theorem look {r : α} (h : (x.run.run c).answer = .ok r ∧ (x.run.run c).state = c) :
    c.Makes [] x := by
  obtain ⟨hanswer, hstate⟩ := h
  refine ⟨?_, ?_, iff_of_true ⟨r, hanswer⟩ fun _ ha => absurd ha List.not_mem_nil⟩
  · rw [hstate]
    exact Path.nil
  · intro a
    rw [hstate]

/-- An action that fails without a trace. -/
theorem refused (hnot : ¬ ∀ a ∈ attempts, a.succeeds c = true)
    (hnone : Attempt.carriedOut c attempts = [])
    (h : (x.run.run c).answer = .error e ∧ (x.run.run c).state = c) : c.Makes attempts x := by
  obtain ⟨hanswer, hstate⟩ := h
  refine ⟨?_, ?_, iff_of_false ?_ hnot⟩
  · rw [hnone, hstate]
    exact Path.nil
  · intro a
    rw [hstate]
  · rintro ⟨r, hok⟩
    rw [hanswer] at hok
    cases hok

theorem refused_single (ha : a.succeeds c = false)
    (h : (x.run.run c).answer = .error e ∧ (x.run.run c).state = c) : c.Makes [a] x := by
  refine refused ?_ ?_ h
  · simp [ha]
  · simp [Attempt.carriedOut, ha]

theorem done {r : α} (ha : a.succeeds c = true) (hanswer : (x.run.run c).answer = .ok r)
    (hpath : c.Path a.move?.toList (x.run.run c).state)
    (hsucceeds : ∀ a' : Attempt, a'.succeeds (x.run.run c).state = a'.succeeds c) :
    c.Makes [a] x where
  path := by
    have hmove : Attempt.carriedOut c [a] = a.move?.toList := by
      cases hm : a.move? <;> simp [Attempt.carriedOut, ha, hm]
    rw [hmove]
    exact hpath
  succeeds := hsucceeds
  answer := iff_of_true ⟨r, hanswer⟩ (List.forall_mem_singleton.mpr ha)

/-- Actions in sequence make their attempts in sequence. -/
theorem bind {f : α → Action Context β} (hx : c.Makes first x)
    (hf : ∀ r, (x.run.run c).answer = .ok r → (x.run.run c).state.Makes second (f r)) :
    c.Makes (first ++ second) (x >>= f) := by
  cases hanswer : (x.run.run c).answer with
  | error e =>
    obtain ⟨herror, hstate⟩ := Action.bind_of_error f hanswer
    have hnot : ¬ ∀ a ∈ first, a.succeeds c = true := by
      rw [← hx.answer, hanswer]
      rintro ⟨r, hr⟩
      cases hr
    refine ⟨?_, ?_, iff_of_false ?_ ?_⟩
    · rw [hstate, Attempt.carriedOut_append_of_not_forall hnot]
      exact hx.path
    · rw [hstate]
      exact hx.succeeds
    · rw [herror]
      rintro ⟨r, hr⟩
      cases hr
    · exact fun hall => hnot fun a ha => hall a (List.mem_append_left second ha)
  | ok r =>
    obtain ⟨hlast, hstate⟩ := Action.bind_of_ok f hanswer
    have hfirst := hx.answer.mp ⟨r, hanswer⟩
    have hsecond := hf r hanswer
    refine ⟨?_, ?_, ?_⟩
    · rw [hstate, Attempt.carriedOut_append_of_forall hfirst,
        ← Attempt.carriedOut_congr hx.succeeds second]
      exact hx.path.trans hsecond.path
    · intro a
      rw [hstate, hsecond.succeeds, hx.succeeds]
    · rw [hlast, hsecond.answer, List.forall_mem_append, and_iff_right hfirst]
      simp only [hx.succeeds]

theorem map (hx : c.Makes attempts x) (f : α → β) :
    c.Makes attempts (do return f (← x) : Action Context β) := by
  rw [← List.append_nil attempts]
  exact hx.bind fun r _ => look (r := f r) ⟨rfl, rfl⟩

theorem forM {f : β → Action Context Unit} {g : β → List Attempt} {bs : List β}
    (h : ∀ b ∈ bs, ∀ c : Context, c.Makes (g b) (f b)) (c : Context) :
    c.Makes (bs.flatMap g) (bs.forM f) := by
  induction bs generalizing c with
  | nil => exact look (r := ()) ⟨rfl, rfl⟩
  | cons b rest ih =>
    obtain ⟨hb, hrest⟩ := List.forall_mem_cons.mp h
    rw [List.flatMap_cons]
    exact (hb c).bind fun _ _ => ih hrest _

/-- Items are added one after the other. -/
theorem forM_item {f : β → Action Context Unit} {item : β → Except Error Attribute}
    (hf : ∀ b, ∀ c : Context, c.Makes [.add h index (item b)] (f b)) (bs : List β)
    (c : Context) : c.Makes ((bs.map item).map (.add h index)) (bs.forM f) := by
  rw [List.map_map, List.map_eq_flatMap]
  exact forM (fun b _ => hf b) c

/-- A holder is asked for an index, and what follows is done with a view. -/
theorem reach {holder : Holder} {f : Collection Context → Action Context β}
    (hf : c.Makes attempts (f (View.collection store ⟨holder.handle, index⟩))) :
    c.Makes (.access holder index :: attempts)
      ((holder.attributes store).collectionAt index >>= f) := by
  have hrun := c.run_collectionAt holder index
  cases hgrant : holder.grant index (c.parameterCount holder.handle) with
  | error e =>
    rw [hgrant] at hrun
    have hfails : (Attempt.access holder index).succeeds c = false := by
      simp only [Attempt.succeeds, hgrant, Except.isOk, Except.toBool]
    obtain ⟨hanswer, hstate⟩ := Action.bind_of_error f (congrArg Outcome.answer hrun)
    refine refused ?_ ?_ ⟨hanswer, hstate.trans (congrArg Outcome.state hrun)⟩
    · simp [hfails]
    · simp [Attempt.carriedOut, hfails]
  | ok u =>
    rw [hgrant] at hrun
    have haccess : c.Makes [.access holder index]
        ((holder.attributes store).collectionAt index) := by
      refine done (r := View.collection store ⟨holder.handle, index⟩) ?_ ?_ ?_ ?_
      · simp only [Attempt.succeeds, hgrant, Except.isOk, Except.toBool]
      · exact congrArg Outcome.answer hrun
      · rw [hrun]
        exact Path.nil
      · rw [hrun]
        exact fun _ => rfl
    refine haccess.bind ?_
    intro d hd
    rw [hrun] at hd ⊢
    obtain rfl : View.collection store ⟨holder.handle, index⟩ = d := Except.ok.inj hd
    exact hf

/-- What has been put is a move, and is of no consequence for what may be attempted next. -/
theorem of_put {r : α} (ha : a.succeeds c = true) (hmove : a.move? = some (.put h index v))
    (hput : c.put h index v = .ok c')
    (hrun : (x.run.run c).answer = .ok r ∧ (x.run.run c).state = c') : c.Makes [a] x := by
  obtain ⟨hanswer, rfl⟩ := hrun
  refine done ha hanswer ?_ (Attempt.succeeds_of_put hput)
  rw [hmove]
  exact Path.nil.snoc (moves_put hput)

theorem add (c : Context) (h : Handle) (index : Index) (v : Attribute) :
    c.Makes [.add h index (.ok v)] (View.add store ⟨h, index⟩ v) := by
  cases hcount : c.parameterCount h with
  | error e =>
    refine refused_single ?_ (view_add_of_uncounted hcount index v)
    simp only [Attempt.succeeds, hcount]
  | ok count =>
    cases hcheck : Placement.check v index (some count) with
    | error e =>
      refine refused_single ?_ (view_add_of_error hcount hcheck)
      simp only [Attempt.succeeds, hcount, hcheck, Except.isOk, Except.toBool, Bool.false_and]
    | ok u =>
      cases hput : c.put h index v with
      | error e =>
        refine refused_single ?_ (view_add_of_refused hcount hcheck hput)
        simp only [Attempt.succeeds, hcount, takes_of_error hput, Bool.and_false]
      | ok c' =>
        refine of_put ?_ rfl hput (view_add_of_put hcount hcheck hput)
        have htakes := takes_eq_true_iff.mpr ⟨c', hput⟩
        simp only [Attempt.succeeds, hcount, hcheck, htakes, Except.isOk, Except.toBool,
          Bool.and_self]

/-- An item is checked and built before it is added. -/
theorem addItem (c : Context) (h : Handle) (index : Index) (checked : Except Error Unit)
    (built : Except Error Attribute) :
    c.Makes [.add h index (do checked; built)]
      (do
        Action.ofExcept checked
        View.add store ⟨h, index⟩ (← Action.ofExcept built)) := by
  cases checked with
  | error e => exact refused_single rfl ⟨rfl, rfl⟩
  | ok u =>
    cases built with
    | error e => exact refused_single rfl ⟨rfl, rfl⟩
    | ok v => exact add c h index v

theorem put (c : Context) (h : Handle) (index : Index) (v : Attribute) :
    c.Makes [.put h index v] (store.add h index v) := by
  cases hput : c.put h index v with
  | error e =>
    refine refused_single (e := e) (takes_of_error hput) ?_
    simp only [store, ExceptT.run_mk, hput, and_self]
  | ok c' =>
    refine of_put (r := ()) (takes_eq_true_iff.mpr ⟨c', hput⟩) rfl hput ?_
    simp only [store, ExceptT.run_mk, hput, and_self]

theorem erase {r : α} (h : Handle) (index : Index) (key : Key)
    (hrun : (x.run.run c).answer = .ok r ∧ (x.run.run c).state = c.erase h index key) :
    c.Makes [.erase h index key] x := by
  obtain ⟨hanswer, hstate⟩ := hrun
  refine done rfl hanswer ?_ ?_
  · rw [hstate]
    exact Path.nil.snoc (moves_erase c h index key)
  · intro a
    rw [hstate, erase_eq_update]
    exact Attempt.succeeds_update (·.role_eraseAt index key) c h a

/-- A view does not erase anything under the empty name. -/
theorem removal (c : Context) (h : Handle) (index : Index) (key : Key) :
    c.Makes (Attempt.removal h index (some key))
      (liftM (View.remove store ⟨h, index⟩ key) : Action Context Unit) := by
  unfold View.remove
  cases hblank : key.isBlank with
  | true =>
    have hnone : Attempt.removal h index (some key) = [] := by
      simp [Attempt.removal, Option.filter, hblank]
    rw [hnone]
    exact look (r := ()) ⟨rfl, rfl⟩
  | false =>
    have hone : Attempt.removal h index (some key) = [.erase h index key] := by
      simp [Attempt.removal, Option.filter, hblank]
    rw [hone]
    exact erase (r := ()) h index key ⟨rfl, rfl⟩

end Makes

section Requests

variable (c : Context)

/-- What a request of a view attempts. -/
theorem makes_onView {request : CollectionRequest} (hwrite : request.isReading = false)
    (view : View Handle) :
    c.Makes ((Operation.onView view request).attempts c)
      (request.run (view.collection store)) := by
  cases request with
  | add v => exact (Makes.add c view.entity view.index v).map _
  | addKind kind => exact (Makes.addItem c view.entity view.index _ _).map _
  | addPayload kind n => exact (Makes.addItem c view.entity view.index _ _).map _
  | addNamed name value =>
    exact (Makes.addItem c view.entity view.index (.ok ()) (Attribute.ofName name value)).map _
  | removeLike v => exact (Makes.removal c view.entity view.index v.key).map _
  | remove key => exact (Makes.removal c view.entity view.index key).map _
  | summary | index | find | attributes | size | isEmpty | has | text => cases hwrite

/-- A set reaches for an index and adds attributes there one after the other. -/
theorem makes_addAll (holder : Holder) (index : Index) (vs : List Attribute) :
    c.Makes (Attempt.batch holder index (vs.map .ok))
      ((holder.attributes store).addAll index vs) :=
  Makes.reach (f := fun d => d.addAll vs)
    (Makes.forM_item (fun v c => Makes.add c holder.handle index v) vs c)

theorem makes_addKinds (holder : Holder) (index : Index) (kinds : List Kind) :
    c.Makes (Attempt.batch holder index (kinds.map (CollectionRequest.flagOn index)))
      ((holder.attributes store).addKinds index kinds) :=
  Makes.reach (f := fun d => d.addKinds kinds)
    (Makes.forM_item (fun _ c => Makes.addItem c holder.handle index _ _) kinds c)

theorem makes_onSet {request : SetRequest} (hwrite : request.isReading = false)
    (holder : Holder) :
    c.Makes ((Operation.onSet holder request).attempts c)
      (request.run (holder.attributes store)) := by
  cases request with
  | addKind index kind => exact (Makes.reach (Makes.addItem c holder.handle index _ _)).map _
  | addPayload index kind n =>
    exact (Makes.reach (Makes.addItem c holder.handle index _ _)).map _
  | add index v => exact (Makes.reach (Makes.add c holder.handle index v)).map _
  | addKinds index kinds =>
    have hall := c.makes_addKinds holder index kinds
    rw [← List.append_nil (Attempt.batch _ _ _)] at hall
    exact hall.map _
  | addAll index vs =>
    have hall := c.makes_addAll holder index vs
    rw [← List.append_nil (Attempt.batch _ _ _)] at hall
    exact hall.map _
  | remove index key => exact (Makes.reach (Makes.removal c holder.handle index key)).map _
  | summary | parameterSummary | parameterCount | has | hasAny | text | payload => cases hwrite

/-- What a view shows is added at an index. -/
theorem makes_addCollection (target : Holder) (index : Index) (source : View Handle) :
    c.Makes (Attempt.batch target index ((c.attributes source.entity source.index).map .ok))
      ((target.attributes store).addCollection index (source.collection store)) := by
  have hlisted : c.Makes [] (liftM (source.collection store).attributes :
      Action Context (List Attribute)) := Makes.look ⟨rfl, rfl⟩
  refine hlisted.bind ?_
  intro vs hvs
  obtain rfl : c.attributes source.entity source.index = vs := Except.ok.inj hvs
  exact c.makes_addAll target index (c.attributes source.entity source.index)

theorem makes_addFrom (target : Holder) (index : Index) (source : Holder) :
    c.Makes ((Operation.addFrom target index source).attempts c)
      ((target.attributes store).addFrom index (source.attributes store)) :=
  Makes.reach (f := fun d => (target.attributes store).addCollection index d)
    (c.makes_addCollection target index ⟨source.handle, index⟩)

theorem makes_applySet (source : OwnedSet) (target : Holder) :
    c.Makes ((Operation.applySet source target).attempts c)
      (source.applyTo (target.attributes store)) :=
  Makes.forM (fun d _ c => c.makes_addAll target d.index d.attributes) c

theorem makes_setAlignment (h : Handle) (position : UInt32) (alignment : UInt64) :
    c.Makes ((Operation.setAlignment h position alignment).attempts c)
      ((Operation.setAlignment h position alignment).run host) := by
  simp only [Operation.attempts, Operation.run]
  cases hbuilt : Attribute.ofPayload .alignment alignment with
  | ok v =>
    have hadded : c.Makes (Attempt.batch (.entity h) (.parameter position) [.ok v])
        (((Holder.entity h).attributes store).add (.parameter position) v) :=
      Makes.reach (Makes.add c h (.parameter position) v)
    exact hadded.map _
  | error e =>
    refine Makes.refused (e := e) ?_ ?_ ⟨rfl, rfl⟩
    · simp [Attempt.batch, Attempt.succeeds]
    · exact Attempt.carriedOut_eq_nil (by simp [Attempt.batch, Attempt.move?])

theorem state_of_reading_set {request : SetRequest} (hread : request.isReading = true)
    (holder : Holder) : ((request.run (holder.attributes store)).run.run c).state = c := by
  cases hindex : request.index? with
  | none =>
    cases request with
    | parameterCount => cases holder <;> rfl
    | _ => cases hindex
  | some index =>
    have hreads := reads (P := fun _ => True) (· = c) (fun _ _ => trivial) holder.handle index
    exact Step.Related.kept (SetRequest.run_reading hread hindex (holder.reads hreads)) rfl

theorem state_of_reading_view {request : CollectionRequest} (hread : request.isReading = true)
    (view : View Handle) : ((request.run (view.collection store)).run.run c).state = c := by
  have hreads := reads (P := fun _ => True) (· = c) (fun _ _ => trivial) view.entity view.index
  exact Step.Related.kept (CollectionRequest.run_reading hread hreads.view) rfl

theorem Unedited.refl : c.Unedited c := ⟨[], Path.nil, fun _ _ => rfl⟩

theorem unedited_of_state {x : Action Context Answer} {f : Answer → Reply}
    (h : (x.run.run c).state = c) :
    c.Unedited ((do return f (← x) : Action Context Reply).run.run c).state := by
  rw [Action.state_map, h]
  exact Unedited.refl c

/-- What is addressed to nobody may let an entity in, but edits nothing. -/
theorem unedited_of_not_addresses {op : Operation}
    (haddress : ∀ h index, ¬ op.Addresses h index) : c.Unedited (c.perform op).state := by
  obtain ⟨moves, hpath, hpermits⟩ := c.path_perform op
  refine ⟨moves, hpath, ?_⟩
  intro h index
  refine List.filterMap_eq_nil_iff.mpr ?_
  intro m hm
  cases m with
  | put h' index' v => exact absurd (hpermits _ hm).1 (haddress h' index')
  | erase h' index' key => exact absurd (hpermits _ hm) (haddress h' index')
  | enter | leave => rfl

theorem unedited_removeEntity (h : Handle) : c.Unedited (c.perform (.removeEntity h)).state := by
  have hstate : (c.perform (.removeEntity h)).state = ((remove h).run c).state := rfl
  rw [hstate]
  cases hlive : c.contains h with
  | false =>
    simp only [remove, hlive, Bool.false_eq_true, if_false]
    exact Unedited.refl c
  | true =>
    simp only [remove, hlive, if_true]
    exact ⟨[.leave h], Path.nil.snoc (Moves.leave h hlive), fun _ _ => rfl⟩

/-- An operation makes its attempts, or it has none and edits no attributes. -/
theorem perform_cases (op : Operation) :
    c.Makes (op.attempts c) (op.run host) ∨
      op.attempts c = [] ∧ c.Unedited (c.perform op).state := by
  cases op with
  | addFunction | buildCall | buildInvoke =>
    exact Or.inr ⟨rfl, c.unedited_of_not_addresses fun _ _ => id⟩
  | removeEntity h => exact Or.inr ⟨rfl, c.unedited_removeEntity h⟩
  | onStore h request =>
    cases request with
    | add index v => exact Or.inl (((Makes.put c h index v).map fun _ => Answer.done).map _)
    | remove index key => exact Or.inl (Makes.erase h index key ⟨rfl, rfl⟩)
    | parameterCount | createKind | createPayload | createNamed | count | attributes | find =>
      exact Or.inr ⟨rfl, c.unedited_of_state (Action.state_map _ _ c)⟩
  | onSet holder request =>
    cases hread : request.isReading with
    | true =>
      have hnone : (Operation.onSet holder request).attempts c = [] := by
        simp only [Operation.attempts, hread]
      exact Or.inr ⟨hnone, c.unedited_of_state (c.state_of_reading_set hread holder)⟩
    | false => exact Or.inl ((c.makes_onSet hread holder).map _)
  | onView view request =>
    cases hread : request.isReading with
    | true =>
      have hnone : (Operation.onView view request).attempts c = [] := by
        cases request with
        | summary | index | find | attributes | size | isEmpty | has | text => rfl
        | add | addKind | addPayload | addNamed | removeLike | remove => cases hread
      exact Or.inr ⟨hnone, c.unedited_of_state (c.state_of_reading_view hread view)⟩
    | false => exact Or.inl ((c.makes_onView hread view).map _)
  | setAlignment h position alignment => exact Or.inl (c.makes_setAlignment h position alignment)
  | addCollection target index source =>
    exact Or.inl ((c.makes_addCollection target index source).map _)
  | addFrom target index source => exact Or.inl ((c.makes_addFrom target index source).map _)
  | applySet source target => exact Or.inl ((c.makes_applySet source target).map _)

end Requests

end Context

end IRAttributes
