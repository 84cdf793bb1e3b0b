import IRAttributes.Proofs.Moves
import IRAttributes.Proofs.NativeForm
import IRAttributes.Proofs.Operation

/-!
A context that keeps a ledger. Whatever is done to it is done to the context,
and every move that results is noted: an entity that entered or left, an
attribute once it has been added, a key that was removed. The context cannot
tell the difference, the noted moves lead from where it was to where it is, and
an operation moves nothing but what it is addressed to.
-/
namespace IRAttributes

structure Ledger where
  context : Context
  moves : List Move

namespace Ledger

def component : Component Ledger Context where
  get := Ledger.context
  put c l := ⟨c, l.moves⟩

def note (m : Move) : Step Ledger Unit := Step.modify fun l => ⟨l.context, l.moves ++ [m]⟩

/-- Does something to the context and, if it succeeds, notes what happened. -/
def noting {α : Type} (x : Action Context α) (m : α → Move) : Action Ledger α := do
  let a ← Action.within component x
  note (m a)
  return a

def store : Store Ledger Handle :=
  { Context.store.within component with
    add := fun h index v => noting (Context.store.add h index v) fun _ => .put h index v
    remove := fun h index key => do
      (Context.store.remove h index key).within component
      note (.erase h index key) }

def host : Host Ledger where
  toStore := store
  addFunction name parameterCount := do
    let h ← (Context.addFunction name parameterCount).within component
    note (.enter h (.function name parameterCount))
    return h
  buildCall callee := noting (Context.buildCall callee) fun h => .enter h (.call callee)
  buildInvoke callee := noting (Context.buildInvoke callee) fun h => .enter h (.invoke callee)
  removeEntity h := do
    let removed ← (Context.remove h).within component
    if removed then note (.leave h)
    return removed

/-- The ledger of a context that was somewhere else when certain moves had
been noted, and has come here by further moves of a certain kind. -/
structure Follows (c : Context) (noted : List Move) (A : Move → Prop) (l : Ledger)
    (c' : Context) : Prop where
  context : l.context = c'
  moves : ∃ new, l.moves = noted ++ new ∧ c.Path new c' ∧ ∀ m ∈ new, A m

end Ledger

/-- What an operation may bring about: only the entity it creates enters, only
the one it removes leaves, and attributes change only where it is addressed to. -/
def Operation.Permits (op : Operation) : Move → Prop
  | .enter _ role => op.role? = some role
  | .leave h => op = .removeEntity h
  | .put h index v => op.Addresses h index ∧ (v ∈ op.values ∨ v.WellFormed)
  | .erase h index _ => op.Addresses h index

namespace Context

variable {c c' : Context}

theorem moves_put {h : Handle} {index : Index} {v : Attribute} (hput : c.put h index v = .ok c') :
    c.Moves (.put h index v) c' := by
  unfold put at hput
  split at hput
  · rename_i hraw
    cases hcount : c.parameterCount h <;> rw [hcount] at hput <;> cases hput
  · rename_i raw hraw
    split at hput
    · rename_i hlive
      obtain rfl : c.update h (·.put raw v) = c' := Except.ok.inj hput
      have hput : (fun e : Entity => e.put raw v) = (·.putAt index v) := by
        funext e
        simp only [Entity.putAt, hraw]
      rw [hput]
      exact Moves.put h index v (by rw [hraw]; rfl) hlive
    · cases hput

theorem erase_eq_update (c : Context) (h : Handle) (index : Index) (key : Key) :
    c.erase h index key = c.update h (·.eraseAt index key) := by
  unfold erase
  cases hraw : index.raw? with
  | none =>
    have hid : (fun e : Entity => e.eraseAt index key) = id := by
      funext e
      simp only [Entity.eraseAt, hraw, id_eq]
    simp only [hid, update, SlotTable.update_id]
  | some raw => simp only [Entity.eraseAt, hraw]

theorem moves_erase (c : Context) (h : Handle) (index : Index) (key : Key) :
    c.Moves (.erase h index key) (c.erase h index key) := by
  rw [erase_eq_update]
  exact Moves.erase h index key

theorem exists_put_of_contains {h : Handle} {index : Index} (hlive : c.contains h = true)
    (hindex : index.raw?.isSome = true) (v : Attribute) : ∃ c', c.put h index v = .ok c' := by
  obtain ⟨raw, hraw⟩ := Option.isSome_iff_exists.mp hindex
  refine ⟨c.update h (·.put raw v), ?_⟩
  simp only [put, hraw, hlive, if_true]

theorem wellFormed_of_mem_attributes {h : Handle} {index : Index} {v : Attribute}
    (hv : v ∈ c.attributes h index) : v.WellFormed := by
  obtain ⟨a, -, ha⟩ := List.mem_filterMap.mp hv
  exact NativeAttribute.wellFormed_of_toAttribute? ha

/-- One finds in a context what it lists, under any key at all. -/
theorem find?_eq (c : Context) (h : Handle) (index : Index) (key : Key) :
    c.find? h index key = KeyedList.find? Attribute.key key (c.attributes h index) :=
  NativeAttribute.find?_filterMap key (c.native h index)

theorem find?_of_isBlank {key : Key} (hblank : key.isBlank = true) (c : Context) (h : Handle)
    (index : Index) : c.find? h index key = none := by
  rw [find?_eq]
  exact NativeAttribute.find?_filterMap_of_isBlank hblank (c.native h index)

/-- A view does not ask for the empty name, and would find nothing under it. -/
theorem answer_view_find? (c : Context) (h : Handle) (index : Index) (key : Key) :
    ((View.find? store ⟨h, index⟩ key).run c).answer = c.find? h index key := by
  cases hblank : key.isBlank with
  | false =>
    simp only [View.find?, hblank, Bool.false_eq_true, if_false]
    rfl
  | true =>
    rw [find?_of_isBlank hblank]
    simp only [View.find?, hblank, if_true]
    rfl

end Context

namespace Ledger

variable {c : Context} {noted : List Move} {A : Move → Prop} {P : Attribute → Prop}

theorem Follows.snoc {l : Ledger} {c' c'' : Context} {m : Move}
    (h : Follows c noted A l c') (hm : c'.Moves m c'') (hA : A m) :
    Follows c noted A ⟨c'', l.moves ++ [m]⟩ c'' where
  context := rfl
  moves := by
    obtain ⟨new, hnew, hpath, hall⟩ := h.moves
    refine ⟨new ++ [m], by rw [hnew, List.append_assoc], hpath.snoc hm, ?_⟩
    intro m' hm'
    rcases List.mem_append.mp hm' with hm' | hm'
    · exact hall m' hm'
    · exact List.mem_singleton.mp hm' ▸ hA

/-- Looking at the context is the same with and without a ledger. -/
private theorem related_look {α β : Type} {Q : α → β → Prop} {x : Step Context α}
    {y : Step Context β} (hstate : ∀ c, (x.run c).state = c ∧ (y.run c).state = c)
    (hanswer : ∀ c, Q (x.run c).answer (y.run c).answer) :
    Step.Related (Follows c noted A) Q (x.within component) y := by
  intro l c' h
  obtain rfl : l.context = c' := h.context
  refine ⟨hanswer l.context, ?_⟩
  rw [(hstate l.context).2]
  exact ⟨(hstate l.context).1, h.moves⟩

theorem reads (hP : ∀ v, v.WellFormed → P v) (h : Handle) (index : Index) :
    store.Reads (Follows c noted A) P Context.store h index where
  parameterCount := related_look (fun _ => ⟨rfl, rfl⟩) fun _ => Action.agree_eq_iff.mpr rfl
  count := related_look (fun _ => ⟨rfl, rfl⟩) fun _ => rfl
  attributes := by
    refine related_look (fun _ => ⟨rfl, rfl⟩) ?_
    intro c
    refine ⟨rfl, ?_⟩
    intro v hv
    exact hP v (Context.wellFormed_of_mem_attributes hv)
  find? key := related_look (fun _ => ⟨rfl, rfl⟩) fun _ => rfl

theorem noting_of_ok {α : Type} {x : Action Context α} (m : α → Move) {l : Ledger} {a : α}
    (h : (x.run.run l.context).answer = .ok a) :
    ((noting x m).run.run l).answer = .ok a ∧ ((noting x m).run.run l).state =
      ⟨(x.run.run l.context).state, l.moves ++ [m a]⟩ :=
  Action.bind_of_ok (fun a => do note (m a); return a) (x := Action.within component x) h

theorem noting_of_error {α : Type} {x : Action Context α} (m : α → Move) {l : Ledger}
    {e : Error} (h : (x.run.run l.context).answer = .error e) :
    ((noting x m).run.run l).answer = .error e ∧ ((noting x m).run.run l).state =
      ⟨(x.run.run l.context).state, l.moves⟩ :=
  Action.bind_of_error (fun a => do note (m a); return a) (x := Action.within component x) h

/-- What either makes the noted move or fails and changes nothing is followed by a ledger. -/
theorem related_noting {α : Type} {x : Action Context α} {m : α → Move}
    (hok : ∀ c a, (x.run.run c).answer = .ok a → c.Moves (m a) (x.run.run c).state ∧ A (m a))
    (herror : ∀ c e, (x.run.run c).answer = .error e → (x.run.run c).state = c) :
    Action.Related (Follows c noted A) Eq (noting x m) x := by
  intro l c' hl
  obtain rfl : l.context = c' := hl.context
  cases hx : (x.run.run l.context).answer with
  | error e =>
    obtain ⟨hanswer, hstate⟩ := noting_of_error m hx
    rw [hanswer, hstate, herror l.context e hx]
    exact ⟨rfl, rfl, hl.moves⟩
  | ok a =>
    obtain ⟨hanswer, hstate⟩ := noting_of_ok m hx
    obtain ⟨hmoves, hA⟩ := hok l.context a hx
    rw [hanswer, hstate]
    exact ⟨rfl, hl.snoc hmoves hA⟩

theorem writes (hP : ∀ v, v.WellFormed → P v) {h : Handle} {index : Index}
    (hput : ∀ v, P v → A (.put h index v)) (herase : ∀ key, A (.erase h index key)) :
    store.Writes (Follows c noted A) P Context.store h index where
  parameterCount := (reads hP h index).parameterCount
  add v hv := by
    refine related_noting ?_ ?_
    · intro c' _ hadd
      cases hput' : c'.put h index v with
      | error e => simp [Context.store, hput'] at hadd
      | ok c'' => simpa [Context.store, hput', hput v hv] using Context.moves_put hput'
    · intro c' e hadd
      cases hput' : c'.put h index v with
      | error e => simp [Context.store, hput']
      | ok c'' => simp [Context.store, hput'] at hadd
  remove key := by
    intro l c' hl
    obtain rfl : l.context = c' := hl.context
    exact ⟨rfl, hl.snoc (Context.moves_erase _ h index key) (herase key)⟩

/-- A call site enters or, if its callee is no function, nothing changes. -/
theorem related_buildSite {role : Handle → Role} {callee : Handle}
    (hadmits : ∀ c : Context, c.IsFunction callee → c.Admits (role callee))
    (henter : ∀ h, A (.enter h (role callee))) :
    Action.Related (Follows c noted A) Eq
      (noting (Context.buildSite role callee) fun h => .enter h (role callee))
      (Context.buildSite role callee) := by
  refine related_noting ?_ ?_
  · intro c' h hbuild
    simp only [Context.buildSite, ExceptT.run_mk] at hbuild ⊢
    split at hbuild
    · rename_i name count hrole
      obtain rfl : c'.entities.nextHandle = h := Except.ok.inj hbuild
      exact ⟨Context.Moves.enter _ (hadmits c' ⟨name, count, hrole⟩), henter _⟩
    · cases hbuild
  · intro c' e hbuild
    simp only [Context.buildSite, ExceptT.run_mk] at hbuild ⊢
    split at hbuild
    · cases hbuild
    · rfl

theorem related_remove {h : Handle} (hleave : A (.leave h)) :
    Step.Related (Follows c noted A) Eq (host.removeEntity h) (Context.remove h) := by
  intro l c' hl
  obtain rfl : l.context = c' := hl.context
  cases hlive : l.context.contains h with
  | true =>
    have hmoves := hl.snoc (Context.Moves.leave h hlive) hleave
    simpa only [host, Context.remove, hlive, component, note, Step.run_bind, Step.run_within,
      Step.run_modify, Step.run_pure, if_true, true_and] using hmoves
  | false =>
    simpa only [host, Context.remove, hlive, component, Step.run_bind, Step.run_within,
      Step.run_pure, Bool.false_eq_true, if_false, true_and] using hl

/-- What an operation is addressed to is changed as it permits. -/
private theorem writes_addressed {op : Operation} (hA : ∀ m, op.Permits m → A m) {h : Handle}
    {index : Index} (haddress : op.Addresses h index) :
    store.Writes (Follows c noted A) (fun v => v ∈ op.values ∨ v.WellFormed) Context.store h
      index :=
  writes (fun _ hv => Or.inr hv) (fun _ hv => hA _ ⟨haddress, hv⟩) fun _ => hA _ haddress

theorem related_host {op : Operation} (hA : ∀ m, op.Permits m → A m) :
    Host.Related (Follows c noted A) (fun v => v ∈ op.values ∨ v.WellFormed) host
      Context.host op where
  wellFormed _ hv := Or.inr hv
  values _ hv := Or.inl hv
  addFunction name count hop := by
    intro l c' hl
    obtain rfl : l.context = c' := hl.context
    exact ⟨rfl, hl.snoc (Context.Moves.enter _ trivial) (hA _ (hop ▸ rfl))⟩
  buildCall callee hop := related_buildSite (fun _ h => h) fun _ => hA _ (hop ▸ rfl)
  buildInvoke callee hop := related_buildSite (fun _ h => h) fun _ => hA _ (hop ▸ rfl)
  removeEntity h hop := related_remove (hA _ hop)
  reads h index := reads (fun _ hv => Or.inr hv) h index
  direct h request hop := by
    subst hop
    refine request.run_related (fun _ hv => Or.inl hv) (reads (fun _ hv => Or.inr hv) h) ?_
    intro index hindex
    exact writes_addressed hA ⟨rfl, hindex⟩
  views h index haddress := (writes_addressed hA haddress).view

/-- An operation on a context with a ledger: the reply and the context are as
without the ledger, and the moves that lead there are noted. -/
theorem run_operation (op : Operation) (l : Ledger) :
    ((op.run host).run.run l).answer = (l.context.perform op).answer ∧
      Follows l.context l.moves op.Permits ((op.run host).run.run l).state
        (l.context.perform op).state := by
  have hstart : Follows l.context l.moves op.Permits l l.context :=
    ⟨rfl, [], (List.append_nil _).symm, Context.Path.nil, by simp⟩
  obtain ⟨hanswer, hstate⟩ :=
    Operation.run_related (related_host fun _ hm => hm) l l.context hstart
  exact ⟨Action.agree_eq_iff.mp hanswer, hstate⟩

/-- A run on a context with a ledger, operation by operation. -/
theorem run_runAll (ops : List Operation) (l : Ledger) :
    ((Operation.runAll host ops).run l).answer = l.context.replies ops ∧
      Follows l.context l.moves (fun m => ∃ op ∈ ops, op.Permits m)
        ((Operation.runAll host ops).run l).state (l.context.after ops) := by
  induction ops generalizing l with
  | nil => exact ⟨rfl, rfl, [], (List.append_nil _).symm, Context.Path.nil, by simp⟩
  | cons op rest ih =>
    obtain ⟨hanswer, hcontext, first, hfirst, hpath, hpermits⟩ := run_operation op l
    obtain ⟨hanswers, hcontext', second, hsecond, hpath', hpermits'⟩ :=
      ih ((op.run host).run.run l).state
    rw [hcontext] at hanswers hcontext' hpath'
    refine ⟨?_, hcontext', first ++ second, ?_, hpath.trans hpath', ?_⟩
    · rw [Context.replies_cons, ← hanswer, ← hanswers]
      rfl
    · rw [← List.append_assoc, ← hfirst]
      exact hsecond
    · intro m hm
      rcases List.mem_append.mp hm with hm | hm
      · exact ⟨op, List.mem_cons_self, hpermits m hm⟩
      · obtain ⟨op', hop', hm'⟩ := hpermits' m hm
        exact ⟨op', List.mem_cons_of_mem op hop', hm'⟩

end Ledger

namespace Context

/-- An operation is a few moves, all of which it permits. -/
theorem path_perform (c : Context) (op : Operation) :
    ∃ moves, c.Path moves (c.perform op).state ∧ ∀ m ∈ moves, op.Permits m := by
  obtain ⟨-, -, moves, -, hpath, hpermits⟩ := Ledger.run_operation op ⟨c, []⟩
  exact ⟨moves, hpath, hpermits⟩

theorem path_after (c : Context) (ops : List Operation) :
    ∃ moves, c.Path moves (c.after ops) ∧ ∀ m ∈ moves, ∃ op ∈ ops, op.Permits m := by
  obtain ⟨-, -, moves, -, hpath, hpermits⟩ := Ledger.run_runAll ops ⟨c, []⟩
  exact ⟨moves, hpath, hpermits⟩

theorem sound_after {c : Context} (hc : c.Sound) (ops : List Operation) : (c.after ops).Sound := by
  obtain ⟨moves, hpath, -⟩ := c.path_after ops
  exact hpath.sound hc

/-- Every context that a run leads to is sound. -/
theorem sound_reached (ops : List Operation) : (empty.after ops).Sound :=
  sound_after sound_empty ops

theorem spent_after {c : Context} {h : Handle} (hspent : c.entities.Spent h)
    (ops : List Operation) : (c.after ops).entities.Spent h := by
  obtain ⟨moves, hpath, -⟩ := c.path_after ops
  exact hpath.spent hspent

theorem role?_after {c : Context} (hc : c.Sound) {h : Handle} {role : Role}
    (hrole : c.role? h = some role) (ops : List Operation) :
    (c.after ops).role? h = some role ∨ (c.after ops).entities.Spent h := by
  obtain ⟨moves, hpath, -⟩ := c.path_after ops
  exact hpath.role?_or_spent hc hrole

end Context

end IRAttributes
