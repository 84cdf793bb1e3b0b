import IRAttributes.Context
import IRAttributes.Proofs.IndexNumbers
import IRAttributes.Proofs.Tenancy

/-!
What can happen to a context, one move at a time: an entity enters under the
next handle, an entity leaves, an attribute is put at an index of an entity
that is there, or a key is erased. A call site enters only while its callee is
a function. From this alone it follows that entities keep their roles, that a
move at one index of one entity is felt nowhere else, and that the callee of a
call site is a function or gone for good.
-/
namespace IRAttributes

namespace Entity

theorem slot_setSlot (e : Entity) (raw raw' : UInt32) (attributes : List NativeAttribute) :
    (e.setSlot raw attributes).slot raw' = if raw' = raw then attributes else e.slot raw' := by
  by_cases h : raw' = raw
  · subst raw'
    have hput := KeyedList.find?_put_self Prod.fst (raw, attributes) e.slots
    simp only at hput
    simp [slot, setSlot, hput]
  · have hput := KeyedList.find?_put_of_ne Prod.fst (raw, attributes) e.slots (Ne.symm h)
    simp [slot, setSlot, hput, h]

/-- Puts an attribute at an index, unless the index has no number. -/
def putAt (e : Entity) (index : Index) (v : Attribute) : Entity :=
  match index.raw? with
  | some raw => e.put raw v
  | none => e

def eraseAt (e : Entity) (index : Index) (key : Key) : Entity :=
  match index.raw? with
  | some raw => e.erase raw key
  | none => e

theorem role_putAt (e : Entity) (index : Index) (v : Attribute) :
    (e.putAt index v).role = e.role := by
  unfold putAt
  split <;> rfl

theorem role_eraseAt (e : Entity) (index : Index) (key : Key) :
    (e.eraseAt index key).role = e.role := by
  unfold eraseAt
  split <;> rfl

/-- Rewriting the slot of one index is seen at that index alone. -/
theorem native_setSlot (e : Entity) {index : Index} {raw : UInt32}
    (hraw : index.raw? = some raw) (attributes : List NativeAttribute) (index' : Index) :
    (e.setSlot raw attributes).native index' =
      if index' = index then attributes else e.native index' := by
  cases hraw' : index'.raw? with
  | none =>
    have hne : index' ≠ index := by
      rintro rfl
      rw [hraw] at hraw'
      cases hraw'
    simp [native, hraw', hne]
  | some raw' =>
    by_cases hindex : index' = index
    · subst index'
      obtain rfl : raw = raw' := Option.some.inj (hraw.symm.trans hraw')
      simp [native, hraw, slot_setSlot]
    · have hne : raw' ≠ raw := by
        rintro rfl
        exact hindex (Index.raw?_injective hraw' hraw)
      simp [native, hraw', slot_setSlot, hne, hindex]

theorem native_putAt (e : Entity) {index : Index} {raw : UInt32} (hraw : index.raw? = some raw)
    (v : Attribute) (index' : Index) :
    (e.putAt index v).native index' =
      if index' = index then KeyedList.put NativeAttribute.key (.ofAttribute v) (e.native index)
      else e.native index' := by
  have hslot : e.slot raw = e.native index := by simp only [native, hraw]
  simp only [putAt, hraw, put, native_setSlot e hraw, hslot]

theorem native_eraseAt (e : Entity) (index : Index) (key : Key) (index' : Index) :
    (e.eraseAt index key).native index' =
      if index' = index then KeyedList.erase NativeAttribute.key key.native (e.native index)
      else e.native index' := by
  cases hraw : index.raw? with
  | none =>
    by_cases hindex : index' = index
    · subst index'
      simp [hraw, native, KeyedList.erase]
    · simp [eraseAt, hraw, hindex]
  | some raw =>
    have hslot : e.slot raw = e.native index := by simp only [native, hraw]
    simp only [eraseAt, hraw, erase, native_setSlot e hraw, hslot]

end Entity

inductive Move
  | enter (h : Handle) (role : Role)
  | leave (h : Handle)
  | put (h : Handle) (index : Index) (v : Attribute)
  | erase (h : Handle) (index : Index) (key : Key)
  deriving DecidableEq

namespace Context

def role? (c : Context) (h : Handle) : Option Role := (c.entity? h).map Entity.role

def IsFunction (c : Context) (h : Handle) : Prop :=
  ∃ name count, c.role? h = some (.function name count)

/-- A call site may enter if what it calls is a function. -/
def Admits (c : Context) : Role → Prop
  | .function _ _ => True
  | .call callee | .invoke callee => c.IsFunction callee

inductive Moves (c : Context) : Move → Context → Prop
  | enter (role : Role) (h : c.Admits role) :
      c.Moves (.enter c.entities.nextHandle role) (c.insert role)
  | leave (h : Handle) (hlive : c.contains h = true) :
      c.Moves (.leave h) ⟨c.entities.remove h⟩
  | put (h : Handle) (index : Index) (v : Attribute) (hindex : index.raw?.isSome = true)
      (hlive : c.contains h = true) : c.Moves (.put h index v) (c.update h (·.putAt index v))
  | erase (h : Handle) (index : Index) (key : Key) :
      c.Moves (.erase h index key) (c.update h (·.eraseAt index key))

/-- A context after some moves, the last one at the end. -/
inductive Path (c : Context) : List Move → Context → Prop
  | nil : c.Path [] c
  | snoc {moves : List Move} {m : Move} {c' c'' : Context} :
      c.Path moves c' → c'.Moves m c'' → c.Path (moves ++ [m]) c''

end Context

/-- What a move makes of the attributes that an entity keeps at an index. -/
def Move.stored (m : Move) (h : Handle) (index : Index) (attributes : List NativeAttribute) :
    List NativeAttribute :=
  match m with
  | .enter _ _ => attributes
  | .leave h' => if h = h' then [] else attributes
  | .put h' index' v =>
      if h = h' ∧ index = index' then KeyedList.put NativeAttribute.key (.ofAttribute v) attributes
      else attributes
  | .erase h' index' key =>
      if h = h' ∧ index = index' then
        KeyedList.erase NativeAttribute.key key.native attributes
      else attributes

/-- What a list of moves makes of the attributes that an entity keeps at an index. -/
def Move.storedAfter (moves : List Move) (h : Handle) (index : Index)
    (attributes : List NativeAttribute) : List NativeAttribute :=
  moves.foldl (fun attributes m => m.stored h index attributes) attributes

theorem Move.storedAfter_append (before after : List Move) (h : Handle) (index : Index)
    (attributes : List NativeAttribute) :
    storedAfter (before ++ after) h index attributes =
      storedAfter after h index (storedAfter before h index attributes) :=
  List.foldl_append

/-- Where no single move is felt, the whole list is not felt either. -/
theorem Move.storedAfter_of_forall {moves : List Move} {h : Handle} {index : Index}
    (hmoves : ∀ m ∈ moves, ∀ attributes, m.stored h index attributes = attributes)
    (attributes : List NativeAttribute) : storedAfter moves h index attributes = attributes := by
  induction moves with
  | nil => rfl
  | cons m rest ih =>
    rw [storedAfter, List.foldl_cons, hmoves m List.mem_cons_self]
    exact ih fun m' hm' => hmoves m' (List.mem_cons_of_mem m hm')

/-- What a move makes of the entity with a handle, if there is one. -/
def Move.effect (m : Move) (h : Handle) (e : Option Entity) : Option Entity :=
  match m with
  | .enter h' role => if h = h' then some ⟨role, []⟩ else e
  | .leave h' => if h = h' then none else e
  | .put h' index v => if h = h' then e.map (·.putAt index v) else e
  | .erase h' index key => if h = h' then e.map (·.eraseAt index key) else e

namespace Context

variable {c c' c'' : Context} {m : Move} {moves : List Move} {h : Handle}

theorem entity?_update (c : Context) (f : Entity → Entity) (h h' : Handle) :
    (c.update h' f).entity? h = if h = h' then (c.entity? h).map f else c.entity? h := by
  by_cases heq : h = h'
  · rw [if_pos heq, heq]
    exact SlotTable.get?_update_self c.entities f h'
  · rw [if_neg heq]
    exact SlotTable.get?_update_of_ne f heq

theorem contains_iff : c.contains h = true ↔ ∃ e, c.entity? h = some e :=
  SlotTable.contains_iff

theorem contains_of_role? {role : Role} (hrole : c.role? h = some role) :
    c.contains h = true := by
  obtain ⟨e, he, -⟩ := Option.map_eq_some_iff.mp hrole
  exact contains_iff.mpr ⟨e, he⟩

theorem contains_of_role?_eq_none (hrole : c.role? h = none) : c.contains h = false := by
  have hnone : c.entity? h = none := Option.map_eq_none_iff.mp hrole
  exact congrArg Option.isSome hnone

theorem role?_of_spent (hspent : c.entities.Spent h) : c.role? h = none := by
  have hnone : c.entity? h = none := hspent.get?_eq_none
  rw [role?, hnone, Option.map_none]

theorem contains_of_spent (hspent : c.entities.Spent h) : c.contains h = false :=
  contains_of_role?_eq_none (role?_of_spent hspent)

theorem Moves.entity? (hm : c.Moves m c') (hc : c.entities.Sound) (h : Handle) :
    c'.entity? h = m.effect h (c.entity? h) := by
  cases hm with
  | enter role hadmits =>
    simp only [Move.effect]
    by_cases heq : h = c.entities.nextHandle
    · rw [if_pos heq, heq]
      exact hc.get?_insert_nextHandle ⟨role, []⟩
    · rw [if_neg heq]
      exact hc.get?_insert_of_ne ⟨role, []⟩ heq
  | leave h' hlive =>
    simp only [Move.effect]
    by_cases heq : h = h'
    · rw [if_pos heq, heq]
      exact SlotTable.get?_remove_self c.entities h'
    · rw [if_neg heq]
      exact SlotTable.get?_remove_of_ne heq
  | put h' index v hindex hlive => exact entity?_update c _ h h'
  | erase h' index key => exact entity?_update c _ h h'

theorem role?_insert (hc : c.entities.Sound) (role : Role) :
    (c.insert role).role? c.entities.nextHandle = some role := by
  have hentity : (c.insert role).entity? c.entities.nextHandle = some ⟨role, []⟩ :=
    hc.get?_insert_nextHandle ⟨role, []⟩
  rw [role?, hentity, Option.map_some]

theorem Moves.spent (hm : c.Moves m c') (hspent : c.entities.Spent h) :
    c'.entities.Spent h := by
  cases hm with
  | enter role hadmits => exact hspent.insert _
  | leave h' hlive => exact hspent.remove h'
  | put h' index v hindex hlive => exact hspent.update _ h'
  | erase h' index key => exact hspent.update _ h'

theorem Moves.known (hm : c.Moves m c') (hc : c.entities.Sound) (hknown : c.entities.Known h) :
    c'.entities.Known h := by
  cases hm with
  | enter role hadmits => exact hknown.insert hc _
  | leave h' hlive => exact hknown.remove h'
  | put h' index v hindex hlive => exact hknown.update _ h'
  | erase h' index key => exact hknown.update _ h'

theorem Moves.sound_table (hm : c.Moves m c') (hc : c.entities.Sound) : c'.entities.Sound := by
  cases hm with
  | enter role hadmits => exact hc.insert _
  | leave h' hlive => exact hc.remove h'
  | put h' index v hindex hlive => exact hc.update _ h'
  | erase h' index key => exact hc.update _ h'

/-- Whoever enters was not there before. -/
theorem Moves.entity?_enter {role : Role} (hm : c.Moves (.enter h role) c')
    (hc : c.entities.Sound) : c.entity? h = none := by
  cases hm with
  | enter _ hadmits => exact hc.get?_nextHandle

/-- An entity keeps its role until it leaves. -/
theorem Moves.role? {role : Role} (hm : c.Moves m c') (hc : c.entities.Sound)
    (hrole : c.role? h = some role) (hstays : m ≠ .leave h) : c'.role? h = some role := by
  obtain ⟨e, he, rfl⟩ := Option.map_eq_some_iff.mp hrole
  have heffect := hm.entity? hc h
  rw [he] at heffect
  unfold Context.role?
  rw [heffect]
  cases m with
  | enter h' role' =>
    have hne : h ≠ h' := by
      rintro rfl
      rw [hm.entity?_enter hc] at he
      cases he
    simp [Move.effect, hne]
  | leave h' =>
    have hne : h ≠ h' := fun heq => hstays (heq ▸ rfl)
    simp [Move.effect, hne]
  | put h' index v =>
    by_cases heq : h = h' <;> simp [Move.effect, heq, Entity.role_putAt]
  | erase h' index key =>
    by_cases heq : h = h' <;> simp [Move.effect, heq, Entity.role_eraseAt]

/-- Whoever has a role after a move had it before, or has just entered with it. -/
theorem Moves.role?_origin {role : Role} (hm : c.Moves m c') (hc : c.entities.Sound)
    (hrole : c'.role? h = some role) :
    c.role? h = some role ∨ (m = .enter h role ∧ c.Admits role) := by
  unfold Context.role? at hrole ⊢
  rw [hm.entity? hc h] at hrole
  cases hm with
  | enter role' hadmits =>
    by_cases heq : h = c.entities.nextHandle
    · subst h
      obtain rfl : role' = role := by simpa [Move.effect] using hrole
      exact Or.inr ⟨rfl, hadmits⟩
    · exact Or.inl (by simpa [Move.effect, heq] using hrole)
  | leave h' hlive =>
    by_cases heq : h = h'
    · simp [Move.effect, heq] at hrole
    · exact Or.inl (by simpa [Move.effect, heq] using hrole)
  | put h' index v hindex hlive =>
    by_cases heq : h = h'
    · exact Or.inl (by
        simpa [Move.effect, heq, Function.comp_def, Entity.role_putAt] using hrole)
    · exact Or.inl (by simpa [Move.effect, heq] using hrole)
  | erase h' index key =>
    by_cases heq : h = h'
    · exact Or.inl (by
        simpa [Move.effect, heq, Function.comp_def, Entity.role_eraseAt] using hrole)
    · exact Or.inl (by simpa [Move.effect, heq] using hrole)

theorem native_eq (c : Context) (h : Handle) (index : Index) :
    c.native h index = ((c.entity? h).map (·.native index)).getD [] := by
  unfold native
  cases c.entity? h <;> rfl

theorem native_of_entity?_eq_none (hnone : c.entity? h = none) (index : Index) :
    c.native h index = [] := by
  rw [native_eq, hnone]
  rfl

theorem native_update_of_ne (f : Entity → Entity) {h' : Handle} (hne : h ≠ h') (index : Index) :
    (c.update h' f).native h index = c.native h index := by
  rw [native_eq, native_eq c, entity?_update, if_neg hne]

/-- An update changes what an entity keeps at an index, or there is no entity. -/
private theorem native_update_self {f : Entity → Entity} {index : Index}
    (change : List NativeAttribute → List NativeAttribute)
    (hchange : ∀ e : Entity, (f e).native index = change (e.native index))
    (hnone : c.entity? h = none → change [] = []) :
    (c.update h f).native h index = change (c.native h index) := by
  rw [native_eq, native_eq c, entity?_update, if_pos rfl]
  cases he : c.entity? h with
  | none => exact (hnone he).symm
  | some e => exact hchange e

theorem Moves.native (hm : c.Moves m c') (hc : c.entities.Sound) (h : Handle) (index : Index) :
    c'.native h index = m.stored h index (c.native h index) := by
  cases hm with
  | enter role hadmits =>
    rw [native_eq, (Moves.enter role hadmits).entity? hc h]
    by_cases heq : h = c.entities.nextHandle
    · have hnone : c.entity? h = none := heq ▸ hc.get?_nextHandle
      simp only [Move.effect, if_pos heq, Move.stored, native_of_entity?_eq_none hnone,
        Option.map_some, Option.getD_some, Entity.native]
      split <;> rfl
    · simp only [Move.effect, if_neg heq, Move.stored, native_eq c]
  | leave h' hlive =>
    rw [native_eq, (Moves.leave h' hlive).entity? hc h]
    by_cases heq : h = h' <;> simp [Move.effect, Move.stored, heq, native_eq c]
  | put h' index' v hindex hlive =>
    obtain ⟨raw, hraw⟩ := Option.isSome_iff_exists.mp hindex
    by_cases heq : h = h'
    · subst h'
      refine native_update_self ((Move.put h index' v).stored h index) ?_ ?_
      · intro e
        rw [e.native_putAt hraw, Move.stored]
        by_cases hi : index = index'
        · rw [if_pos hi, if_pos ⟨rfl, hi⟩, hi]
        · rw [if_neg hi, if_neg fun hboth => hi hboth.2]
      · intro hnone
        obtain ⟨e, he⟩ := contains_iff.mp hlive
        rw [hnone] at he
        cases he
    · rw [native_update_of_ne _ heq, Move.stored, if_neg fun hboth => heq hboth.1]
  | erase h' index' key =>
    by_cases heq : h = h'
    · subst h'
      refine native_update_self ((Move.erase h index' key).stored h index) ?_ ?_
      · intro e
        rw [e.native_eraseAt, Move.stored]
        by_cases hi : index = index'
        · rw [if_pos hi, if_pos ⟨rfl, hi⟩, hi]
        · rw [if_neg hi, if_neg fun hboth => hi hboth.2]
      · intro _
        simp [Move.stored, KeyedList.erase]
    · rw [native_update_of_ne _ heq, Move.stored, if_neg fun hboth => heq hboth.1]

theorem callee?_eq_some_iff {callee : Handle} :
    c.callee? h = some callee ↔
      c.role? h = some (.call callee) ∨ c.role? h = some (.invoke callee) := by
  unfold callee? role?
  split
  · rename_i heq
    simp [heq]
  · rename_i heq
    simp [heq]
  · rename_i hcall hinvoke
    constructor
    · intro hnone
      cases hnone
    · rintro (hrole | hrole)
      · exact absurd hrole (hcall callee)
      · exact absurd hrole (hinvoke callee)

theorem exists_role_of_callee? {callee : Handle} (hcallee : c.callee? h = some callee) :
    ∃ role, c.role? h = some role := by
  rcases callee?_eq_some_iff.mp hcallee with hrole | hrole
  · exact ⟨_, hrole⟩
  · exact ⟨_, hrole⟩

/-- Who has the same role has the same callee. -/
theorem callee?_congr (hrole : c'.role? h = c.role? h) : c'.callee? h = c.callee? h := by
  unfold role? at hrole
  unfold callee?
  rw [hrole]

theorem Moves.role?_or_spent {role : Role} (hm : c.Moves m c') (hc : c.entities.Sound)
    (hrole : c.role? h = some role) : c'.role? h = some role ∨ c'.entities.Spent h := by
  by_cases hleave : m = .leave h
  · subst m
    cases hm with
    | leave _ hlive => exact Or.inr (SlotTable.spent_remove_self hlive)
  · exact Or.inl (hm.role? hc hrole hleave)

theorem Moves.isFunction (hm : c.Moves m c') (hc : c.entities.Sound) (hf : c.IsFunction h) :
    c'.IsFunction h ∨ c'.entities.Spent h := by
  obtain ⟨name, count, hrole⟩ := hf
  exact (hm.role?_or_spent hc hrole).imp_left fun hrole => ⟨name, count, hrole⟩

/-- What holds of every context that was built up by moves. -/
structure Sound (c : Context) : Prop where
  table : c.entities.Sound
  callee : ∀ h callee, c.callee? h = some callee →
    c.IsFunction callee ∨ c.entities.Spent callee

theorem sound_empty : empty.Sound where
  table := SlotTable.sound_empty
  callee h callee hcallee := by
    have hnone : empty.entity? h = none := by
      cases h with
      | null => rfl
      | issued slot generation => simp [entity?, empty, SlotTable.empty, SlotTable.get?]
    simp [callee?, hnone] at hcallee

/-- If roles come from somewhere, so do callees. -/
theorem callee?_origin {callee : Handle}
    (horigin : ∀ role, c'.role? h = some role → c.role? h = some role ∨ c.Admits role)
    (hcallee : c'.callee? h = some callee) :
    c.callee? h = some callee ∨ c.IsFunction callee := by
  rw [callee?_eq_some_iff]
  rcases callee?_eq_some_iff.mp hcallee with hrole | hrole
  · exact (horigin _ hrole).imp_left Or.inl
  · exact (horigin _ hrole).imp_left Or.inr

theorem Moves.sound (hm : c.Moves m c') (hc : c.Sound) : c'.Sound where
  table := hm.sound_table hc.table
  callee h callee hcallee := by
    have horigin := callee?_origin
      (fun role hrole => (hm.role?_origin hc.table hrole).imp_right And.right) hcallee
    rcases horigin.elim (hc.callee h callee) Or.inl with hfunction | hspent
    · exact hm.isFunction hc.table hfunction
    · exact Or.inr (hm.spent hspent)

namespace Path

theorem sound (hp : c.Path moves c') (hc : c.Sound) : c'.Sound := by
  induction hp with
  | nil => exact hc
  | snoc _ hm ih => exact hm.sound ih

theorem spent (hp : c.Path moves c') (hspent : c.entities.Spent h) : c'.entities.Spent h := by
  induction hp with
  | nil => exact hspent
  | snoc _ hm ih => exact hm.spent ih

theorem known (hp : c.Path moves c') (hc : c.Sound) (hknown : c.entities.Known h) :
    c'.entities.Known h := by
  induction hp with
  | nil => exact hknown
  | snoc hp hm ih => exact hm.known (hp.sound hc).table ih

/-- An entity keeps its role as long as it is there. -/
theorem role?_or_spent {role : Role} (hp : c.Path moves c') (hc : c.Sound)
    (hrole : c.role? h = some role) : c'.role? h = some role ∨ c'.entities.Spent h := by
  induction hp with
  | nil => exact Or.inl hrole
  | snoc hp hm ih =>
    rcases ih with hrole | hspent
    · exact hm.role?_or_spent (hp.sound hc).table hrole
    · exact Or.inr (hm.spent hspent)

/-- Whoever has a role had it from the start, or entered with it. -/
theorem role?_origin {role : Role} (hp : c.Path moves c') (hc : c.Sound)
    (hrole : c'.role? h = some role) : c.role? h = some role ∨ .enter h role ∈ moves := by
  induction hp with
  | nil => exact Or.inl hrole
  | snoc hp hm ih =>
    rcases hm.role?_origin (hp.sound hc).table hrole with hrole | ⟨rfl, -⟩
    · exact (ih hrole).imp_right fun hmem => List.mem_append_left _ hmem
    · exact Or.inr (List.mem_append_right _ (List.mem_singleton_self _))

theorem native (hp : c.Path moves c') (hc : c.Sound) (h : Handle) (index : Index) :
    c'.native h index = Move.storedAfter moves h index (c.native h index) := by
  induction hp with
  | nil => rfl
  | snoc hp hm ih =>
    rw [Move.storedAfter_append, ← ih]
    exact hm.native (hp.sound hc).table h index

theorem trans {moves' : List Move} (hp : c.Path moves c') (hp' : c'.Path moves' c'') :
    c.Path (moves ++ moves') c'' := by
  induction hp' with
  | nil => simpa using hp
  | snoc _ hm ih =>
    rw [← List.append_assoc]
    exact ih.snoc hm

end Path

end Context

end IRAttributes
