import IRAttributes.Proofs.Callees
import IRAttributes.Proofs.History
import IRAttributes.Proofs.Views

/-!
An owned set and an entity of a context that mirror each other: at every index
the entity has, the context keeps the native form of what the set keeps. Then
nothing that is asked of both tells them apart, whatever happens to the rest of
the context. Sizes are the one exception, since a store counts with 32 bits.
-/
namespace IRAttributes

/-- The indices of an entity with so many parameters, as far as a store numbers them. -/
def Index.Within (count : UInt32) : Index → Prop
  | .parameter position => position < count ∧ position ≤ 4294967293
  | _ => True

namespace Index.Within

variable {count : UInt32} {index : Index}

theorem inRange (h : index.Within count) : Placement.InRange index (some count) := by
  cases index with
  | parameter position => exact h.1
  | returnValue | function => trivial

theorem exists_raw (h : index.Within count) : ∃ raw, index.raw? = some raw := by
  cases index with
  | returnValue => exact ⟨0, rfl⟩
  | function => exact ⟨rawFunction, rfl⟩
  | parameter position =>
    have hle : position.toNat ≤ 4294967293 := UInt32.le_iff_toNat_le.mp h.2
    have hsum : (position + 1).toNat = position.toNat + 1 := by
      rw [UInt32.toNat_add, UInt32.toNat_one]
      omega
    exact ⟨position + 1, raw?_parameter_eq_some_iff.mpr ⟨by omega, hsum⟩⟩

/-- Only the last parameter of an entity with as many as possible has no number. -/
theorem of_inRange (hin : Placement.InRange index (some count))
    (hne : index ≠ .parameter 4294967294) : index.Within count := by
  cases index with
  | returnValue | function => trivial
  | parameter position =>
    have hlt : position < count := hin
    have hposition : position.toNat ≠ 4294967294 := by
      intro heq
      exact hne (congrArg Index.parameter (UInt32.toNat_inj.mp heq))
    have hcount := count.toNat_lt
    rw [UInt32.lt_iff_toNat_lt] at hlt
    refine ⟨hin, UInt32.le_iff_toNat_le.mpr ?_⟩
    simp only [UInt32.toNat_ofNat]
    omega

/-- An index that an entity has is checked like that of an owned collection. -/
theorem check_eq (h : index.Within count) (v : Attribute) :
    Placement.check v index (some count) = Placement.check v index none := by
  have hsome := (Placement.checkRange_eq_ok_iff index (some count)).mpr h.inRange
  have hnone : Placement.checkRange index none = .ok () :=
    (Placement.checkRange_eq_ok_iff index none).mpr (by cases index <;> trivial)
  simp only [Placement.check, hsome, hnone]

end Index.Within

namespace Context

/-- A context puts an attribute wherever an entity has a numbered index. -/
theorem exists_put {c : Context} {h : Handle} {index : Index} {count : UInt32}
    (hcount : c.parameterCount h = .ok count) (hindex : index.Within count) (v : Attribute) :
    ∃ c', c.put h index v = .ok c' := by
  have hlive : c.contains h = true := by
    cases hrole : c.role? h with
    | none =>
      rw [parameterCount_of_none hrole] at hcount
      cases hcount
    | some role => exact contains_of_role? hrole
  exact exists_put_of_contains hlive (Option.isSome_iff_exists.mpr hindex.exists_raw) v

end Context

/-- An entity of a context, with its callee if it is a call site, and its number
of parameters. -/
structure Subject where
  entity : Handle
  callee : Option Handle
  count : UInt32

namespace Subject

/-- The entity exists as described, and so does its callee. -/
structure Standing (subject : Subject) (c : Context) : Prop where
  sound : c.Sound
  parameters : c.HasParameters subject.entity subject.count
  callee : c.callee? subject.entity = subject.callee

variable {subject : Subject} {c c' : Context} {s : OwnedSet}

theorem Standing.parameterCount (h : subject.Standing c) :
    c.parameterCount subject.entity = .ok subject.count :=
  h.parameters.parameterCount h.sound

theorem Standing.contains (h : subject.Standing c) : c.contains subject.entity = true := by
  obtain ⟨role, hrole⟩ := h.parameters.exists_role
  exact Context.contains_of_role? hrole

/-- The subject outlives a move by which neither it nor its callee leaves. -/
theorem Standing.move {m : Move} (h : subject.Standing c) (hm : c.Moves m c')
    (hentity : m ≠ .leave subject.entity) (hcallee : ∀ f ∈ subject.callee, m ≠ .leave f) :
    subject.Standing c' := by
  obtain ⟨role, hrole⟩ := h.parameters.exists_role
  have hrole' := hm.role? h.sound.table hrole hentity
  have hsame : c'.callee? subject.entity = c.callee? subject.entity :=
    Context.callee?_congr (hrole'.trans hrole.symm)
  refine ⟨hm.sound h.sound, ?_, hsame.trans h.callee⟩
  rcases h.parameters with ⟨name, hfunction⟩ | ⟨f, name, hf, hfunction⟩
  · exact Or.inl ⟨name, hm.role? h.sound.table hfunction hentity⟩
  · have hmem : f ∈ subject.callee := h.callee ▸ hf
    exact Or.inr ⟨f, name, hsame.trans hf, hm.role? h.sound.table hfunction (hcallee f hmem)⟩

/-- At every index that the entity has, the context keeps in native form what the
owned set keeps as it is. -/
structure Mirrors (subject : Subject) (s : OwnedSet) (c : Context) : Prop where
  standing : subject.Standing c
  native : ∀ index : Index, index.Within subject.count → c.native subject.entity index =
    (s.getOrEmpty index).attributes.map NativeAttribute.ofAttribute
  wellFormed : ∀ index : Index, index.Within subject.count →
    ∀ v ∈ (s.getOrEmpty index).attributes, v.WellFormed

/-- A count of 32 bits does not overflow at any index of the entity. -/
def Fits (count : UInt32) (s : OwnedSet) : Prop :=
  ∀ index : Index, index.Within count → (s.getOrEmpty index).attributes.length < 4294967296

def MirrorsSized (subject : Subject) (s : OwnedSet) (c : Context) : Prop :=
  subject.Mirrors s c ∧ Fits subject.count s

theorem Mirrors.attributes (h : subject.Mirrors s c) {index : Index}
    (hindex : index.Within subject.count) :
    c.attributes subject.entity index = (s.getOrEmpty index).attributes :=
  Context.attributes_of_native_eq_map (h.wellFormed index hindex) (h.native index hindex)

theorem Mirrors.access (h : subject.Mirrors s c) (index : Index) :
    subject.Mirrors (s.access index) c where
  standing := h.standing
  native index' hindex' := by
    rw [s.getOrEmpty_access]
    exact h.native index' hindex'
  wellFormed index' hindex' := by
    rw [s.getOrEmpty_access]
    exact h.wellFormed index' hindex'

theorem MirrorsSized.access (h : subject.MirrorsSized s c) (index : Index) :
    subject.MirrorsSized (s.access index) c := by
  refine ⟨h.1.access index, ?_⟩
  intro index' hindex'
  rw [s.getOrEmpty_access]
  exact h.2 index' hindex'

/-- One index changes in both, to what again mirrors each other. -/
theorem Mirrors.change (h : subject.Mirrors s c) (hc' : subject.Standing c') {index : Index}
    (vs : List Attribute) (hvs : ∀ v ∈ vs, v.WellFormed)
    (hnative : ∀ index', c'.native subject.entity index' =
      if index' = index then vs.map NativeAttribute.ofAttribute
      else c.native subject.entity index') :
    subject.Mirrors (s.put ⟨index, vs⟩) c' where
  standing := hc'
  native index' hindex' := by
    rw [hnative, OwnedSet.getOrEmpty_put]
    by_cases heq : index = index'
    · rw [if_pos heq.symm, if_pos heq]
    · rw [if_neg (Ne.symm heq), if_neg heq]
      exact h.native index' hindex'
  wellFormed index' hindex' := by
    rw [OwnedSet.getOrEmpty_put]
    by_cases heq : index = index'
    · rw [if_pos heq]
      exact hvs
    · rw [if_neg heq]
      exact h.wellFormed index' hindex'

theorem Mirrors.put (h : subject.Mirrors s c) {index : Index}
    (hindex : index.Within subject.count) {v : Attribute} (hv : v.WellFormed)
    (hput : c.put subject.entity index v = .ok c') :
    subject.Mirrors (s.put ((s.getOrEmpty index).put v)) c' := by
  have hmoves := Context.moves_put hput
  have hstanding := h.standing.move hmoves Move.noConfusion fun _ _ => Move.noConfusion
  have hcollection : (s.getOrEmpty index).put v =
      ⟨index, KeyedList.put Attribute.key v (s.getOrEmpty index).attributes⟩ := by
    rw [OwnedCollection.put, s.index_getOrEmpty]
  rw [hcollection]
  refine h.change hstanding _ ?_ ?_
  · intro w hw
    rcases KeyedList.mem_put Attribute.key hw with rfl | hmem
    · exact hv
    · exact h.wellFormed index hindex w hmem
  · intro index'
    rw [hmoves.native h.standing.sound.table, Move.stored]
    by_cases heq : index' = index
    · rw [if_pos ⟨rfl, heq⟩, if_pos heq, heq, h.native index hindex,
        NativeAttribute.put_map_ofAttribute]
    · rw [if_neg fun hboth => heq hboth.2, if_neg heq]

theorem Mirrors.erase (h : subject.Mirrors s c) {index : Index}
    (hindex : index.Within subject.count) (key : Key) :
    subject.Mirrors
      (s.put ⟨index, KeyedList.erase Attribute.key key (s.getOrEmpty index).attributes⟩)
      (c.erase subject.entity index key) := by
  have hmoves := c.moves_erase subject.entity index key
  have hstanding := h.standing.move hmoves Move.noConfusion fun _ _ => Move.noConfusion
  refine h.change hstanding _ ?_ ?_
  · intro w hw
    exact h.wellFormed index hindex w (List.mem_filter.mp hw).1
  · intro index'
    rw [hmoves.native h.standing.sound.table, Move.stored]
    by_cases heq : index' = index
    · rw [if_pos ⟨rfl, heq⟩, if_pos heq, heq, h.native index hindex,
        NativeAttribute.erase_map_ofAttribute]
    · rw [if_neg fun hboth => heq hboth.2, if_neg heq]

/-- Something happens to the context elsewhere. -/
theorem Mirrors.elsewhere (h : subject.Mirrors s c) {op : Operation} {moves : List Move}
    (hp : c.Path moves c') (hpermits : ∀ m ∈ moves, op.Permits m)
    (haddress : ∀ index, ¬ op.Addresses subject.entity index)
    (hcallee : ∀ f ∈ subject.callee, op ≠ .removeEntity f) : subject.Mirrors s c' := by
  have hstanding : subject.Standing c' := by
    induction hp with
    | nil => exact h.standing
    | @snoc moves m c' c'' hp hm ih =>
      have hpermit := hpermits m List.mem_concat_self
      have hbefore := ih fun m' hm' => hpermits m' (List.mem_append_left _ hm')
      refine hbefore.move hm ?_ ?_
      · rintro rfl
        obtain rfl : op = .removeEntity subject.entity := hpermit
        exact haddress .function rfl
      · rintro f hf rfl
        exact hcallee f hf hpermit
  refine ⟨hstanding, ?_, h.wellFormed⟩
  intro index hindex
  rw [hp.native_of_not_addresses h.standing.sound hpermits (haddress index)]
  exact h.native index hindex

end Subject

namespace Mirror

variable {subject : Subject} {index : Index}

/-- The view of the subject at an index. -/
def view (subject : Subject) (index : Index) : Collection Context :=
  View.collection Context.store ⟨subject.entity, index⟩

/-- Reading gives the same answer, and at most the index has been accessed. -/
private theorem related_reading {R : OwnedSet → Context → Prop} {α β : Type} {P : α → β → Prop}
    {x : Step OwnedCollection α} {y : Step Context β} (hR : ∀ s c, R s c → R (s.access index) c)
    (hx : ∀ s : OwnedCollection, (x.run s).state = s) (hy : ∀ c, (y.run c).state = c)
    (hanswer : ∀ s c, R s c → P (x.run (s.getOrEmpty index)).answer (y.run c).answer) :
    Step.Related R P (x.within (OwnedSet.component index)) y := by
  intro s c h
  refine ⟨hanswer s c h, ?_⟩
  have hstate : ((x.within (OwnedSet.component index)).run s).state = s.access index := by
    rw [Step.run_within]
    exact congrArg (fun d => OwnedSet.put d s) (hx (s.getOrEmpty index))
  rw [hstate, hy]
  exact hR s c h

theorem reads (hindex : index.Within subject.count) :
    Collection.Reads subject.MirrorsSized Attribute.WellFormed (OwnedSet.collection index)
      (view subject index) where
  index s c h := s.index_getOrEmpty index
  find? key := by
    refine related_reading (fun _ _ h => h.access index) (fun _ => rfl) ?_ ?_
    · intro c
      change ((View.find? Context.store ⟨subject.entity, index⟩ key).run c).state = c
      unfold View.find?
      split <;> rfl
    · intro s c h
      have hfound := Context.find?_of_native_eq_map (h.1.wellFormed index hindex)
        (h.1.native index hindex) key
      change (s.getOrEmpty index).find? key =
        ((View.find? Context.store ⟨subject.entity, index⟩ key).run c).answer
      unfold OwnedCollection.find? View.find?
      split
      · rfl
      · exact hfound.symm
  attributes := by
    refine related_reading (fun _ _ h => h.access index) (fun _ => rfl) (fun _ => rfl) ?_
    intro s c h
    exact ⟨(h.1.attributes hindex).symm, h.1.wellFormed index hindex⟩
  size := by
    refine related_reading (fun _ _ h => h.access index) (fun _ => rfl) (fun _ => rfl) ?_
    intro s c h
    have hcount : (c.count subject.entity index).toNat =
        (s.getOrEmpty index).attributes.length := by
      rw [Context.count, h.1.native index hindex, List.length_map,
        UInt32.toNat_ofNat_of_lt' (h.2 index hindex)]
    exact hcount.symm

/-- An owned set takes what is legal at the index, and the index is accessed in any case. -/
theorem owned_add (s : OwnedSet) (index : Index) (v : Attribute) :
    (∃ e, Placement.check v index none = .error e ∧
        (((OwnedSet.collection index).add v).run.run s).answer = .error e ∧
        (((OwnedSet.collection index).add v).run.run s).state = s.access index) ∨
      (Placement.check v index none = .ok () ∧
        (((OwnedSet.collection index).add v).run.run s).answer = .ok () ∧
        (((OwnedSet.collection index).add v).run.run s).state =
          s.put ((s.getOrEmpty index).put v)) := by
  have hindex := s.index_getOrEmpty index
  have hcases := (s.getOrEmpty index).add_cases v
  rw [hindex] at hcases
  rcases hcases with ⟨e, hcheck, hanswer, hstate⟩ | ⟨hcheck, hanswer, hstate⟩
  · exact Or.inl ⟨e, hcheck, hanswer, congrArg (fun c => OwnedSet.put c s) hstate⟩
  · exact Or.inr ⟨hcheck, hanswer, congrArg (fun c => OwnedSet.put c s) hstate⟩

theorem writes (hindex : index.Within subject.count) :
    Collection.Writes subject.Mirrors Attribute.WellFormed (OwnedSet.collection index)
      (view subject index) where
  index s c h := s.index_getOrEmpty index
  add v hv := by
    intro s c h
    have hcount := h.standing.parameterCount
    have hcheck := hindex.check_eq v
    let viewed := (View.add Context.store ⟨subject.entity, index⟩ v).run.run c
    change Action.Agree Eq _ viewed.answer ∧ subject.Mirrors _ viewed.state
    rcases owned_add s index v with ⟨e, herror, hanswer, hstate⟩ | ⟨hok, hanswer, hstate⟩
    · obtain ⟨hanswer', hstate'⟩ := Context.view_add_of_error hcount (hcheck.trans herror)
      rw [hanswer, hstate, hanswer', hstate']
      exact ⟨rfl, h.access index⟩
    · obtain ⟨raw, hraw⟩ := hindex.exists_raw
      have hput : c.put subject.entity index v =
          .ok (c.update subject.entity (·.put raw v)) := by
        simp only [Context.put, hraw, h.standing.contains, if_true]
      obtain ⟨hanswer', hstate'⟩ := Context.view_add_of_put hcount (hcheck.trans hok) hput
      rw [hanswer, hstate, hanswer', hstate']
      exact ⟨rfl, h.put hindex hv hput⟩
  remove key := by
    intro s c h
    refine ⟨rfl, ?_⟩
    change subject.Mirrors (s.put ((s.getOrEmpty index).erase key))
      ((View.remove Context.store ⟨subject.entity, index⟩ key).run c).state
    unfold OwnedCollection.erase View.remove
    split
    · exact h.access index
    · rw [s.index_getOrEmpty]
      exact h.erase hindex key

/-- Both grant access to an index that the entity has. -/
private theorem related_collectionAt {R : OwnedSet → Context → Prop}
    {Q : Collection OwnedSet → Collection Context → Prop}
    (hR : ∀ s c, R s c → subject.Standing c ∧ R (s.access index) c)
    (hindex : index.Within subject.count)
    (hQ : Q (OwnedSet.collection index) (view subject index)) :
    Action.Related R Q (OwnedSet.attributeSet.collectionAt index)
      ((Context.store.attributeSet subject.entity).collectionAt index) := by
  intro s c h
  obtain ⟨hstanding, haccess⟩ := hR s c h
  have hrange := (Placement.checkRange_eq_ok_iff index (some subject.count)).mpr hindex.inRange
  obtain ⟨hanswer, hstate⟩ := Context.collectionAt_of_inRange hstanding.parameterCount hrange
  rw [hanswer, hstate]
  exact ⟨hQ, haccess⟩

/-- The owned set does not limit parameters, the store does, and this index is allowed by both. -/
theorem set_reads (hindex : index.Within subject.count) :
    OwnedSet.attributeSet.Reads subject.MirrorsSized Attribute.WellFormed
      (Context.store.attributeSet subject.entity) index where
  collectionAt := related_collectionAt (fun _ _ h => ⟨h.1.standing, h.access index⟩) hindex
    (reads hindex)
  parameterCollection position hposition := by
    subst hposition
    refine Action.Related.bind
      (P := fun a b => a = none ∧ b = some subject.count) ?_ ?_
    · intro s c h
      have hcount : ((Context.store.parameterCount subject.entity).run.run c).answer =
          .ok subject.count := h.1.standing.parameterCount
      have hsome : (((Context.store.attributeSet subject.entity).parameterCount).run c).answer =
          some subject.count := congrArg Except.toOption hcount
      exact ⟨⟨rfl, hsome⟩, h⟩
    · rintro _ _ ⟨rfl, rfl⟩
      have hrange := (Placement.checkRange_eq_ok_iff _ (some subject.count)).mpr hindex.inRange
      have hopen : Placement.checkRange (.parameter position) none = .ok () := rfl
      rw [hrange, hopen]
      refine Action.Related.bind (Action.Related.ofExcept _) ?_
      intro _ _ _
      exact related_collectionAt (fun _ _ h => ⟨h.1.standing, h.access _⟩) hindex (reads hindex)

theorem set_writes (hindex : index.Within subject.count) :
    OwnedSet.attributeSet.Writes subject.Mirrors Attribute.WellFormed
      (Context.store.attributeSet subject.entity) index :=
  related_collectionAt (fun _ _ h => ⟨h.standing, h.access index⟩) hindex (writes hindex)

/-- A request at an index that the entity has is answered alike, and leaves what
mirrors each other. -/
theorem run_request {request : SetRequest} {s : OwnedSet} {c : Context}
    (h : subject.MirrorsSized s c) (hat : request.index? = some index)
    (hindex : index.Within subject.count) (hvalues : ∀ v ∈ request.values, v.WellFormed) :
    ((request.run OwnedSet.attributeSet).run.run s).answer =
        ((request.run (Context.store.attributeSet subject.entity)).run.run c).answer ∧
      subject.Mirrors ((request.run OwnedSet.attributeSet).run.run s).state
        ((request.run (Context.store.attributeSet subject.entity)).run.run c).state := by
  cases hread : request.isReading with
  | true =>
    obtain ⟨hanswer, hstate⟩ := SetRequest.run_reading hread hat (set_reads hindex) s c h
    exact ⟨Action.agree_eq_iff.mp hanswer, hstate.1⟩
  | false =>
    obtain ⟨hanswer, hstate⟩ := SetRequest.run_writing hread hat (fun _ hv => hv) hvalues
      (set_writes hindex) s c h.1
    exact ⟨Action.agree_eq_iff.mp hanswer, hstate⟩

end Mirror

end IRAttributes
