import IRAttributes.Proofs.Mirror
import IRAttributes.Proofs.Stock
import IRAttributes.Proofs.Union

/-!
Applying an owned set to an entity of a context. The set goes through its
indices in ascending order and puts what it keeps there, attribute by
attribute. Nothing that was built by well-formed activities is illegal on its
index, so there is only one thing that can go wrong: a parameter that the
entity does not have. What lies before the first such parameter has then been
applied in full, and everything after it is as it was.
-/
namespace IRAttributes

namespace Move

/-- The moves by which an entity gets all attributes of a collection. -/
def puts (e : Handle) (d : OwnedCollection) : List Move := d.attributes.map (.put e d.index)

variable {e : Handle} {d : OwnedCollection} {collections : List OwnedCollection}

/-- Putting something at other indices is not felt. -/
theorem storedAfter_puts_of_forall_ne {index : Index}
    (h : ∀ d ∈ collections, d.index ≠ index) (attributes : List NativeAttribute) :
    storedAfter (collections.flatMap (puts e)) e index attributes = attributes := by
  have hmoves : ∀ m ∈ collections.flatMap (puts e), ∀ attributes,
      m.stored e index attributes = attributes := by
    intro m hm attributes
    obtain ⟨d, hd, hm⟩ := List.mem_flatMap.mp hm
    obtain ⟨v, -, rfl⟩ := List.mem_map.mp hm
    exact if_neg fun hboth => h d hd hboth.2.symm
  exact storedAfter_of_forall hmoves attributes

/-- At the index of a collection its attributes are put one after the other. -/
theorem readable_storedAfter_puts (hd : ∀ v ∈ d.attributes, v.WellFormed)
    (attributes : List NativeAttribute) :
    (storedAfter (puts e d) e d.index attributes).filterMap NativeAttribute.toAttribute? =
      KeyedList.putAll Attribute.key d.attributes
        (attributes.filterMap NativeAttribute.toAttribute?) := by
  obtain ⟨index, vs⟩ := d
  induction vs generalizing attributes with
  | nil => rfl
  | cons v rest ih =>
    have hput : (Move.put e index v).stored e index attributes =
        KeyedList.put NativeAttribute.key (.ofAttribute v) attributes := if_pos ⟨rfl, rfl⟩
    have hrest := ih (KeyedList.put NativeAttribute.key (.ofAttribute v) attributes)
      fun w hw => hd w (List.mem_cons_of_mem v hw)
    rw [NativeAttribute.filterMap_put (hd v List.mem_cons_self)] at hrest
    rw [puts, List.map_cons, storedAfter, List.foldl_cons, hput]
    exact hrest

/-- Collections in ascending order do not get into each other's way. -/
theorem readable_storedAfter_collections (hascending : OwnedSet.Ascending collections)
    (hwell : ∀ v ∈ d.attributes, v.WellFormed) (hd : d ∈ collections)
    (attributes : List NativeAttribute) :
    (storedAfter (collections.flatMap (puts e)) e d.index attributes).filterMap
        NativeAttribute.toAttribute? =
      KeyedList.putAll Attribute.key d.attributes
        (attributes.filterMap NativeAttribute.toAttribute?) := by
  obtain ⟨before, after, rfl⟩ := List.append_of_mem hd
  obtain ⟨-, hafter, hbefore⟩ := List.pairwise_append.mp hascending
  have hne : ∀ d' ∈ before, d'.index ≠ d.index := fun d' hd' =>
    Index.ne_of_lt (hbefore d' hd' d List.mem_cons_self)
  have hne' : ∀ d' ∈ after, d'.index ≠ d.index := fun d' hd' =>
    (Index.ne_of_lt ((List.pairwise_cons.mp hafter).1 d' hd')).symm
  rw [List.flatMap_append, List.flatMap_cons, storedAfter_append, storedAfter_append,
    storedAfter_puts_of_forall_ne hne, storedAfter_puts_of_forall_ne hne']
  exact readable_storedAfter_puts hwell attributes

end Move

namespace Context

/-- What comes of applying an owned set to a holder of the context. -/
def apply (c : Context) (s : OwnedSet) (target : Holder) : Outcome Context (Except Error Unit) :=
  (s.applyTo (target.attributes store)).run.run c

section

variable (c : Context) (target : Holder) {d : OwnedCollection} (rest : List OwnedCollection)

/-- Nothing more is applied after an error. -/
theorem apply_cons_of_error {error : Error}
    (h : (((target.attributes store).addAll d.index d.attributes).run.run c).answer =
      .error error) :
    (c.apply ⟨d :: rest⟩ target).answer = .error error ∧
      (c.apply ⟨d :: rest⟩ target).state =
        (((target.attributes store).addAll d.index d.attributes).run.run c).state :=
  Action.bind_of_error (fun _ => (OwnedSet.mk rest).applyTo (target.attributes store)) h

theorem apply_cons_of_ok
    (h : (((target.attributes store).addAll d.index d.attributes).run.run c).answer = .ok ()) :
    (c.apply ⟨d :: rest⟩ target).answer =
        ((((target.attributes store).addAll d.index d.attributes).run.run c).state.apply ⟨rest⟩
          target).answer ∧
      (c.apply ⟨d :: rest⟩ target).state =
        ((((target.attributes store).addAll d.index d.attributes).run.run c).state.apply ⟨rest⟩
          target).state :=
  Action.bind_of_ok (fun _ => (OwnedSet.mk rest).applyTo (target.attributes store)) h

end

variable {c c' : Context} {moves : List Move} {e : Handle}

/-- Putting attributes changes no entity but the one they are put to, and no roles. -/
theorem Path.of_puts (hp : c.Path moves c') (hc : c.Sound)
    (hputs : ∀ m ∈ moves, ∃ index v, m = .put e index v) :
    c'.role? e = c.role? e ∧ ∀ h, h ≠ e → c'.entity? h = c.entity? h := by
  induction hp with
  | nil => exact ⟨rfl, fun _ _ => rfl⟩
  | @snoc moves m c' c'' hp hm ih =>
    obtain ⟨hrole, hothers⟩ := ih fun m' hm' => hputs m' (List.mem_append_left _ hm')
    obtain ⟨index, v, rfl⟩ := hputs _ List.mem_concat_self
    have heffect := hm.entity? (hp.sound hc).table
    refine ⟨?_, ?_⟩
    · have hself := heffect e
      simp only [Move.effect, if_pos] at hself
      rw [← hrole, role?, hself, Option.map_map]
      exact congrArg (Option.map · (c'.entity? e)) (funext fun entity => entity.role_putAt index v)
    · intro h hne
      rw [← hothers h hne, heffect h]
      exact if_neg hne

/-- An entity was updated with what a set holds at some of its indices, and
nothing else is different. -/
structure Updated (c : Context) (s : OwnedSet) (e : Handle) (applied : Index → Prop)
    (c' : Context) : Prop where
  updated : ∀ index vs, (index, vs) ∈ s.toList → applied index →
    c'.attributes e index = KeyedList.putAll Attribute.key vs (c.attributes e index)
  kept : ∀ index, (∀ vs, (index, vs) ∈ s.toList → ¬ applied index) →
    c'.native e index = c.native e index
  role : c'.role? e = c.role? e
  others : ∀ h, h ≠ e → c'.entity? h = c.entity? h

/-- Certain collections of a set have been put, one after the other. -/
theorem Path.updated {s : OwnedSet} {applied : Index → Prop} {part : List OwnedCollection}
    (hc : c.Sound) (hs : s.Lawful Attribute.WellFormed) (hascending : OwnedSet.Ascending part)
    (hpart : ∀ d, d ∈ part ↔ d ∈ s.collections ∧ applied d.index)
    (hp : c.Path (part.flatMap (Move.puts e)) c') : c.Updated s e applied c' := by
  have hputs : ∀ m ∈ part.flatMap (Move.puts e), ∃ index v, m = .put e index v := by
    intro m hm
    obtain ⟨d, -, hm⟩ := List.mem_flatMap.mp hm
    obtain ⟨v, -, rfl⟩ := List.mem_map.mp hm
    exact ⟨d.index, v, rfl⟩
  obtain ⟨hrole, hothers⟩ := hp.of_puts hc hputs
  refine ⟨?_, ?_, hrole, hothers⟩
  · intro index vs hpair happlied
    have hd := OwnedSet.mem_toList_iff.mp hpair
    rw [Context.attributes, hp.native hc]
    exact Move.readable_storedAfter_collections hascending (hs.collections _ hd).admissible
      ((hpart _).mpr ⟨hd, happlied⟩) _
  · intro index hnot
    rw [hp.native hc]
    refine Move.storedAfter_puts_of_forall_ne ?_ _
    rintro d hd rfl
    obtain ⟨hmem, happlied⟩ := (hpart d).mp hd
    exact hnot d.attributes (OwnedSet.mem_toList_iff.mpr hmem) happlied

end Context

namespace Subject

open Context

variable {subject : Subject} {c : Context}

/-- An attribute that is legal on an index of the subject is put there. -/
theorem Standing.exists_put (h : subject.Standing c) {index : Index}
    (hindex : index.Within subject.count) (v : Attribute) :
    ∃ c', c.put subject.entity index v = .ok c' :=
  Context.exists_put h.parameterCount hindex v

theorem Standing.view_addAll (h : subject.Standing c) {index : Index}
    (hindex : index.Within subject.count) {vs : List Attribute}
    (hvs : ∀ v ∈ vs, Placement.Legal v index) :
    ∃ c', subject.Standing c' ∧ c.Path (vs.map (.put subject.entity index)) c' ∧
      (((Mirror.view subject index).addAll vs).run.run c).answer = .ok () ∧
      (((Mirror.view subject index).addAll vs).run.run c).state = c' := by
  induction vs generalizing c with
  | nil => exact ⟨c, h, Path.nil, rfl, rfl⟩
  | cons v rest ih =>
    have hcheck : Placement.check v index (some subject.count) = .ok () :=
      (Placement.check_eq_ok_iff v index _).mpr ⟨hindex.inRange, hvs v List.mem_cons_self⟩
    obtain ⟨c₁, hput⟩ := h.exists_put hindex v
    have hmove := moves_put hput
    have h₁ := h.move hmove Move.noConfusion fun _ _ => Move.noConfusion
    obtain ⟨hadded, hstate⟩ := view_add_of_put h.parameterCount hcheck hput
    obtain ⟨c₂, h₂, hpath, hrest, hlast⟩ := ih h₁ fun w hw => hvs w (List.mem_cons_of_mem v hw)
    obtain ⟨hanswer', hstate'⟩ := Action.bind_of_ok
      (fun _ => (Mirror.view subject index).addAll rest) hadded
    rw [hstate] at hanswer' hstate'
    exact ⟨c₂, h₂, (Path.nil.snoc hmove).trans hpath, hanswer'.trans hrest, hstate'.trans hlast⟩

/-- All attributes of a collection are put if its index is one of the subject's. -/
theorem Standing.set_addAll (h : subject.Standing c) {d : OwnedCollection}
    (hindex : d.index.Within subject.count)
    (hlegal : ∀ v ∈ d.attributes, Placement.Legal v d.index) :
    ∃ c', subject.Standing c' ∧ c.Path (Move.puts subject.entity d) c' ∧
      (((store.attributeSet subject.entity).addAll d.index d.attributes).run.run c).answer =
        .ok () ∧
      (((store.attributeSet subject.entity).addAll d.index d.attributes).run.run c).state =
        c' := by
  have hrange := (Placement.checkRange_eq_ok_iff d.index (some subject.count)).mpr hindex.inRange
  obtain ⟨hreached, hsame⟩ := collectionAt_of_inRange h.parameterCount hrange
  obtain ⟨c', h', hpath, hadded, hstate⟩ := h.view_addAll hindex hlegal
  obtain ⟨hanswer, hstate'⟩ :=
    Action.bind_of_ok (fun collection => collection.addAll d.attributes) hreached
  rw [hsame] at hanswer hstate'
  exact ⟨c', h', hpath, hanswer.trans hadded, hstate'.trans hstate⟩

/-- Nothing of a collection is put if its index is out of range. -/
theorem Standing.set_addAll_of_outOfRange (h : subject.Standing c) {d : OwnedCollection}
    {error : Error}
    (hrange : Placement.checkRange d.index (some subject.count) = .error error) :
    (((store.attributeSet subject.entity).addAll d.index d.attributes).run.run c).answer =
        .error error ∧
      (((store.attributeSet subject.entity).addAll d.index d.attributes).run.run c).state =
        c := by
  obtain ⟨hrefused, hsame⟩ := collectionAt_of_outOfRange h.parameterCount hrange
  obtain ⟨hanswer, hstate⟩ :=
    Action.bind_of_error (fun collection => collection.addAll d.attributes) hrefused
  exact ⟨hanswer, hstate.trans hsame⟩

/-- Either all collections are put, or those before the first one that is out
of range. -/
theorem Standing.applyTo (h : subject.Standing c) {collections : List OwnedCollection}
    (hlegal : ∀ d ∈ collections, ∀ v ∈ d.attributes, Placement.Legal v d.index)
    (hwithin : ∀ d ∈ collections, Placement.InRange d.index (some subject.count) →
      d.index.Within subject.count) :
    ((c.apply ⟨collections⟩ (.entity subject.entity)).answer = .ok () ∧
        (∀ d ∈ collections, Placement.InRange d.index (some subject.count)) ∧
        c.Path (collections.flatMap (Move.puts subject.entity))
          (c.apply ⟨collections⟩ (.entity subject.entity)).state) ∨
      ∃ before d after error, collections = before ++ d :: after ∧
        (∀ d' ∈ before, Placement.InRange d'.index (some subject.count)) ∧
        Placement.checkRange d.index (some subject.count) = .error error ∧
        (c.apply ⟨collections⟩ (.entity subject.entity)).answer = .error error ∧
        c.Path (before.flatMap (Move.puts subject.entity))
          (c.apply ⟨collections⟩ (.entity subject.entity)).state := by
  induction collections generalizing c with
  | nil => exact Or.inl ⟨rfl, fun _ hd => absurd hd List.not_mem_nil, Path.nil⟩
  | cons d rest ih =>
    cases hrange : Placement.checkRange d.index (some subject.count) with
    | error error =>
      obtain ⟨hrefused, hsame⟩ := h.set_addAll_of_outOfRange hrange
      obtain ⟨hanswer, hstate⟩ := c.apply_cons_of_error (.entity subject.entity) rest hrefused
      have hnone : ∀ d' ∈ ([] : List OwnedCollection),
          Placement.InRange d'.index (some subject.count) :=
        fun _ hd => absurd hd List.not_mem_nil
      refine Or.inr ⟨[], d, rest, error, rfl, hnone, hrange, ?_, ?_⟩
      · exact hanswer
      · exact (hstate.trans hsame).symm ▸ Path.nil
    | ok u =>
      have hin := (Placement.checkRange_eq_ok_iff d.index (some subject.count)).mp hrange
      obtain ⟨c', h', hpath, hadded, hstate⟩ :=
        h.set_addAll (hwithin d List.mem_cons_self hin) (hlegal d List.mem_cons_self)
      obtain ⟨hanswer', hstate'⟩ := c.apply_cons_of_ok (.entity subject.entity) rest hadded
      have hafter : ((((Holder.entity subject.entity).attributes store).addAll d.index
          d.attributes).run.run c).state = c' := hstate
      have hrest := ih h' (fun d' hd' => hlegal d' (List.mem_cons_of_mem d hd'))
        fun d' hd' => hwithin d' (List.mem_cons_of_mem d hd')
      rw [hanswer', hstate', hafter]
      rcases hrest with ⟨hok, hrange', hpath'⟩ |
        ⟨before, d', after, error, rfl, hbefore, hrange', herror, hpath'⟩
      · refine Or.inl ⟨hok, List.forall_mem_cons.mpr ⟨hin, hrange'⟩, ?_⟩
        rw [List.flatMap_cons]
        exact hpath.trans hpath'
      · refine Or.inr ⟨d :: before, d', after, error, rfl,
          List.forall_mem_cons.mpr ⟨hin, hbefore⟩, hrange', herror, ?_⟩
        rw [List.flatMap_cons]
        exact hpath.trans hpath'

end Subject

namespace OwnedSet

variable {s : OwnedSet} {e : Handle} {count : UInt32}

private theorem checkRange_eq_error {index : Index} {error : Error}
    (h : Placement.checkRange index (some count) = .error error) :
    ∃ position, index = .parameter position ∧ count ≤ position ∧
      error = .parameterOutOfRange position count := by
  cases index with
  | returnValue | function => cases h
  | parameter position =>
    simp only [Placement.checkRange] at h
    split at h
    · rename_i hle
      cases h
      exact ⟨position, rfl, hle, rfl⟩
    · cases h

/-- The first collection that is out of range has the least such parameter. -/
private theorem le_of_outOfRange {before after : List OwnedCollection} {d d' : OwnedCollection}
    {position position' : UInt32} (hascending : Ascending (before ++ d :: after))
    (hbefore : ∀ d' ∈ before, Placement.InRange d'.index (some count))
    (hd : d.index = .parameter position) (hd' : d' ∈ before ++ d :: after)
    (hindex : d'.index = .parameter position') (hle : count ≤ position') :
    position ≤ position' := by
  rcases mem_split hascending hd' with ⟨hin, -⟩ | rfl | hlt
  · have hrange := hbefore d' hin
    rw [hindex] at hrange
    exact absurd hrange (UInt32.not_lt.mpr hle)
  · exact UInt32.le_of_eq (Index.parameter.inj (hd.symm.trans hindex))
  · rw [hd, hindex] at hlt
    exact UInt32.le_of_lt (decide_eq_true_iff.mp hlt)

/-- A set that was built by well-formed activities is applied to an entity with
so many parameters, in any context that a run leads to. It succeeds exactly if
the entity has all parameters of the set, and then the entity was updated at
every index of the set. Otherwise the first parameter that the entity does not
have is the error, and the entity was updated at the indices before it. -/
theorem applyTo_of_reached (hs : s.Built)
    (hnumbered : ∀ position vs, (.parameter position, vs) ∈ s.toList → position ≤ 4294967293)
    (ops : List Operation) (he : (Context.empty.after ops).HasParameters e count) :
    (((Context.empty.after ops).apply s (.entity e)).answer = .ok () ↔
        ∀ position vs, (.parameter position, vs) ∈ s.toList → position < count) ∧
      (((Context.empty.after ops).apply s (.entity e)).answer = .ok () →
        (Context.empty.after ops).Updated s e (fun _ => True)
          ((Context.empty.after ops).apply s (.entity e)).state) ∧
      ∀ error, ((Context.empty.after ops).apply s (.entity e)).answer = .error error →
        ∃ position vs, (.parameter position, vs) ∈ s.toList ∧ count ≤ position ∧
          (∀ position' vs', (.parameter position', vs') ∈ s.toList → count ≤ position' →
            position ≤ position') ∧
          error = .parameterOutOfRange position count ∧
          (Context.empty.after ops).Updated s e (· < .parameter position)
            ((Context.empty.after ops).apply s (.entity e)).state := by
  generalize hc : Context.empty.after ops = c at he
  have hsound : c.Sound := hc ▸ Context.sound_reached ops
  have hlawful := hs.lawful
  have hstanding : Subject.Standing ⟨e, c.callee? e, count⟩ c := ⟨hsound, he, rfl⟩
  have hwithin : ∀ d ∈ s.collections, Placement.InRange d.index (some count) →
      d.index.Within count := by
    rintro ⟨index, vs⟩ hd hrange
    cases index with
    | returnValue | function => trivial
    | parameter position => exact ⟨hrange, hnumbered position vs (mem_toList_iff.mpr hd)⟩
  rcases hstanding.applyTo (fun d hd => (hlawful.collections d hd).legal) hwithin with
    ⟨hok, hrange, hpath⟩ | ⟨before, d, after, error, hsplit, hbefore, hrange, herror, hpath⟩
  · have hall : ∀ position vs, (.parameter position, vs) ∈ s.toList → position < count :=
      fun position vs hpair => hrange _ (mem_toList_iff.mp hpair)
    refine ⟨⟨fun _ => hall, fun _ => hok⟩, fun _ => ?_, ?_⟩
    · exact hpath.updated hsound hlawful hlawful.ascending fun d => by simp
    · intro error herror
      rw [hok] at herror
      cases herror
  · obtain ⟨position, hposition, hle, rfl⟩ := checkRange_eq_error hrange
    have hascending : Ascending (before ++ d :: after) := hsplit ▸ hlawful.ascending
    have hpair : (.parameter position, d.attributes) ∈ s.toList := by
      rw [mem_toList_iff, ← hposition, hsplit]
      exact List.mem_append_right before List.mem_cons_self
    refine ⟨⟨fun hok => ?_, fun hall => ?_⟩, fun hok => ?_, ?_⟩
    · rw [herror] at hok
      cases hok
    · exact absurd (hall position _ hpair) (UInt32.not_lt.mpr hle)
    · rw [herror] at hok
      cases hok
    · intro error' herror'
      obtain rfl := Except.error.inj (herror.symm.trans herror')
      refine ⟨position, d.attributes, hpair, hle, ?_, rfl, ?_⟩
      · intro position' vs' hpair' hle'
        exact le_of_outOfRange hascending hbefore hposition
          (hsplit ▸ mem_toList_iff.mp hpair') rfl hle'
      · refine hpath.updated hsound hlawful (List.pairwise_append.mp hascending).1 ?_
        intro d'
        rw [← hposition, hsplit]
        exact mem_before_iff hascending

/-- Attributes for a function with two parameters. -/
def pointerPair : OwnedSet :=
  ⟨[⟨.returnValue, [.known .nonNull none]⟩, ⟨.parameter 0, [.known .alignment (some 8)]⟩,
    ⟨.parameter 1, [.known .noAlias none]⟩, ⟨.function, [.known .cold none]⟩]⟩

private theorem pointerPair_built : pointerPair.Built := by
  refine ⟨0, [], [.newSet, .onSet (.owned 0) (.addKind .function .cold),
    .onSet (.owned 0) (.addKind (.parameter 1) .noAlias),
    .onSet (.owned 0) (.addPayload (.parameter 0) .alignment 8),
    .onSet (.owned 0) (.addKind .returnValue .nonNull)], ?_, ?_⟩
  · decide
  · decide

/-- With one parameter only, the second one is refused after the first was aligned. -/
theorem applyTo_of_reached_pointerPair :
    pointerPair.Built ∧
      (Context.empty.after [.addFunction "f" 1]).HasParameters (.issued 0 0) 1 ∧
      ((Context.empty.after [.addFunction "f" 1]).apply pointerPair
        (.entity (.issued 0 0))).answer = .error (.parameterOutOfRange 1 1) ∧
      ((Context.empty.after [.addFunction "f" 1]).apply pointerPair
        (.entity (.issued 0 0))).state.attributes (.issued 0 0) (.parameter 0) =
          [.known .alignment (some 8)] ∧
      ((Context.empty.after [.addFunction "f" 1]).apply pointerPair
        (.entity (.issued 0 0))).state.native (.issued 0 0) .function = [] := by
  have hfunction : (Context.empty.after [.addFunction "f" 1]).HasParameters (.issued 0 0) 1 :=
    Or.inl ⟨"f", by decide⟩
  have hpositions : ∀ position vs, (.parameter position, vs) ∈ pointerPair.toList →
      position = 0 ∨ position = 1 := by
    intro position vs hpair
    simp only [pointerPair, toList, List.map_cons, List.map_nil, List.mem_cons, Prod.mk.injEq,
      reduceCtorEq, Index.parameter.injEq, List.not_mem_nil, false_and, or_false,
      false_or] at hpair
    exact hpair.imp And.left And.left
  have hnumbered : ∀ position vs, (.parameter position, vs) ∈ pointerPair.toList →
      position ≤ 4294967293 := by
    intro position vs hpair
    rcases hpositions position vs hpair with rfl | rfl <;> decide
  have hempty : (Context.empty.after [.addFunction "f" 1]).attributes (.issued 0 0)
      (.parameter 0) = [] := by decide
  have hempty' : (Context.empty.after [.addFunction "f" 1]).native (.issued 0 0) .function = [] := by
    decide
  obtain ⟨hiff, -, herror⟩ :=
    applyTo_of_reached pointerPair_built hnumbered [.addFunction "f" 1] hfunction
  cases hanswer : ((Context.empty.after [.addFunction "f" 1]).apply pointerPair
      (.entity (.issued 0 0))).answer with
  | ok u =>
    exact absurd (hiff.mp hanswer 1 [.known .noAlias none] (by decide)) (by decide)
  | error error =>
    obtain ⟨position, vs, hpair, hle, -, rfl, hupdated⟩ := herror error hanswer
    rcases hpositions position vs hpair with rfl | rfl
    · exact absurd hle (by decide)
    · have haligned := hupdated.updated (.parameter 0) [.known .alignment (some 8)]
        (by decide) (by decide)
      have hcold := hupdated.kept .function fun _ _ => by decide
      rw [hempty] at haligned
      rw [hempty'] at hcold
      exact ⟨pointerPair_built, hfunction, rfl, haligned, hcold⟩

end OwnedSet

end IRAttributes
