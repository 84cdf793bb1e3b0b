import IRAttributes.Proofs.Callees

/-!
Handles that find nothing. Whatever is asked through such a handle, directly,
through a set or through a view taken earlier, sees nothing, adds nothing and
changes nothing. Once an entity is removed its handle stays like that for the
rest of the run, as the null handle always is, because no operation issues a
handle that was issued before; and an entity begins without attributes, whoever
had its slot.
-/
namespace IRAttributes

/-- Moves that concern one entity, which does not enter. -/
def Move.Concerns (h : Handle) : Move → Prop
  | .enter _ _ => False
  | .leave h' | .put h' _ _ | .erase h' _ _ => h' = h

/-- The handles that were issued in a run. -/
def issued : List (Except Error Reply) → List Handle
  | [] => []
  | .ok (.entity h) :: rest => h :: issued rest
  | _ :: rest => issued rest

theorem issued_cons (reply : Except Error Reply) (rest : List (Except Error Reply)) :
    (∃ h, reply = .ok (.entity h) ∧ issued (reply :: rest) = h :: issued rest) ∨
      issued (reply :: rest) = issued rest := by
  rcases reply with e | (h | a)
  · exact Or.inr rfl
  · exact Or.inl ⟨h, rfl, rfl⟩
  · exact Or.inr rfl

namespace Context

variable {c c' : Context} {h : Handle} {index : Index}

theorem Moves.eq_of_concerns {m : Move} (hm : c.Moves m c') (hgone : c.contains h = false)
    (hconcerns : m.Concerns h) : c' = c := by
  cases hm with
  | enter role hadmits => exact False.elim hconcerns
  | leave h' hlive =>
    obtain rfl : h' = h := hconcerns
    rw [hgone] at hlive
    cases hlive
  | put h' index v hindex hlive =>
    obtain rfl : h' = h := hconcerns
    rw [hgone] at hlive
    cases hlive
  | erase h' index key =>
    obtain rfl : h' = h := hconcerns
    have hnone : c.entities.get? h' = none :=
      Option.isNone_iff_eq_none.mp (Option.isSome_eq_false_iff.mp hgone)
    rw [update, SlotTable.update_of_get?_eq_none hnone]

theorem Path.eq_of_concerns {moves : List Move} (hp : c.Path moves c')
    (hgone : c.contains h = false) (hconcerns : ∀ m ∈ moves, m.Concerns h) : c' = c := by
  induction hp with
  | nil => rfl
  | snoc hp hm ih =>
    obtain rfl := ih fun m hmem => hconcerns m (List.mem_append_left _ hmem)
    exact hm.eq_of_concerns hgone (hconcerns _ List.mem_concat_self)

/-- What is asked through a handle that finds nothing: nothing is seen, nothing
can be added, and nothing changes. -/
structure Gone (c : Context) (h : Handle) : Prop where
  contains : c.contains h = false
  remove : (c.perform (.removeEntity h)).answer = .ok (.answer (.truth false))
  functionName? : c.functionName? h = none
  parameterCount : c.parameterCount h = .error .deadHandle
  buildCall : (c.perform (.buildCall h)).answer = .error .deadHandle
  buildInvoke : (c.perform (.buildInvoke h)).answer = .error .deadHandle
  attributes : ∀ index, c.attributes h index = []
  count : ∀ index, c.count h index = 0
  find? : ∀ index key, c.find? h index key = none
  viewSummary : ∀ index, (c.perform (.onView ⟨h, index⟩ .summary)).answer =
    .ok (.answer (.summary ⟨index, 0, true, [], ""⟩))
  viewFind : ∀ index key, (c.perform (.onView ⟨h, index⟩ (.find key))).answer =
    .ok (.answer (.found none))
  viewHas : ∀ index key, (c.perform (.onView ⟨h, index⟩ (.has key))).answer =
    .ok (.answer (.truth false))
  add : ∀ index v, (c.perform (.onStore h (.add index v))).answer = .error .deadHandle
  viewAdd : ∀ index v, (c.perform (.onView ⟨h, index⟩ (.add v))).answer = .error .deadHandle
  set : ∀ request : SetRequest, request.index? ≠ none →
    (c.perform (.onSet (.entity h) request)).answer = .error .deadHandle
  unchanged : ∀ op : Operation, (∀ h' index, op.Addresses h' index → h' = h) →
    (∀ role, op.role? = some role → role = .call h ∨ role = .invoke h) →
    (c.perform op).state = c

theorem not_isFunction_of_none (hrole : c.role? h = none) : ¬ c.IsFunction h := by
  rintro ⟨name, count, hsome⟩
  rw [hrole] at hsome
  cases hsome

/-- Nothing can be called that is not there. -/
theorem perform_refused (hrole : c.role? h = none) {op : Operation} {role : Role}
    (hop : op.role? = some role) (hcallee : role = .call h ∨ role = .invoke h) :
    (c.perform op).answer = .error .deadHandle ∧ (c.perform op).state = c := by
  have hrefused : ¬ c.Admits role := by
    rcases hcallee with rfl | rfl
    · exact not_isFunction_of_none hrole
    · exact not_isFunction_of_none hrole
  rcases c.perform_creating hop with ⟨hadmits, -, -⟩ | ⟨-, hanswer, hstate⟩
  · exact absurd hadmits hrefused
  · exact ⟨hanswer, hstate⟩

theorem unchanged_of_role?_eq_none (hrole : c.role? h = none) {op : Operation}
    (haddress : ∀ h' index, op.Addresses h' index → h' = h)
    (hcreates : ∀ role, op.role? = some role → role = .call h ∨ role = .invoke h) :
    (c.perform op).state = c := by
  cases hop : op.role? with
  | some role => exact (perform_refused hrole hop (hcreates role hop)).2
  | none =>
    obtain ⟨moves, hpath, hpermits⟩ := c.path_perform op
    refine hpath.eq_of_concerns (contains_of_role?_eq_none hrole) ?_
    intro m hm
    have hpermit := hpermits m hm
    cases m with
    | enter h' role =>
      rw [Operation.Permits, hop] at hpermit
      cases hpermit
    | leave h' =>
      obtain rfl : op = .removeEntity h' := hpermit
      exact haddress h' .function rfl
    | put h' index v => exact haddress h' index hpermit.1
    | erase h' index key => exact haddress h' index hpermit

theorem native_of_role?_eq_none (hrole : c.role? h = none) (index : Index) :
    c.native h index = [] :=
  native_of_entity?_eq_none (Option.map_eq_none_iff.mp hrole) index

theorem attributes_of_role?_eq_none (hrole : c.role? h = none) (index : Index) :
    c.attributes h index = [] := by
  rw [attributes, native_of_role?_eq_none hrole, List.filterMap_nil]

theorem count_of_role?_eq_none (hrole : c.role? h = none) (index : Index) :
    c.count h index = 0 := by
  rw [count, native_of_role?_eq_none hrole]
  rfl

theorem find?_of_role?_eq_none (hrole : c.role? h = none) (index : Index) (key : Key) :
    c.find? h index key = none := by
  rw [find?, native_of_role?_eq_none hrole]
  rfl

theorem view_find?_of_role?_eq_none (hrole : c.role? h = none) (index : Index) (key : Key) :
    ((View.find? store ⟨h, index⟩ key).run c).answer = none := by
  rw [answer_view_find?, find?_of_role?_eq_none hrole]

theorem put_of_role?_eq_none (hrole : c.role? h = none) (index : Index) (v : Attribute) :
    c.put h index v = .error .deadHandle := by
  unfold put
  split
  · rw [parameterCount_of_none hrole]
    rfl
  · rw [contains_of_role?_eq_none hrole, if_neg Bool.false_ne_true]

/-- No set gives access to anything of an entity that is not there. -/
theorem collectionAt_of_role?_eq_none (hrole : c.role? h = none) (index : Index) :
    (((store.attributeSet h).collectionAt index).run.run c).answer = .error .deadHandle := by
  have hcount : ((store.parameterCount h).run.run c).answer = .error .deadHandle :=
    parameterCount_of_none hrole
  exact (Action.bind_of_error _ (Action.bind_of_error _ hcount).1).1

/-- Whatever a request wants of an index, it needs the collection there first. -/
theorem set_of_role?_eq_none (hrole : c.role? h = none) (request : SetRequest)
    (hindex : request.index? ≠ none) :
    (c.perform (.onSet (.entity h) request)).answer = .error .deadHandle := by
  have hat := collectionAt_of_role?_eq_none hrole
  refine (Action.bind_of_error _ ?_).1
  cases request with
  | parameterCount => exact absurd rfl hindex
  | parameterSummary position =>
    let count : Action Context (Option UInt32) := liftM (store.attributeSet h).parameterCount
    have hcount : (count.run.run c).answer = .ok none := by
      have hdead : ((store.parameterCount h).run.run c).answer = .error .deadHandle :=
        parameterCount_of_none hrole
      exact congrArg (fun r => Except.ok (Except.toOption r)) hdead
    have hrange : (((store.attributeSet h).parameterCollection position).run.run c).answer =
        .error .deadHandle := by
      refine (Action.bind_of_ok _ hcount).1.trans ?_
      exact hat (.parameter position)
    exact (Action.bind_of_error _ (Action.bind_of_error _ hrange).1).1
  | summary index | addKind index | addKinds index | addPayload index | add index | addAll index
  | remove index | has index | text index | payload index | hasAny index =>
    exact (Action.bind_of_error _ (Action.bind_of_error _ (hat index)).1).1

theorem perform_removeEntity (c : Context) (h : Handle) :
    (c.perform (.removeEntity h)).answer = .ok (.answer (.truth (c.contains h))) := by
  have hremove : ((Context.remove h).run c).answer = c.contains h := by
    cases hlive : c.contains h with
    | true => simp only [Context.remove, hlive, if_true]
    | false => simp only [Context.remove, hlive, Bool.false_eq_true, if_false]
  exact congrArg (fun b => Except.ok (Reply.answer (.truth b))) hremove

theorem gone_of_role?_eq_none (hrole : c.role? h = none) : c.Gone h where
  contains := contains_of_role?_eq_none hrole
  remove := by rw [perform_removeEntity, contains_of_role?_eq_none hrole]
  functionName? := functionName?_of_none hrole
  parameterCount := parameterCount_of_none hrole
  buildCall := by
    have hop : (Operation.buildCall h).role? = some (.call h) := rfl
    exact (perform_refused hrole hop (Or.inl rfl)).1
  buildInvoke := by
    have hop : (Operation.buildInvoke h).role? = some (.invoke h) := rfl
    exact (perform_refused hrole hop (Or.inr rfl)).1
  attributes := attributes_of_role?_eq_none hrole
  count := count_of_role?_eq_none hrole
  find? := find?_of_role?_eq_none hrole
  viewSummary index := by
    have hsummary : (((View.collection store ⟨h, index⟩).summary).run c).answer =
        ⟨index, (c.count h index).toNat, (c.count h index).toNat == 0, c.attributes h index,
          Attribute.textOfList (c.attributes h index)⟩ := rfl
    rw [count_of_role?_eq_none hrole, attributes_of_role?_eq_none hrole] at hsummary
    exact congrArg (fun s => Except.ok (Reply.answer (.summary s))) hsummary
  viewFind index key :=
    congrArg (fun v => Except.ok (Reply.answer (.found v)))
      (view_find?_of_role?_eq_none hrole index key)
  viewHas index key :=
    congrArg (fun v : Option Attribute => Except.ok (Reply.answer (.truth v.isSome)))
      (view_find?_of_role?_eq_none hrole index key)
  add index v := by
    have hadd : ((store.add h index v).run.run c).answer = .error .deadHandle := by
      simp only [store, ExceptT.run_mk, put_of_role?_eq_none hrole]
    exact (Action.bind_of_error _ (Action.bind_of_error _ hadd).1).1
  viewAdd index v := by
    have hcount : ((store.parameterCount h).run.run c).answer = .error .deadHandle :=
      parameterCount_of_none hrole
    exact (Action.bind_of_error _ (Action.bind_of_error _ (Action.bind_of_error _ hcount).1).1).1
  set := set_of_role?_eq_none hrole
  unchanged _ := unchanged_of_role?_eq_none hrole

theorem known_perform (hc : c.Sound) (op : Operation) (hknown : c.entities.Known h) :
    (c.perform op).state.entities.Known h := by
  obtain ⟨moves, hpath, -⟩ := c.path_perform op
  exact hpath.known hc hknown

/-- No handle is issued that was known before, and none is issued twice. -/
theorem issued_fresh (hc : c.Sound) (ops : List Operation) :
    (issued (c.replies ops)).Nodup ∧ ∀ h ∈ issued (c.replies ops), ¬ c.entities.Known h := by
  induction ops generalizing c with
  | nil => exact ⟨List.nodup_nil, fun h hmem => absurd hmem List.not_mem_nil⟩
  | cons op rest ih =>
    obtain ⟨hnodup, hfresh⟩ := ih (sound_after hc [op])
    have hearlier : ∀ h ∈ issued ((c.perform op).state.replies rest), ¬ c.entities.Known h :=
      fun h hmem hknown => hfresh h hmem (known_perform hc op hknown)
    rw [replies_cons]
    rcases issued_cons (c.perform op).answer ((c.perform op).state.replies rest) with
      ⟨h, hanswer, hissued⟩ | hissued
    · obtain ⟨role, -, -, rfl, hstate⟩ := perform_entity hanswer
      -- the new handle is known from here on, and the rest issues none that is
      have hknown : (c.perform op).state.entities.Known c.entities.nextHandle := by
        rw [hstate]
        exact hc.table.known_insert_nextHandle ⟨role, []⟩
      rw [hissued]
      refine ⟨List.nodup_cons.mpr ⟨fun hmem => hfresh _ hmem hknown, hnodup⟩, ?_⟩
      intro h hmem
      rcases List.mem_cons.mp hmem with rfl | hmem
      · exact hc.table.not_known_nextHandle
      · exact hearlier h hmem
    · rw [hissued]
      exact ⟨hnodup, hearlier⟩

theorem spent_of_removed
    (hanswer : (c.perform (.removeEntity h)).answer = .ok (.answer (.truth true))) :
    (c.perform (.removeEntity h)).state.entities.Spent h := by
  have hlive : c.contains h = true := by
    rw [perform_removeEntity] at hanswer
    injection hanswer with hreply
    injection hreply with htruth
    injection htruth
  have hstate : ((Context.remove h).run c).state = ⟨c.entities.remove h⟩ := by
    simp only [Context.remove, hlive, if_true]
  have hremove : (c.perform (.removeEntity h)).state = ⟨c.entities.remove h⟩ := hstate
  rw [hremove]
  exact SlotTable.spent_remove_self hlive

/-- Whoever left is gone, and nobody is taken for somebody else. After a removal
that succeeded, its handle finds nothing in the rest of the run, and neither does
the null handle anywhere; the handles issued in a run are all different; and
whoever is created has no attributes at any index. -/
theorem gone_in_run (ops : List Operation) :
    (∀ h, ((empty.after ops).perform (.removeEntity h)).answer = .ok (.answer (.truth true)) →
      ∀ later, (empty.after (ops ++ .removeEntity h :: later)).Gone h) ∧
    (empty.after ops).Gone .null ∧
    (issued (empty.replies ops)).Nodup ∧
    ∀ op h, ((empty.after ops).perform op).answer = .ok (.entity h) → ∀ index,
      ((empty.after ops).perform op).state.attributes h index = [] ∧
        ((empty.after ops).perform op).state.count h index = 0 := by
  have hsound := sound_reached ops
  refine ⟨?_, gone_of_role?_eq_none rfl, (issued_fresh sound_empty ops).1, ?_⟩
  · intro h hanswer later
    rw [after_append, after_cons]
    exact gone_of_role?_eq_none (role?_of_spent (spent_after (spent_of_removed hanswer) later))
  · intro op h hanswer index
    have hnative := native_of_created hsound hanswer index
    rw [attributes, count, hnative]
    exact ⟨rfl, rfl⟩

end Context

end IRAttributes
