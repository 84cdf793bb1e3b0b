import IRAttributes.Proofs.Attempts

/-!
The share that each operation has in what a context holds. What an operation
carries out of its attempts belongs to the places that it is addressed to, and
is all that it does to attributes. So the history of a context is known without
looking at how any of it is done, and the attributes of whoever is there are
what the history makes of nothing.
-/
namespace IRAttributes

section Addressed

variable {c : Context} {holder : Holder} {h : Handle} {index : Index} {m : Move} {a : Attempt}
  {items : List (Except Error Attribute)}

private theorem built_of_checked {checked : Except Error Unit} {built : Except Error Attribute}
    {v : Attribute} (hv : (do checked; built) = .ok v) : built = .ok v := by
  cases checked with
  | error e => cases hv
  | ok u => exact hv

/-- What a request is to add was brought along with it or built by a checked constructor. -/
theorem CollectionRequest.mem_values_or_wellFormed {request : CollectionRequest} {v : Attribute}
    (hv : .ok v ∈ request.items index) : v ∈ request.values ∨ v.WellFormed := by
  cases request with
  | add w =>
    obtain rfl := Except.ok.inj (List.mem_singleton.mp hv)
    exact Or.inl List.mem_cons_self
  | addKind kind =>
    have hbuilt := built_of_checked (List.mem_singleton.mp hv).symm
    exact Or.inr (Attribute.wellFormed_of_ofKind hbuilt)
  | addPayload kind n =>
    have hbuilt := built_of_checked (List.mem_singleton.mp hv).symm
    exact Or.inr (Attribute.wellFormed_of_ofPayload hbuilt)
  | addNamed name value =>
    exact Or.inr (Attribute.wellFormed_of_ofName (List.mem_singleton.mp hv).symm)
  | _ => cases hv

theorem SetRequest.mem_values_or_wellFormed {request : SetRequest} {v : Attribute}
    (hv : .ok v ∈ request.items) : v ∈ request.values ∨ v.WellFormed := by
  cases request with
  | addKind index kind =>
    have hbuilt := built_of_checked (List.mem_singleton.mp hv).symm
    exact Or.inr (Attribute.wellFormed_of_ofKind hbuilt)
  | addPayload index kind n =>
    have hbuilt := built_of_checked (List.mem_singleton.mp hv).symm
    exact Or.inr (Attribute.wellFormed_of_ofPayload hbuilt)
  | add index w =>
    obtain rfl := Except.ok.inj (List.mem_singleton.mp hv)
    exact Or.inl List.mem_cons_self
  | addKinds index kinds =>
    obtain ⟨kind, -, hkind⟩ := List.mem_map.mp hv
    exact Or.inr (Attribute.wellFormed_of_ofKind (built_of_checked hkind))
  | addAll index vs =>
    obtain ⟨w, hw, hok⟩ := List.mem_map.mp hv
    obtain rfl := Except.ok.inj hok
    exact Or.inl hw
  | _ => cases hv

namespace Attempt

theorem move?_of_mem_additions (ha : a ∈ items.map (.add h index)) (hm : a.move? = some m) :
    ∃ v, .ok v ∈ items ∧ m = .put h index v := by
  obtain ⟨item, hitem, rfl⟩ := List.mem_map.mp ha
  cases item with
  | error e => cases hm
  | ok v => exact ⟨v, hitem, (Option.some.inj hm).symm⟩

theorem move?_of_mem_batch (ha : a ∈ batch holder index items) (hm : a.move? = some m) :
    ∃ v, .ok v ∈ items ∧ m = .put holder.handle index v := by
  rcases List.mem_cons.mp ha with rfl | ha
  · cases hm
  · exact move?_of_mem_additions ha hm

theorem move?_of_mem_copies {vs : List Attribute} (ha : a ∈ batch holder index (vs.map .ok))
    (hm : a.move? = some m) : ∃ v ∈ vs, m = .put holder.handle index v := by
  obtain ⟨v, hv, rfl⟩ := move?_of_mem_batch ha hm
  obtain ⟨w, hw, hok⟩ := List.mem_map.mp hv
  obtain rfl := Except.ok.inj hok
  exact ⟨w, hw, rfl⟩

theorem move?_of_mem_removal {key? : Option Key} (ha : a ∈ removal h index key?)
    (hm : a.move? = some m) : ∃ key, m = .erase h index key := by
  obtain ⟨key, -, rfl⟩ := List.mem_map.mp ha
  exact ⟨key, (Option.some.inj hm).symm⟩

end Attempt

/-- What an operation attempts to do is within what it may bring about. -/
theorem Operation.permits_of_mem_attempts {op : Operation} (ha : a ∈ op.attempts c)
    (hm : a.move? = some m) : op.Permits m := by
  cases op with
  | addFunction | buildCall | buildInvoke | removeEntity => cases ha
  | onStore h request =>
    cases request with
    | add index v =>
      obtain rfl := List.mem_singleton.mp ha
      obtain rfl := Option.some.inj hm
      exact ⟨⟨rfl, rfl⟩, Or.inl (List.mem_singleton_self v)⟩
    | remove index key =>
      obtain rfl := List.mem_singleton.mp ha
      obtain rfl := Option.some.inj hm
      exact ⟨rfl, rfl⟩
    | parameterCount | createKind | createPayload | createNamed | count | attributes | find =>
      cases ha
  | onSet holder request =>
    simp only [attempts] at ha
    split at ha
    · rename_i hread hindex
      rcases List.mem_append.mp ha with ha | ha
      · obtain ⟨v, hv, rfl⟩ := Attempt.move?_of_mem_batch ha hm
        exact ⟨⟨rfl, hindex⟩, SetRequest.mem_values_or_wellFormed hv⟩
      · obtain ⟨key, rfl⟩ := Attempt.move?_of_mem_removal ha hm
        exact ⟨rfl, hindex⟩
    · cases ha
  | onView view request =>
    rcases List.mem_append.mp ha with ha | ha
    · obtain ⟨v, hv, rfl⟩ := Attempt.move?_of_mem_additions ha hm
      exact ⟨⟨rfl, rfl⟩, CollectionRequest.mem_values_or_wellFormed hv⟩
    · obtain ⟨key, rfl⟩ := Attempt.move?_of_mem_removal ha hm
      exact ⟨rfl, rfl⟩
  | setAlignment h position alignment =>
    obtain ⟨v, hv, rfl⟩ := Attempt.move?_of_mem_batch ha hm
    have hbuilt := List.mem_singleton.mp hv
    exact ⟨⟨rfl, rfl⟩, Or.inr (Attribute.wellFormed_of_ofPayload hbuilt.symm)⟩
  | addCollection target index source =>
    obtain ⟨v, hv, rfl⟩ := Attempt.move?_of_mem_copies ha hm
    exact ⟨⟨rfl, rfl⟩, Or.inr (Context.wellFormed_of_mem_attributes hv)⟩
  | addFrom target index source =>
    rcases List.mem_cons.mp ha with rfl | ha
    · cases hm
    · obtain ⟨v, hv, rfl⟩ := Attempt.move?_of_mem_copies ha hm
      exact ⟨⟨rfl, rfl⟩, Or.inr (Context.wellFormed_of_mem_attributes hv)⟩
  | applySet source target =>
    obtain ⟨d, hd, ha⟩ := List.mem_flatMap.mp ha
    obtain ⟨v, hv, rfl⟩ := Attempt.move?_of_mem_copies ha hm
    exact ⟨⟨rfl, d, hd, rfl⟩, Or.inl (List.mem_flatMap.mpr ⟨d, hd, hv⟩)⟩

end Addressed

namespace Context

/-- What an operation carries out in a context. -/
def share (c : Context) (op : Operation) : List Move := Attempt.carriedOut c (op.attempts c)

/-- What some operations carry out, each in the context that the ones before it lead to. -/
def history (c : Context) : List Operation → List Move
  | [] => []
  | op :: rest => c.share op ++ (c.perform op).state.history rest

/-- What an operation moves, apart from entities, is its share. -/
theorem path_share (c : Context) (op : Operation) :
    ∃ moves, c.Path moves (c.perform op).state ∧
      ∀ h index, Move.edits h index moves = Move.edits h index (c.share op) := by
  rcases c.perform_cases op with hmakes | ⟨hnone, moves, hpath, hedits⟩
  · exact ⟨c.share op, hmakes.path, fun _ _ => rfl⟩
  · refine ⟨moves, hpath, ?_⟩
    intro h index
    rw [hedits, share, hnone]
    rfl

theorem path_history (ops : List Operation) (c : Context) :
    ∃ moves, c.Path moves (c.after ops) ∧
      ∀ h index, Move.edits h index moves = Move.edits h index (c.history ops) := by
  induction ops generalizing c with
  | nil => exact ⟨[], Path.nil, fun _ _ => rfl⟩
  | cons op rest ih =>
    obtain ⟨first, hfirst, hedits⟩ := c.path_share op
    obtain ⟨second, hsecond, hedits'⟩ := ih (c.perform op).state
    refine ⟨first ++ second, hfirst.trans hsecond, ?_⟩
    intro h index
    rw [history, Move.edits_append, Move.edits_append, hedits, hedits']

theorem permits_of_mem_share {c : Context} {op : Operation} {m : Move} (hm : m ∈ c.share op) :
    op.Permits m := by
  obtain ⟨a, ha, hmove⟩ := List.mem_filterMap.mp hm
  exact Operation.permits_of_mem_attempts ((List.takeWhile_prefix _).subset ha) hmove

theorem permits_of_mem_history {c : Context} {ops : List Operation} {m : Move}
    (hm : m ∈ c.history ops) : ∃ op ∈ ops, op.Permits m := by
  induction ops generalizing c with
  | nil => cases hm
  | cons op rest ih =>
    rcases List.mem_append.mp hm with hm | hm
    · exact ⟨op, List.mem_cons_self, permits_of_mem_share hm⟩
    · obtain ⟨op', hop', hpermits⟩ := ih hm
      exact ⟨op', List.mem_cons_of_mem op hop', hpermits⟩

/-- A context's attributes are its history. An operation with attempts succeeds if
they all do, and what is carried out of them belongs where the operation is
addressed to. Whoever is there holds, at every index, what the additions and
removals carried out for it and that index make of nothing. A view of the index
lists just that, and finds under each key the addition that still stands; and no
operation that is addressed elsewhere changes any of it. -/
theorem attributes_of_history (ops : List Operation) (hops : ∀ op ∈ ops, op.WellFormed) :
    (∀ op : Operation, op.attempts (empty.after ops) ≠ [] →
      ((∃ reply, ((empty.after ops).perform op).answer = .ok reply) ↔
        ∀ a ∈ op.attempts (empty.after ops), a.succeeds (empty.after ops) = true)) ∧
    (∀ m ∈ empty.history ops, ∃ op ∈ ops, op.Permits m) ∧
    ∀ h, (empty.after ops).contains h = true → ∀ index,
      (empty.after ops).attributes h index =
        Edit.replay (Move.edits h index (empty.history ops)) ∧
      (∀ key v, (empty.after ops).find? h index key = some v ↔
        v.key = key ∧ Edit.Standing (Move.edits h index (empty.history ops)) v) ∧
      ((View.collection store ⟨h, index⟩).attributes.run (empty.after ops)).answer =
        (empty.after ops).attributes h index ∧
      (∀ key, (((View.collection store ⟨h, index⟩).find? key).run (empty.after ops)).answer =
        (empty.after ops).find? h index key) ∧
      ∀ op : Operation, ¬ op.Addresses h index →
        ((empty.after ops).perform op).state.attributes h index =
          (empty.after ops).attributes h index := by
  refine ⟨?_, fun m hm => permits_of_mem_history hm, ?_⟩
  · intro op hop
    rcases (empty.after ops).perform_cases op with hmakes | ⟨hnone, -⟩
    · exact hmakes.answer
    · exact absurd hnone hop
  · intro h hlive index
    have hleft : ¬ (empty.after ops).entities.Spent h := by
      intro hspent
      rw [contains_of_spent hspent] at hlive
      cases hlive
    obtain ⟨moves, hpath, hedits⟩ := path_history ops empty
    have hnative := hpath.native_eq_replay hleft index
    rw [hedits] at hnative
    have hwell : ∀ v ∈ Edit.replay (Move.edits h index (empty.history ops)), v.WellFormed := by
      refine Edit.wellFormed_replay (Move.wellFormed_of_mem_edits ?_)
      intro m hm
      obtain ⟨op, hop, hpermit⟩ := permits_of_mem_history hm
      exact Move.wellFormed_of_permits (hops op hop) hpermit
    refine ⟨attributes_of_native_eq_map hwell hnative, ?_, rfl, answer_view_find? _ h index, ?_⟩
    · intro key v
      rw [find?_of_native_eq_map hwell hnative, Edit.find?_replay_eq_some_iff]
    · intro op haddress
      rw [attributes, attributes, native_perform_of_not_addresses (sound_reached ops) haddress]

/-- A name is removed and added again later; in between, a batch of kinds ends at
one that is not for functions, and the empty name is removed in vain. -/
def addedAgain : List Operation :=
  [.addFunction "f" 0,
    .onStore (.issued 0 0) (.add .function (.named "k" "1")),
    .onSet (.entity (.issued 0 0)) (.addKinds .function [.cold, .byVal, .hot]),
    .onView ⟨.issued 0 0, .function⟩ (.remove (.name "k")),
    .onView ⟨.issued 0 0, .function⟩ (.remove (.name "")),
    .onView ⟨.issued 0 0, .function⟩ (.addNamed "k" "2")]

theorem attributes_of_history_added_again :
    (∀ op ∈ addedAgain, op.WellFormed) ∧
    empty.history addedAgain =
      [.put (.issued 0 0) .function (.named "k" "1"),
        .put (.issued 0 0) .function (.known .cold none),
        .erase (.issued 0 0) .function (.name "k"),
        .put (.issued 0 0) .function (.named "k" "2")] ∧
    (empty.after addedAgain).attributes (.issued 0 0) .function =
      [.known .cold none, .named "k" "2"] := by
  have hops : ∀ op ∈ addedAgain, op.WellFormed := by decide
  have hhistory : empty.history addedAgain =
      [.put (.issued 0 0) .function (.named "k" "1"),
        .put (.issued 0 0) .function (.known .cold none),
        .erase (.issued 0 0) .function (.name "k"),
        .put (.issued 0 0) .function (.named "k" "2")] := by decide
  obtain ⟨-, -, hheld⟩ := attributes_of_history addedAgain hops
  obtain ⟨hattributes, -⟩ := hheld (.issued 0 0) (by decide) .function
  refine ⟨hops, hhistory, ?_⟩
  rw [hattributes, hhistory]
  decide

end Context

end IRAttributes
