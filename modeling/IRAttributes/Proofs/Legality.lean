import IRAttributes.Proofs.Departures
import IRAttributes.Proofs.Portion
import IRAttributes.Proofs.Views

/-!
Whatever is stored is legal. If nothing is added to a context behind the back
of the checks, all its attributes are well-formed, stand on indices where their
kinds are legal, and stand on parameters that exist: the position lies below
the number that the function was declared with, or the function that a call
site was built for, even if that is gone by now. The same holds of owned sets
and collections, which do not limit the parameters.
-/
namespace IRAttributes

/-- Whatever is stored after a move was stored before, or has just been put. -/
theorem Move.mem_stored {m : Move} {h : Handle} {index : Index} {attributes : List NativeAttribute}
    {a : NativeAttribute} (ha : a ∈ m.stored h index attributes) :
    a ∈ attributes ∨ ∃ v, m = .put h index v ∧ a = .ofAttribute v := by
  cases m with
  | enter h' role => exact Or.inl ha
  | leave h' =>
    simp only [Move.stored] at ha
    split at ha
    · cases ha
    · exact Or.inl ha
  | put h' index' v =>
    simp only [Move.stored] at ha
    split at ha
    · rename_i hat
      obtain ⟨rfl, rfl⟩ := hat
      rcases KeyedList.mem_put NativeAttribute.key ha with rfl | hmem
      · exact Or.inr ⟨v, rfl, rfl⟩
      · exact Or.inl hmem
    · exact Or.inl ha
  | erase h' index' key =>
    simp only [Move.stored] at ha
    split at ha
    · exact Or.inl (List.mem_filter.mp ha).1
    · exact Or.inl ha

namespace Context

variable {c c' : Context} {h : Handle} {index : Index} {D D' : Handle → UInt32 → Prop}

/-- The function that an entity is, or that it calls. -/
def functionOf? (c : Context) (h : Handle) : Option Handle :=
  match c.role? h with
  | some (.function _ _) => some h
  | some (.call callee) | some (.invoke callee) => some callee
  | none => none

/-- An index that an entity has, going by the numbers that functions were declared with. -/
def Grants (D : Handle → UInt32 → Prop) (c : Context) (h : Handle) : Index → Prop
  | .parameter position => ∃ f count, c.functionOf? h = some f ∧ D f count ∧ position < count
  | _ => True

/-- An attribute that may stand at an index of an entity. -/
structure Fit (D : Handle → UInt32 → Prop) (c : Context) (h : Handle) (index : Index)
    (v : Attribute) : Prop where
  wellFormed : v.WellFormed
  legal : Placement.Legal v index
  granted : c.Grants D h index

/-- A context in which nothing stands where it may not. -/
structure Guarded (D : Handle → UInt32 → Prop) (c : Context) : Prop where
  sound : c.Sound
  function : ∀ h name count, c.role? h = some (.function name count) → D h count
  held : ∀ h index, ∀ a ∈ c.native h index, ∃ v, a = .ofAttribute v ∧ c.Fit D h index v

theorem functionOf?_of_callee? {callee : Handle} (hcallee : c.callee? h = some callee) :
    c.functionOf? h = some callee := by
  rcases callee?_eq_some_iff.mp hcallee with hrole | hrole
  · simp only [functionOf?, hrole]
  · simp only [functionOf?, hrole]

/-- Who keeps its role keeps its indices. -/
theorem Grants.congr (hgrants : c.Grants D h index) (hrole : c'.role? h = c.role? h) :
    c'.Grants D h index := by
  cases index with
  | parameter position =>
    obtain ⟨f, count, hf, hcount⟩ := hgrants
    refine ⟨f, count, ?_, hcount⟩
    unfold functionOf? at hf ⊢
    rw [hrole]
    exact hf
  | returnValue | function => trivial

theorem Grants.mono (hgrants : c.Grants D h index) (hD : ∀ h count, D h count → D' h count) :
    c.Grants D' h index := by
  cases index with
  | parameter position =>
    obtain ⟨f, count, hf, hcount, hlt⟩ := hgrants
    exact ⟨f, count, hf, hD f count hcount, hlt⟩
  | returnValue | function => trivial

theorem Guarded.mono (hc : c.Guarded D) (hD : ∀ h count, D h count → D' h count) :
    c.Guarded D' where
  sound := hc.sound
  function h name count hrole := hD h count (hc.function h name count hrole)
  held h index a ha := by
    obtain ⟨v, rfl, hfit⟩ := hc.held h index a ha
    exact ⟨v, rfl, hfit.wellFormed, hfit.legal, hfit.granted.mono hD⟩

theorem guarded_empty : empty.Guarded D where
  sound := sound_empty
  function h name count hrole := by
    cases h with
    | null => cases hrole
    | issued slot generation => cases hrole
  held h index a ha := by
    cases h with
    | null => cases ha
    | issued slot generation => cases ha

/-- Whoever holds something is there. -/
theorem exists_role_of_mem_native {a : NativeAttribute} (ha : a ∈ c.native h index) :
    ∃ role, c.role? h = some role := by
  cases hentity : c.entity? h with
  | none =>
    rw [native_of_entity?_eq_none hentity] at ha
    cases ha
  | some e => exact ⟨e.role, by rw [role?, hentity, Option.map_some]⟩

/-- A context stays guarded if functions enter as declared and only fit attributes are put. -/
theorem Guarded.move {m : Move} (hc : c.Guarded D) (hm : c.Moves m c')
    (henter : ∀ h name count, m = .enter h (.function name count) → D h count)
    (hput : ∀ h index v, m = .put h index v → c.Fit D h index v) : c'.Guarded D where
  sound := hm.sound hc.sound
  function h name count hrole := by
    rcases hm.role?_origin hc.sound.table hrole with hold | ⟨hentered, -⟩
    · exact hc.function h name count hold
    · exact henter h name count hentered
  held h index a ha := by
    rw [hm.native hc.sound.table] at ha
    have hstays : m ≠ .leave h := by
      rintro rfl
      simp [Move.stored] at ha
    -- what is held was fit before the move, and its holder keeps its role
    have hfit : ∃ v, a = .ofAttribute v ∧ c.Fit D h index v ∧ ∃ role, c.role? h = some role := by
      rcases Move.mem_stored ha with hold | ⟨v, rfl, rfl⟩
      · obtain ⟨v, rfl, hfit⟩ := hc.held h index a hold
        exact ⟨v, rfl, hfit, exists_role_of_mem_native hold⟩
      · have hlive : c.contains h = true := by
          cases hm with
          | put _ _ _ hindex hlive => exact hlive
        obtain ⟨e, he⟩ := contains_iff.mp hlive
        exact ⟨v, rfl, hput h index v rfl, e.role, by rw [role?, he, Option.map_some]⟩
    obtain ⟨v, rfl, hfit, role, hrole⟩ := hfit
    have hrole' := hm.role? hc.sound.table hrole hstays
    exact ⟨v, rfl, hfit.wellFormed, hfit.legal, hfit.granted.congr (hrole'.trans hrole.symm)⟩

/-- The number of parameters that a context reports is the declared one. -/
theorem Guarded.grants (hc : c.Guarded D) {count : UInt32} (hcount : c.parameterCount h = .ok count)
    (hrange : Placement.InRange index (some count)) : c.Grants D h index := by
  cases index with
  | parameter position =>
    rcases hc.sound.hasParameters hcount with ⟨name, hfunction⟩ | ⟨callee, name, hcallee, hfunction⟩
    · have hown : c.functionOf? h = some h := by simp only [functionOf?, hfunction]
      exact ⟨h, count, hown, hc.function h name count hfunction, hrange⟩
    · exact ⟨callee, count, functionOf?_of_callee? hcallee,
        hc.function callee name count hfunction, hrange⟩
  | returnValue | function => trivial

theorem guarded_erase (hc : c.Guarded D) (h : Handle) (index : Index) (key : Key) :
    (c.erase h index key).Guarded D :=
  hc.move (c.moves_erase h index key) (fun _ _ _ => Move.noConfusion) fun _ _ _ =>
    Move.noConfusion

/-- Views let nothing through that is not fit. -/
theorem guarded_views (h : Handle) (index : Index) :
    (View.collection store ⟨h, index⟩).Writes (Diagonal (Guarded D)) Attribute.WellFormed
      (View.collection store ⟨h, index⟩) where
  index _ _ _ := rfl
  add v hv := by
    refine Step.Related.diagonal ?_
    intro c hc
    refine ⟨Action.agree_self _, ?_⟩
    change Guarded D ((View.add store ⟨h, index⟩ v).run.run c).state
    rcases c.view_add_cases h index v with
      ⟨e, -, hstate⟩ | ⟨count, c', hcount, hcheck, hput, -, hstate⟩
    · rw [hstate]
      exact hc
    · obtain ⟨hrange, hlegal⟩ := (Placement.check_eq_ok_iff v index (some count)).mp hcheck
      rw [hstate]
      refine hc.move (moves_put hput) (fun _ _ _ => Move.noConfusion) ?_
      intro h' index' v' heq
      cases heq
      exact ⟨hv, hlegal, hc.grants hcount hrange⟩
  remove key := by
    refine Step.Related.diagonal ?_
    intro c hc
    refine ⟨rfl, ?_⟩
    change Guarded D ((View.remove store ⟨h, index⟩ key).run c).state
    unfold View.remove
    split
    · exact hc
    · exact guarded_erase hc h index key

end Context

/-- Nothing is added behind the back of the checks. -/
def Operation.Validated : Operation → Prop
  | .onStore _ (.add _ _) => False
  | _ => True

namespace Context

variable {c c' : Context} {h : Handle} {index : Index} {D D' : Handle → UInt32 → Prop}

theorem guarded_direct {request : StoreRequest} (h : Handle)
    (hvalid : (Operation.onStore h request).Validated) :
    Action.Related (Diagonal (Guarded D)) Eq (request.run store h) (request.run store h) := by
  have hreads := reads (P := fun _ => True) (Guarded D) (fun _ _ => trivial) h
  cases request with
  | add index v => exact False.elim hvalid
  | remove index key =>
    refine Action.Related.map (Action.Related.lift (Step.Related.diagonal ?_)) _
    intro c hc
    exact ⟨rfl, guarded_erase hc h index key⟩
  | parameterCount => exact Action.Related.map (hreads .function).parameterCount _
  | createKind | createPayload | createNamed =>
    exact Action.Related.map (Action.Related.ofExcept _) _
  | count index => exact Action.Related.map (Action.Related.lift (hreads index).count) _
  | attributes index =>
    refine Action.Related.map (Action.Related.lift ?_) _
    exact (hreads index).attributes.mono fun _ _ hvs => hvs.1
  | find index key => exact Action.Related.map (Action.Related.lift ((hreads index).find? key)) _

/-- An operation that creates and removes nobody keeps a context guarded. -/
theorem guarded_run {op : Operation} (hwell : op.WellFormed) (hvalid : op.Validated)
    (hrole : op.role? = none) (hremove : ∀ h, op ≠ .removeEntity h) :
    Action.Related (Diagonal (Guarded D)) Eq (op.run host) (op.run host) := by
  refine Operation.run_related (P := Attribute.WellFormed) ?_
  refine ⟨fun _ hv => hv, hwell, ?_, ?_, ?_, ?_, reads _ fun _ hv => hv, ?_,
    fun h index _ => guarded_views h index⟩
  · rintro name count rfl
    cases hrole
  · rintro callee rfl
    cases hrole
  · rintro callee rfl
    cases hrole
  · rintro h rfl
    exact absurd rfl (hremove h)
  · rintro h request rfl
    exact guarded_direct h hvalid

theorem Guarded.perform {op : Operation} (hc : c.Guarded D) (hwell : op.WellFormed)
    (hvalid : op.Validated)
    (hadd : ∀ name count, op = .addFunction name count → D c.entities.nextHandle count) :
    (c.perform op).state.Guarded D := by
  cases hrole : op.role? with
  | some role =>
    rcases c.perform_creating hrole with ⟨hadmits, -, hstate⟩ | ⟨-, -, hstate⟩
    · rw [hstate]
      refine hc.move (Moves.enter role hadmits) ?_ fun _ _ _ => Move.noConfusion
      intro h name count hentered
      cases hentered
      cases op with
      | addFunction name' count' =>
        cases hrole
        exact hadd name count rfl
      | _ => cases hrole
    · rw [hstate]
      exact hc
  | none =>
    by_cases hremove : ∃ h, op = .removeEntity h
    · obtain ⟨h, rfl⟩ := hremove
      have hstate : (c.perform (.removeEntity h)).state = ((Context.remove h).run c).state := rfl
      rw [hstate]
      cases hlive : c.contains h with
      | true =>
        simp only [Context.remove, hlive, if_true]
        exact hc.move (Moves.leave h hlive) (fun _ _ _ => Move.noConfusion) fun _ _ _ =>
          Move.noConfusion
      | false =>
        simp only [Context.remove, hlive, Bool.false_eq_true, if_false]
        exact hc
    · have hkeeps := guarded_run (D := D) hwell hvalid hrole fun h heq => hremove ⟨h, heq⟩
      exact Step.Related.kept hkeeps hc

/-- What is held reads back as it was built. -/
theorem Guarded.attributes (hc : c.Guarded D) (h : Handle) (index : Index) :
    c.native h index = (c.attributes h index).map NativeAttribute.ofAttribute ∧
      ∀ v ∈ c.attributes h index, c.Fit D h index v := by
  have hread : ∀ a ∈ c.native h index, ∃ v, a.toAttribute? = some v ∧ a = .ofAttribute v ∧
      c.Fit D h index v := by
    intro a ha
    obtain ⟨v, rfl, hfit⟩ := hc.held h index a ha
    exact ⟨v, NativeAttribute.toAttribute?_ofAttribute hfit.wellFormed, rfl, hfit⟩
  constructor
  · unfold Context.attributes
    generalize c.native h index = natives at hread
    induction natives with
    | nil => rfl
    | cons a rest ih =>
      obtain ⟨v, hv, heq, -⟩ := hread a List.mem_cons_self
      rw [List.filterMap_cons_some hv, List.map_cons, ← heq,
        ← ih fun b hb => hread b (List.mem_cons_of_mem a hb)]
  · intro v hv
    obtain ⟨a, ha, hav⟩ := List.mem_filterMap.mp hv
    obtain ⟨w, hw, -, hfit⟩ := hread a ha
    obtain rfl : w = v := Option.some.inj (hw.symm.trans hav)
    exact hfit

/-- The handle of a declared function is not issued again. -/
theorem Declared.not_issued {ops : List Operation} {name : String} {count : UInt32}
    (hdeclared : Declared ops h name count) (op : Operation) :
    ((empty.after ops).perform op).answer ≠ .ok (.entity h) := by
  intro hanswer
  obtain ⟨role, -, -, rfl, -⟩ := perform_entity hanswer
  have hknown : (empty.after ops).entities.Known (empty.after ops).entities.nextHandle := by
    rcases hdeclared.role?_or_spent with hrole | hspent
    · exact Or.inr (contains_of_role? hrole)
    · exact Or.inl hspent
  exact (sound_reached ops).table.not_known_nextHandle hknown

/-- No function is declared twice. -/
theorem Declared.unique {ops : List Operation} {name name' : String} {count count' : UInt32}
    (hfirst : Declared ops h name count) (hsecond : Declared ops h name' count') :
    name = name' ∧ count = count' := by
  obtain ⟨before, rest, rfl, hanswer⟩ := hfirst
  obtain ⟨before', rest', hsplit, hanswer'⟩ := hsecond
  rcases List.append_eq_append_iff.mp hsplit with ⟨between, rfl, hrest⟩ | ⟨between, rfl, hrest⟩
  · cases between with
    | nil =>
      cases hrest
      exact ⟨rfl, rfl⟩
    | cons op between =>
      cases hrest
      exact absurd hanswer' (Declared.not_issued ⟨before, between, rfl, hanswer⟩ _)
  · cases between with
    | nil =>
      cases hrest
      exact ⟨rfl, rfl⟩
    | cons op between =>
      cases hrest
      exact absurd hanswer (Declared.not_issued ⟨before', between, rfl, hanswer'⟩ _)

end Context

namespace Workspace

variable {w : Workspace} {k : Nat}

/-- A function that an activity of a run added to a context, with what it was declared with. -/
def Declared (w : Workspace) (activities : List Activity) (k : Nat) (f : Handle) (name : String)
    (count : UInt32) : Prop :=
  ∃ before rest, activities = before ++ .addFunction k name count :: rest ∧
    ((w.after before).perform (.addFunction k name count)).answer = .ok (.entity f)

theorem operations_append (k : Nat) (w : Workspace) (before rest : List Activity) :
    operations k w (before ++ rest) =
      operations k w before ++ operations k (w.after before) rest := by
  induction before generalizing w with
  | nil => rfl
  | cons a before ih => simp only [List.cons_append, operations, after, ih, List.append_assoc]

theorem validated_of_operation? {a : Activity} {op : Operation} (ha : a.Validated)
    (hop : a.operation? w = some (k, op)) : op.Validated := by
  cases op with
  | onStore h request =>
    have horigin := (origin_of_operation? hop).2 h request rfl
    subst horigin
    cases request with
    | add index v => exact ha
    | _ => trivial
  | _ => trivial

theorem contextAt_of_le (h : w.contexts.length ≤ k) : w.contextAt k = .empty := by
  have hnone : w.contexts[k]? = none := List.getElem?_eq_none h
  simp only [contextAt, context, hnone, Option.getD_none]

/-- Wherever there is an entity, there is a context. -/
theorem lt_of_role? {h : Handle} {role : Role} (hrole : (w.contextAt k).role? h = some role) :
    k < w.contexts.length := by
  apply Nat.lt_of_not_le
  intro hle
  rw [contextAt_of_le hle] at hrole
  cases h <;> cases hrole

variable {contexts : Nat} {parameterCounts : List (Option UInt32)} {activities : List Activity}

theorem size_reached (hwell : ∀ a ∈ activities, a.WellFormed) :
    (reached contexts parameterCounts activities).contexts.length = contexts := by
  have hstart := stocked_ofCounts (P := Attribute.WellFormed) contexts parameterCounts
  refine (hstart.size_after (fun _ hv => hv) activities hwell).trans ?_
  exact List.length_replicate

/-- A context of a workspace is one that a run of operations leads to. -/
theorem shows_reached (hwell : ∀ a ∈ activities, a.WellFormed) (hk : k < contexts) :
    (reached contexts parameterCounts activities).Shows k
      (Context.empty.after (operations k (ofCounts contexts parameterCounts) activities)) := by
  have hstart := stocked_ofCounts (P := Attribute.WellFormed) contexts parameterCounts
  refine shows_after (fun _ hv => hv) hstart ⟨?_, ?_⟩ activities hwell
  · simp only [contextAt, context, ofCounts, List.getElem?_replicate, hk, if_true,
      Option.getD_some]
  · simpa only [ofCounts, List.length_replicate] using hk

theorem Declared.append {f : Handle} {name : String} {count : UInt32}
    (hdeclared : w.Declared activities k f name count) (more : List Activity) :
    w.Declared (activities ++ more) k f name count := by
  obtain ⟨before, rest, rfl, hanswer⟩ := hdeclared
  exact ⟨before, rest ++ more, by simp, hanswer⟩

/-- What a run of the workspace declared, its operations on the context declared. -/
theorem Declared.context {f : Handle} {name : String} {count : UInt32}
    (hwell : ∀ a ∈ activities, a.WellFormed) (hk : k < contexts)
    (hdeclared : (ofCounts contexts parameterCounts).Declared activities k f name count) :
    Context.Declared (operations k (ofCounts contexts parameterCounts) activities) f name count := by
  obtain ⟨before, rest, rfl, hanswer⟩ := hdeclared
  have hbefore : ∀ a ∈ before, a.WellFormed := fun a ha => hwell a (List.mem_append_left _ ha)
  have hshows : (reached contexts parameterCounts before).Shows k _ := shows_reached hbefore hk
  refine ⟨operations k (ofCounts contexts parameterCounts) before,
    operations k (((ofCounts contexts parameterCounts).after before).perform
      (.addFunction k name count)).state rest, ?_, ?_⟩
  · simp only [operations_append, operations, Activity.operations, Activity.operation?, if_true,
      List.cons_append, List.nil_append]
  · rw [← hshows.contextAt]
    exact hanswer

theorem guarded_reached (contexts : Nat) (parameterCounts : List (Option UInt32))
    (hwell : ∀ a ∈ activities, a.WellFormed) (hvalid : ∀ a ∈ activities, a.Validated) (k : Nat) :
    ((reached contexts parameterCounts activities).contextAt k).Guarded fun f count =>
      ∃ name, (ofCounts contexts parameterCounts).Declared activities k f name count := by
  by_cases hk : k < contexts
  · induction activities using List.reverseRecOn with
    | nil =>
      have hstart : (reached contexts parameterCounts []).Shows k _ := shows_reached hwell hk
      rw [hstart.contextAt]
      exact Context.guarded_empty
    | append_singleton before a ih =>
      have hbefore : ∀ b ∈ before, b.WellFormed := fun b hb => hwell b (List.mem_append_left _ hb)
      have hlast : a ∈ before ++ [a] := List.mem_concat_self
      have hstocked := stocked_reached contexts parameterCounts hbefore
      have hshows : (reached contexts parameterCounts before).Shows k
          ((reached contexts parameterCounts before).contextAt k) :=
        ⟨rfl, (size_reached hbefore).symm ▸ hk⟩
      have hafter : reached contexts parameterCounts (before ++ [a]) =
          ((reached contexts parameterCounts before).perform a).state :=
        after_append (ofCounts contexts parameterCounts) before [a]
      have hguarded : ((reached contexts parameterCounts before).contextAt k).Guarded fun f count =>
          ∃ name, (ofCounts contexts parameterCounts).Declared (before ++ [a]) k f name count := by
        refine (ih hbefore fun b hb => hvalid b (List.mem_append_left _ hb)).mono ?_
        rintro f count ⟨name, hdeclared⟩
        exact ⟨name, hdeclared.append [a]⟩
      rw [hafter, (shows_operations (fun _ hv => hv) hstocked hshows (hwell a hlast)).contextAt]
      unfold Activity.operations
      split
      · rename_i k' op hop
        split
        · rename_i hsame
          subst hsame
          refine hguarded.perform (wellFormed_of_operation? hstocked (hwell a hlast) hop)
            (validated_of_operation? (hvalid a hlast) hop) ?_
          intro name count hadd
          obtain rfl := (origin_of_operation? hop).1 name count hadd
          exact ⟨name, before, [], rfl, rfl⟩
        · exact hguarded
      · exact hguarded
  · have hle : (reached contexts parameterCounts activities).contexts.length ≤ k := by
      rw [size_reached hwell]
      exact Nat.le_of_not_lt hk
    rw [contextAt_of_le hle]
    exact Context.guarded_empty

/-- Nothing illegal is ever stored. After any run in which well-formed attributes
pass the checks, every attribute in an owned collection or an owned set is
well-formed and legal at its index; and so is every attribute that an entity of
a context holds, which reads back as it was built, and if it stands on a
parameter, then the function that the entity is or calls was declared, once and
with more parameters than that. -/
theorem legal_of_run (contexts : Nat) (parameterCounts : List (Option UInt32))
    (activities : List Activity) (hwell : ∀ a ∈ activities, a.WellFormed)
    (hvalid : ∀ a ∈ activities, a.Validated) :
    (∀ c ∈ (reached contexts parameterCounts activities).collections,
      ∀ v ∈ c.attributes, v.WellFormed ∧ Placement.Legal v c.index) ∧
    (∀ s ∈ (reached contexts parameterCounts activities).sets, ∀ c ∈ s.collections,
      ∀ v ∈ c.attributes, v.WellFormed ∧ Placement.Legal v c.index) ∧
    ∀ k h index,
      ((reached contexts parameterCounts activities).contextAt k).native h index =
          (((reached contexts parameterCounts activities).contextAt k).attributes h index).map
            NativeAttribute.ofAttribute ∧
        ∀ v ∈ ((reached contexts parameterCounts activities).contextAt k).attributes h index,
          v.WellFormed ∧ Placement.Legal v index ∧
            ∀ position, index = .parameter position → ∃ f name count,
              ((reached contexts parameterCounts activities).contextAt k).functionOf? h = some f ∧
              (ofCounts contexts parameterCounts).Declared activities k f name count ∧
              position < count ∧ ∀ name' count',
                (ofCounts contexts parameterCounts).Declared activities k f name' count' →
                  count' = count := by
  have hstocked := stocked_reached contexts parameterCounts hwell
  refine ⟨?_, ?_, ?_⟩
  · intro c hc v hv
    have hlawful := hstocked.collections c hc
    exact ⟨hlawful.admissible v hv, hlawful.legal v hv⟩
  · intro s hs c hc v hv
    have hlawful := (hstocked.sets s hs).collections c hc
    exact ⟨hlawful.admissible v hv, hlawful.legal v hv⟩
  · intro k h index
    have hguarded := guarded_reached contexts parameterCounts hwell hvalid k
    obtain ⟨hnative, hfit⟩ := hguarded.attributes h index
    refine ⟨hnative, ?_⟩
    intro v hv
    refine ⟨(hfit v hv).wellFormed, (hfit v hv).legal, ?_⟩
    rintro position rfl
    obtain ⟨f, count, hf, ⟨name, hdeclared⟩, hlt⟩ := (hfit v hv).granted
    refine ⟨f, name, count, hf, hdeclared, hlt, ?_⟩
    intro name' count' hdeclared'
    -- a context that does not exist shows no functions
    have hk : k < contexts := by
      apply Nat.lt_of_not_le
      intro hle
      rw [contextAt_of_le (by rw [size_reached hwell]; exact hle)] at hf
      cases h with
      | null => cases hf
      | issued slot generation => cases hf
    exact ((hdeclared'.context hwell hk).unique (hdeclared.context hwell hk)).2

/-- A call gets an alignment, and then its callee is removed. -/
def orphanedCall : List Activity :=
  [.addFunction 0 "f" 1, .buildCall 0 ⟨0, .issued 0 0⟩,
    .onSet (.call ⟨0, .issued 1 0⟩) (.addPayload (.parameter 0) .alignment 8),
    .removeEntity 0 (.issued 0 0)]

/-- The alignment still stands on a parameter that the callee was declared with. -/
theorem legal_of_run_orphanedCall :
    (∀ a ∈ orphanedCall, a.WellFormed) ∧ (∀ a ∈ orphanedCall, a.Validated) ∧
      Attribute.known .alignment (some 8) ∈
        ((reached 1 [] orphanedCall).contextAt 0).attributes (.issued 1 0) (.parameter 0) ∧
      ∃ f name count, (ofCounts 1 []).Declared orphanedCall 0 f name count ∧ 0 < count := by
  have hmem : Attribute.known .alignment (some 8) ∈
      ((reached 1 [] orphanedCall).contextAt 0).attributes (.issued 1 0) (.parameter 0) := by
    decide
  refine ⟨by decide, by decide, hmem, ?_⟩
  obtain ⟨-, -, hheld⟩ := legal_of_run 1 [] orphanedCall (by decide) (by decide)
  obtain ⟨-, hcall⟩ := hheld 0 (.issued 1 0) (.parameter 0)
  obtain ⟨-, -, hposition⟩ := hcall _ hmem
  obtain ⟨f, name, count, -, hdeclared, hlt, -⟩ := hposition 0 rfl
  exact ⟨f, name, count, hdeclared, hlt⟩

end Workspace

end IRAttributes
