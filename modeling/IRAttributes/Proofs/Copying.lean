import IRAttributes.Proofs.Applying
import IRAttributes.Proofs.Focus
import IRAttributes.Proofs.Lasting
import IRAttributes.Proofs.Legality
import IRAttributes.Proofs.Merging
import IRAttributes.Proofs.Refusal

/-!
Copying attributes from place to place. Whatever a place has is legal at every
index of the same class, so copying it to a set that gives access to such an
index never fails. The target then has what it had, updated in order with what
the source had at the start, and all other places are as they were. A place
that is copied to itself, under whatever reference, does not change at all.
-/
namespace IRAttributes

namespace CollectionRef

/-- The attributes at a place, in their order. -/
def listing (r : CollectionRef) (w : Workspace) : List Attribute := r.collection.attributes.peek w

theorem listing_view (k : Nat) (v : View Handle) (w : Workspace) :
    (view k v).listing w = (w.contextAt k).attributes v.entity v.index := rfl

theorem listing_ownedAt (n : Nat) (index : Index) (w : Workspace) :
    (ownedAt n index).listing w = ((w.getSet n).getOrEmpty index).attributes := rfl

def isRecorded : CollectionRef → Bool
  | .recordedView _ _ => true
  | _ => false

end CollectionRef

namespace SetRef

/-- Access to the collection at an index is granted. -/
def Grants (w : Workspace) (r : SetRef) (index : Index) : Prop :=
  ∃ c, ((r.attributes.collectionAt index).run.run w).answer = .ok c

/-- A set to which attributes can be copied: that of an entity which grants the
index and keeps it under a number, or an owned one. -/
structure Takes (w : Workspace) (r : SetRef) (index : Index) : Prop where
  granted : r.Grants w index
  numbered : r.holder?.isSome = true → index.raw?.isSome = true
  owned : ∀ n, r = .owned n → n < w.sets.length
  unrecorded : (r.place index).isRecorded = false

/-- An index of an entity that is there, as is its callee if it is a call site,
or an index of an owned set. An argument has its own index only. -/
def Has (w : Workspace) (r : SetRef) (index : Index) : Prop :=
  match r.holder? with
  | some (k, holder) =>
      (∃ count, (w.contextAt k).HasParameters holder.handle count ∧
          Placement.InRange index (some count)) ∧
        ∀ h position, holder = .argument h position → index = .parameter position
  | none => (r.place index).isRecorded = false

theorem Has.isRecorded_place {w : Workspace} {r : SetRef} {index : Index} (h : r.Has w index) :
    (r.place index).isRecorded = false := by
  cases r with
  | recorded n e => exact h
  | _ => rfl

theorem index_place (w : Workspace) (r : SetRef) (index : Index) :
    (r.place index).collection.index w = index := by
  cases r with
  | owned n => exact (w.getSet n).index_getOrEmpty index
  | _ => rfl

end SetRef

/-- What is legal on an index is legal on all indices of its class. -/
theorem Placement.Legal.congr {v : Attribute} {i j : Index} (h : Legal v i)
    (hclass : i.classes = j.classes) : Legal v j := by
  intro kind hkind
  have hlegal := h kind hkind
  unfold Kind.legalOn IndexClasses.permits at hlegal ⊢
  rw [← hclass]
  exact hlegal

/-- An index with a number that is in range is one that a subject can have. -/
theorem Index.within_of_raw {index : Index} {count : UInt32}
    (hin : Placement.InRange index (some count)) (hraw : index.raw?.isSome = true) :
    index.Within count := by
  refine .of_inRange hin ?_
  rintro rfl
  cases hraw

namespace Context

variable {c : Context} {holder : Holder} {index : Index} {vs : List Attribute}

/-- Legal attributes are put at a numbered index that a holder grants. -/
theorem addAll_of_granted (hc : c.Sound) {d : Collection Context}
    (hgranted : (((holder.attributes store).collectionAt index).run.run c).answer = .ok d)
    (hindex : index.raw?.isSome = true) (hvs : ∀ v ∈ vs, Placement.Legal v index) :
    (((holder.attributes store).addAll index vs).run.run c).answer = .ok () ∧
      c.Path (Move.puts holder.handle ⟨index, vs⟩)
        (((holder.attributes store).addAll index vs).run.run c).state := by
  obtain ⟨rfl, count, hcount, hin⟩ := view_of_granted hgranted
  have hstanding : Subject.Standing ⟨holder.handle, c.callee? holder.handle, count⟩ c :=
    ⟨hc, hc.hasParameters hcount, rfl⟩
  obtain ⟨c', -, hpath, hadded, hstate⟩ :=
    hstanding.view_addAll (Index.within_of_raw hin hindex) hvs
  obtain ⟨hanswer', hstate'⟩ := Action.bind_of_ok (fun d => d.addAll vs) hgranted
  rw [c.state_collectionAt holder index] at hanswer' hstate'
  have hlast : (((holder.attributes store).addAll index vs).run.run c).state = c' :=
    hstate'.trans hstate
  exact ⟨hanswer'.trans hadded, hlast ▸ hpath⟩

/-- Attributes that were put at an index are seen there and nowhere else. -/
theorem Path.attributes_of_puts {c' : Context} {e : Handle}
    (hp : c.Path (Move.puts e ⟨index, vs⟩) c') (hc : c.Sound) (hvs : ∀ v ∈ vs, v.WellFormed) :
    c'.attributes e index = KeyedList.putAll Attribute.key vs (c.attributes e index) ∧
      ∀ h i, (h, i) ≠ (e, index) → c'.attributes h i = c.attributes h i := by
  constructor
  · rw [attributes, hp.native hc]
    exact Move.readable_storedAfter_puts (d := ⟨index, vs⟩) hvs _
  · intro h i hne
    have hunfelt : ∀ m ∈ Move.puts e ⟨index, vs⟩, ∀ attributes,
        m.stored h i attributes = attributes := by
      intro m hm attributes
      obtain ⟨v, -, rfl⟩ := List.mem_map.mp hm
      exact if_neg fun hboth => hne (Prod.ext hboth.1 hboth.2)
    rw [attributes, hp.native hc, Move.storedAfter_of_forall hunfelt, attributes]

end Context

namespace Workspace

variable {w w' : Workspace} {r : SetRef} {index : Index}

theorem Alike.contextAt (h : w.Alike w') (k : Nat) : w'.contextAt k = w.contextAt k :=
  (w.alikeCompartments.carries_context k).get w' h

/-- Alike workspaces have the same attributes everywhere. -/
theorem Alike.listing (h : w.Alike w') (place : CollectionRef) :
    place.listing w' = place.listing w := by
  cases place with
  | view k v => exact congrArg (·.attributes v.entity v.index) (h.contextAt k)
  | recordedView n v =>
    exact congrArg (·.attributes v.entity v.index)
      ((w.alikeCompartments.carries_recorder n).get w' h)
  | owned n =>
    exact congrArg OwnedCollection.attributes ((w.alikeCompartments.carries_collection n).get w' h)
  | ownedAt n i => exact congrArg OwnedCollection.attributes (h.sets n i).symm

/-- Looking at the attributes of a place leaves everything as it is. -/
theorem Alike.attributes (h : w.Alike w') (place : CollectionRef) :
    w.Alike (place.collection.attributes.run w').state :=
  Step.Related.kept (w.keep_refused.at_collection place).reads.attributes h

/-- Where access is granted, it is access to the place. -/
theorem collectionAt_of_grants (h : r.Grants w index) :
    ((r.attributes.collectionAt index).run.run w).answer = .ok (r.place index).collection ∧
      w.Alike ((r.attributes.collectionAt index).run.run w).state := by
  have hrelated : Action.Related (Diagonal w.Alike) (fun c _ => c = (r.place index).collection)
      (r.attributes.collectionAt index) (r.attributes.collectionAt index) :=
    w.alikeCompartments.related_collectionAt r rfl
  obtain ⟨hagree, -, halike⟩ := hrelated w w ⟨rfl, Alike.refl w⟩
  obtain ⟨c, hc⟩ := h
  rw [hc] at hagree ⊢
  obtain rfl : c = (r.place index).collection := hagree
  exact ⟨rfl, halike⟩

theorem held_of_grants (h : r.Grants w index) :
    ((r.attributes.held index).run.run w).answer = .ok ((r.place index).listing w) ∧
      w.Alike ((r.attributes.held index).run.run w).state := by
  obtain ⟨hreached, halike⟩ := collectionAt_of_grants h
  obtain ⟨hanswer, hstate⟩ := Action.bind_of_ok
    (fun c : Collection Workspace => liftM c.attributes) hreached
  refine ⟨hanswer.trans ?_, ?_⟩
  · exact congrArg Except.ok (halike.listing (r.place index))
  · exact hstate ▸ halike.attributes (r.place index)

/-- Attributes were put at a place, one after the other, and nowhere else. -/
structure Updates (w : Workspace) (place : CollectionRef) (vs : List Attribute) (w' : Workspace) :
    Prop where
  updated : place.listing w' = KeyedList.putAll Attribute.key vs (place.listing w)
  others : ∀ place', place' ≠ place → place'.listing w' = place'.listing w

section Adding

variable {vs : List Attribute}

/-- What is put in one context is seen in that context alone. -/
private theorem updates_context {k : Nat} (hk : k < w.contexts.length) {h : Handle} {c : Context}
    (hself : c.attributes h index =
      KeyedList.putAll Attribute.key vs ((w.contextAt k).attributes h index))
    (hothers : ∀ h' i, (h', i) ≠ (h, index) →
      c.attributes h' i = (w.contextAt k).attributes h' i) :
    w.Updates (.view k ⟨h, index⟩) vs ((context k).put c w) where
  updated := by
    rw [CollectionRef.listing_view, CollectionRef.listing_view, contextAt_put, if_pos ⟨rfl, hk⟩]
    exact hself
  others place hne := by
    cases place with
    | view k' v =>
      rw [CollectionRef.listing_view, CollectionRef.listing_view, contextAt_put]
      split
      · rename_i hsame
        obtain ⟨rfl, -⟩ := hsame
        refine hothers v.entity v.index ?_
        intro heq
        obtain ⟨rfl, rfl⟩ := Prod.mk.inj heq
        exact hne rfl
      · rfl
    | recordedView n v => rfl
    | owned n => rfl
    | ownedAt n i => rfl

private theorem updates_ownedSet {n : Nat} (hn : n < w.sets.length) :
    w.Updates (.ownedAt n index) vs ((ownedSet n).put ((w.getSet n).putAll ⟨index, vs⟩) w) where
  updated := by
    rw [CollectionRef.listing_ownedAt, CollectionRef.listing_ownedAt, getSet_put,
      if_pos ⟨rfl, hn⟩, OwnedSet.putAll, OwnedSet.getOrEmpty_put, if_pos rfl]
  others place hne := by
    cases place with
    | ownedAt n' i =>
      rw [CollectionRef.listing_ownedAt, CollectionRef.listing_ownedAt, getSet_put]
      split
      · rename_i hsame
        obtain ⟨rfl, -⟩ := hsame
        have hindex : ¬ index = i := fun heq => hne (heq ▸ rfl)
        rw [OwnedSet.putAll, OwnedSet.getOrEmpty_put, if_neg hindex]
      · rfl
    | view k v => rfl
    | recordedView n v => rfl
    | owned n => rfl

/-- A holder in a context grants the same in the workspace. -/
theorem granted_context (w : Workspace) (k : Nat) (holder : Holder) (index : Index) :
    (∃ d, (((holder.attributes (contextStore k)).collectionAt index).run.run w).answer = .ok d) ↔
      ∃ d, (((holder.attributes Context.store).collectionAt index).run.run
        (w.contextAt k)).answer = .ok d := by
  have hcount : Action.Related (fun w' c => w' = w ∧ c = w.contextAt k) Eq
      ((contextStore k).parameterCount holder.handle)
      (Context.store.parameterCount holder.handle) := by
    rintro w _ ⟨rfl, rfl⟩
    exact ⟨Action.agree_self _, put_contextAt k w, rfl⟩
  have hrelated : Action.Related (fun w' c => w' = w ∧ c = w.contextAt k) (fun _ _ => True)
      ((holder.attributes (contextStore k)).collectionAt index)
      ((holder.attributes Context.store).collectionAt index) :=
    holder.related_collectionAt hcount trivial
  exact (hrelated w (w.contextAt k) ⟨rfl, rfl⟩).1.exists_ok_iff

/-- Attributes that are lawful at an index are added to a set that takes them there. -/
theorem updates_of_takes (hw : ∀ k, (w.contextAt k).Sound) (htakes : r.Takes w index)
    (hvs : (OwnedCollection.mk index vs).Lawful Attribute.WellFormed) :
    ((r.attributes.addAll index vs).run.run w).answer = .ok () ∧
      w.Updates (r.place index) vs ((r.attributes.addAll index vs).run.run w).state := by
  rcases r.holder_cases with ⟨k, holder, hholder, hattributes, hplace⟩ | ⟨n, e, rfl⟩ | ⟨n, rfl⟩
  · have hgranted := htakes.granted
    rw [SetRef.Grants, hattributes, granted_context] at hgranted
    obtain ⟨d, hgranted⟩ := hgranted
    obtain ⟨-, count, hcount, -⟩ := Context.view_of_granted hgranted
    obtain ⟨role, hrole⟩ := ((hw k).hasParameters hcount).exists_role
    have hk := lt_of_role? hrole
    have hindex := htakes.numbered (by rw [hholder]; rfl)
    obtain ⟨hadded, hpath⟩ := Context.addAll_of_granted (hw k) hgranted hindex hvs.legal
    obtain ⟨hself, hothers⟩ := hpath.attributes_of_puts (hw k) hvs.admissible
    have hfits := fits_context hk
    obtain ⟨hanswer, hstate⟩ :=
      hfits.run_addAll (hfits.holder_writes Context.store holder index) vs
    rw [hplace, hattributes]
    exact ⟨hanswer.trans hadded, hstate.symm ▸ updates_context hk hself hothers⟩
  · exact Bool.noConfusion htakes.unrecorded
  · have hn := htakes.owned n rfl
    obtain ⟨hadded, hput⟩ := OwnedSet.run_addAll hvs (w.getSet n)
    have hfits := fits_ownedSet hn
    obtain ⟨hanswer, hstate⟩ :=
      hfits.run_addAll (hfits.set_writes OwnedSet.attributeSet index) vs
    refine ⟨hanswer.trans hadded, ?_⟩
    have hstate' : ((((SetRef.owned n).attributes).addAll index vs).run.run w).state =
        (ownedSet n).put ((w.getSet n).putAll ⟨index, vs⟩) w :=
      hstate.trans (congrArg (fun s => (ownedSet n).put s w) hput)
    exact hstate' ▸ updates_ownedSet hn

end Adding

/-- An index that is there is granted. -/
theorem grants_of_has (hw : ∀ k, (w.contextAt k).Sound) (h : r.Has w index) :
    r.Grants w index := by
  rcases r.holder_cases with ⟨k, holder, hholder, hattributes, -⟩ | ⟨n, e, rfl⟩ | ⟨n, rfl⟩
  · unfold SetRef.Has at h
    rw [hholder] at h
    obtain ⟨⟨count, hparameters, hin⟩, hown⟩ := h
    have hcount := hparameters.parameterCount (hw k)
    have hgrant := Holder.grant_eq_ok_iff.mpr ⟨hown, count, hcount, hin⟩
    rw [SetRef.Grants, hattributes, granted_context, Context.run_collectionAt, hgrant]
    exact ⟨_, rfl⟩
  · exact Bool.noConfusion h
  · exact ⟨_, rfl⟩

/-- Alike workspaces take the same. -/
theorem Alike.takes (h : w.Alike w') (htakes : r.Takes w index) : r.Takes w' index where
  granted := by
    rcases r.holder_cases with ⟨k, holder, -, hattributes, -⟩ | ⟨n, e, rfl⟩ | ⟨n, rfl⟩
    · have hgranted := htakes.granted
      rw [SetRef.Grants, hattributes, granted_context] at hgranted ⊢
      rw [h.contextAt]
      exact hgranted
    · exact Bool.noConfusion htakes.unrecorded
    · exact ⟨_, rfl⟩
  numbered := htakes.numbered
  owned n hn := h.size ▸ htakes.owned n hn
  unrecorded := htakes.unrecorded

/-- A copy succeeds and is seen at its target alone, and nowhere at all if the
source is the target. -/
structure Copies (w : Workspace) (a : Activity) (source target : CollectionRef) : Prop where
  done : (w.perform a).answer = .ok (.answer .done)
  updates : w.Updates target (source.listing w) (w.perform a).state
  same : source = target →
    ∀ place : CollectionRef, place.listing (w.perform a).state = place.listing w

/-- Reading what is lawful at the target and then adding it is copying. -/
private theorem copies_of_read (hw : ∀ k, (w.contextAt k).Sound) (htakes : r.Takes w index)
    {source : CollectionRef} {a : Activity} {read : Action Workspace (List Attribute)}
    (hrun : a.run = do
      let vs ← read
      r.attributes.addAll index vs
      return .answer .done)
    (hread : (read.run.run w).answer = .ok (source.listing w))
    (halike : w.Alike (read.run.run w).state)
    (hlawful : (OwnedCollection.mk index (source.listing w)).Lawful Attribute.WellFormed) :
    w.Copies a source (r.place index) := by
  -- reading may have accessed an owned set, but the target is as it was
  have hw' : ∀ k, ((read.run.run w).state.contextAt k).Sound := by
    intro k
    rw [halike.contextAt k]
    exact hw k
  obtain ⟨hadded, hupdates⟩ := updates_of_takes hw' (halike.takes htakes) hlawful
  obtain ⟨hanswer, hstate⟩ := Action.bind_of_ok
    (fun vs => do r.attributes.addAll index vs; return Reply.answer .done) hread
  obtain ⟨hanswer', hstate'⟩ := Action.bind_of_ok (fun _ => pure (Reply.answer .done)) hadded
  have hdone : (w.perform a).answer = .ok (.answer .done) := by
    rw [perform, hrun]
    exact hanswer.trans hanswer'
  have hlast : (w.perform a).state =
      ((r.attributes.addAll index (source.listing w)).run.run (read.run.run w).state).state := by
    rw [perform, hrun]
    exact hstate.trans hstate'
  have hcopied : w.Updates (r.place index) (source.listing w) (w.perform a).state := by
    rw [hlast]
    refine ⟨?_, fun place hne => ?_⟩
    · rw [hupdates.updated, halike.listing]
    · rw [hupdates.others place hne, halike.listing]
  refine ⟨hdone, hcopied, ?_⟩
  rintro rfl place
  by_cases hplace : place = r.place index
  · rw [hplace, hcopied.updated, KeyedList.putAll_eq_union hlawful.unique hlawful.unique,
      KeyedList.union_self hlawful.unique]
  · exact hcopied.others place hplace

/-- What a place has is lawful at every index of its class. -/
private theorem lawful_listing {contexts : Nat} {parameterCounts : List (Option UInt32)}
    {activities : List Activity} (hwell : ∀ a ∈ activities, a.WellFormed)
    (hvalid : ∀ a ∈ activities, a.Validated) {place : CollectionRef}
    (hplace : place.isRecorded = false)
    (hclass : (place.collection.index (reached contexts parameterCounts activities)).classes =
      index.classes) :
    (OwnedCollection.mk index
      (place.listing (reached contexts parameterCounts activities))).Lawful
        Attribute.WellFormed := by
  have hstocked : Beside Attribute.WellFormed none (reached contexts parameterCounts activities)
      (reached contexts parameterCounts activities) :=
    (stocked_reached contexts parameterCounts hwell).beside
  have hlawful : (OwnedCollection.mk
      (place.collection.index (reached contexts parameterCounts activities))
      (place.listing (reached contexts parameterCounts activities))).Lawful
        Attribute.WellFormed := by
    cases place with
    | view k v =>
      have hguarded := guarded_reached contexts parameterCounts hwell hvalid k
      have hunique := (lawful_reached contexts parameterCounts activities k).unique
      obtain ⟨-, hfit⟩ := hguarded.attributes v.entity v.index
      exact ⟨fun a ha => (hfit a ha).wellFormed, fun a ha => (hfit a ha).legal,
        NativeAttribute.uniqueKeys_toAttribute? (hunique v.entity v.index)⟩
    | recordedView n v => cases hplace
    | owned n => exact hstocked.getCollection n
    | ownedAt n i => exact (hstocked.getSet n).getOrEmpty i
  exact ⟨hlawful.admissible, fun v hv => (hlawful.legal v hv).congr hclass, hlawful.unique⟩

/-- Copying never fails. After any run in which well-formed attributes pass the
checks, whatever a place outside of the recorded stores has can be copied to
every index of its class that a set takes, and what another set has at an index
to the same index. The target is updated in order, from what the source had
before, and all other places stay as they are; so does the target if it is the
place that was copied. -/
theorem copies_of_run (contexts : Nat) (parameterCounts : List (Option UInt32))
    {activities : List Activity} (hwell : ∀ a ∈ activities, a.WellFormed)
    (hvalid : ∀ a ∈ activities, a.Validated) {target : SetRef} {j : Index}
    (htakes : target.Takes (reached contexts parameterCounts activities) j) :
    (∀ source : CollectionRef, source.isRecorded = false →
      (source.collection.index (reached contexts parameterCounts activities)).classes =
        j.classes →
      (reached contexts parameterCounts activities).Copies (.addCollection target j source)
        source (target.place j)) ∧
    ∀ source : SetRef, source.Has (reached contexts parameterCounts activities) j →
      (reached contexts parameterCounts activities).Copies (.addFrom target j source)
        (source.place j) (target.place j) := by
  have hsound : ∀ k, ((reached contexts parameterCounts activities).contextAt k).Sound :=
    fun k => (lawful_reached contexts parameterCounts activities k).sound
  constructor
  · intro source hsource hclass
    have hread : ((liftM source.collection.attributes : Action Workspace (List Attribute)).run.run
        (reached contexts parameterCounts activities)).answer = .ok (source.listing _) := rfl
    have halike := (Alike.refl (reached contexts parameterCounts activities)).attributes source
    refine copies_of_read hsound htakes ?_ hread halike
      (lawful_listing hwell hvalid hsource hclass)
    rw [Activity.run, AttributeSet.addCollection, bind_assoc]
  · intro source hhas
    have hheld := held_of_grants (grants_of_has hsound hhas)
    refine copies_of_read hsound htakes ?_ hheld.1 hheld.2 (lawful_listing hwell hvalid ?_ ?_)
    · rw [Activity.run, AttributeSet.addFrom_eq, bind_assoc]
    · exact hhas.isRecorded_place
    · rw [SetRef.index_place]

/-- A call and the function that it calls, each with an alignment of its parameter. -/
def alignedCall : List Activity :=
  [.addFunction 0 "f" 1, .buildCall 0 ⟨0, .issued 0 0⟩, .newSet,
    .onSet (.function ⟨0, .issued 0 0⟩) (.addKind (.parameter 0) .noAlias),
    .onSet (.function ⟨0, .issued 0 0⟩) (.addPayload (.parameter 0) .alignment 4),
    .onSet (.call ⟨0, .issued 1 0⟩) (.addPayload (.parameter 0) .alignment 8)]

/-- The argument is copied to the call, to another parameter of an owned set, and
through the function to itself. -/
theorem copies_of_run_alignedCall :
    (∀ a ∈ alignedCall, a.WellFormed) ∧ (∀ a ∈ alignedCall, a.Validated) ∧
      (SetRef.argument ⟨⟨0, .issued 0 0⟩, 0⟩).Has (reached 1 [] alignedCall) (.parameter 0) ∧
      (SetRef.call ⟨0, .issued 1 0⟩).Takes (reached 1 [] alignedCall) (.parameter 0) ∧
      (SetRef.owned 0).Takes (reached 1 [] alignedCall) (.parameter 4) ∧
      (SetRef.function ⟨0, .issued 0 0⟩).Takes (reached 1 [] alignedCall) (.parameter 0) ∧
      (CollectionRef.view 0 ⟨.issued 1 0, .parameter 0⟩).listing
        ((reached 1 [] alignedCall).perform (.addFrom (.call ⟨0, .issued 1 0⟩) (.parameter 0)
          (.argument ⟨⟨0, .issued 0 0⟩, 0⟩))).state =
            [.known .alignment (some 4), .known .noAlias none] ∧
      (CollectionRef.ownedAt 0 (.parameter 4)).listing
        ((reached 1 [] alignedCall).perform (.addCollection (.owned 0) (.parameter 4)
          (.view 0 ⟨.issued 0 0, .parameter 0⟩))).state =
            [.known .noAlias none, .known .alignment (some 4)] ∧
      (CollectionRef.view 0 ⟨.issued 0 0, .parameter 0⟩).listing
        ((reached 1 [] alignedCall).perform (.addFrom (.function ⟨0, .issued 0 0⟩) (.parameter 0)
          (.argument ⟨⟨0, .issued 0 0⟩, 0⟩))).state =
            [.known .noAlias none, .known .alignment (some 4)] := by
  have hwell : ∀ a ∈ alignedCall, a.WellFormed := by decide
  have hvalid : ∀ a ∈ alignedCall, a.Validated := by decide
  have hhas : (SetRef.argument ⟨⟨0, .issued 0 0⟩, 0⟩).Has (reached 1 [] alignedCall)
      (.parameter 0) := by
    refine ⟨⟨1, Or.inl ⟨"f", rfl⟩, (by decide : (0 : UInt32) < 1)⟩, ?_⟩
    rintro h position heq
    cases heq
    rfl
  have hcall : (SetRef.call ⟨0, .issued 1 0⟩).Takes (reached 1 [] alignedCall) (.parameter 0) :=
    ⟨⟨_, rfl⟩, fun _ => by decide, fun _ => SetRef.noConfusion, rfl⟩
  have howned : (SetRef.owned 0).Takes (reached 1 [] alignedCall) (.parameter 4) := by
    refine ⟨⟨_, rfl⟩, fun _ => by decide, ?_, rfl⟩
    rintro n heq
    cases heq
    decide
  have hfunction : (SetRef.function ⟨0, .issued 0 0⟩).Takes (reached 1 [] alignedCall)
      (.parameter 0) := ⟨⟨_, rfl⟩, fun _ => by decide, fun _ => SetRef.noConfusion, rfl⟩
  have hcopied := (copies_of_run 1 [] hwell hvalid hcall).2 (.argument ⟨⟨0, .issued 0 0⟩, 0⟩) hhas
  have hmoved := (copies_of_run 1 [] hwell hvalid howned).1
    (.view 0 ⟨.issued 0 0, .parameter 0⟩) rfl rfl
  have hsame := (copies_of_run 1 [] hwell hvalid hfunction).2
    (.argument ⟨⟨0, .issued 0 0⟩, 0⟩) hhas
  refine ⟨hwell, hvalid, hhas, hcall, howned, hfunction, ?_, ?_, ?_⟩
  · exact hcopied.updates.updated
  · exact hmoved.updates.updated
  · exact hsame.same rfl _

end Workspace

end IRAttributes
