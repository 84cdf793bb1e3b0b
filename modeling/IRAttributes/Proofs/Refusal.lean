import IRAttributes.Proofs.Creation
import IRAttributes.Proofs.Padding

/-!
Activities that are refused. An activity that is about one attribute at most
either succeeds or leaves everything as it was: the contexts with all their
entities, the recorded stores, the owned collections, and what the owned sets
have at each index. Only an empty collection may be left behind in an owned set,
where an index was accessed before the attribute was looked at.
-/
namespace IRAttributes

variable {P : Attribute → Prop} {K : Key → Prop}

/-- What refuses an attribute stays as it is. -/
theorem Context.keeps_refused (J : Context → Prop) (h : Handle) (index : Index) :
    store.Keeps False J P K h index where
  reads := reads J (fun _ _ => trivial) h index
  add v _ := by
    intro c hc hok
    cases hput : c.put h index v with
    | error e => simpa [store, hput] using hc
    | ok c' => simp [store, hput] at hok
  remove _ _ := fun _ _ hok => absurd ⟨(), rfl⟩ hok

theorem OpenStore.keeps_refused (J : OpenStore → Prop) (entity : UInt32) (index : Index) :
    store.Keeps False J P K entity index where
  reads := reads (fun _ _ _ _ _ _ => trivial) entity index
  add _ _ := fun _ _ hok => absurd ⟨(), rfl⟩ hok
  remove _ _ := fun _ _ hok => absurd ⟨(), rfl⟩ hok

theorem OwnedCollection.keeps_refused (J : OwnedCollection → Prop) :
    collection.Keeps False J P K where
  reads := reads fun _ _ _ _ => trivial
  add v _ := by
    intro c hc hok
    rcases c.add_cases v with ⟨_, -, -, hstate⟩ | ⟨-, hanswer, -⟩
    · exact hstate.symm ▸ hc
    · exact absurd ⟨(), hanswer⟩ hok
  remove _ _ := fun _ _ hok => absurd ⟨(), rfl⟩ hok

/-- A call site that cannot be built changes nothing. -/
theorem Context.keeps_buildSite (J : Context → Prop) (site : Handle → Role) (callee : Handle) :
    Action.Keeps False J (buildSite site callee) := by
  intro c hc hok
  rcases c.buildSite_cases site callee with ⟨-, hanswer, -⟩ | ⟨-, -, hstate⟩
  · exact absurd ⟨_, hanswer⟩ hok
  · exact hstate.symm ▸ hc

/-- An activity that is about one attribute at most. -/
def Activity.isSingle : Activity → Bool
  | .onSet _ request => !request.isBatch
  | .addCollection _ _ _ | .addFrom _ _ _ | .merge _ _ | .apply _ _ => false
  | _ => true

namespace Workspace

/-- The same entities and attributes everywhere, whichever indices of the owned
sets were accessed, and whatever the recorded stores were asked. -/
structure Alike (w w' : Workspace) : Prop where
  contexts : w'.contexts = w.contexts
  recorders : w'.recorders.map Recorded.store = w.recorders.map Recorded.store
  size : w'.sets.length = w.sets.length
  sets : ∀ n, (w.getSet n).Alike (w'.getSet n)
  collections : w'.collections = w.collections

theorem Alike.refl (w : Workspace) : w.Alike w := ⟨rfl, rfl, rfl, fun _ _ => rfl, rfl⟩

private theorem carries_alike_context (w : Workspace) (k : Nat) :
    (context k).Carries (fun c => c = w.contextAt k) w.Alike where
  get w' h := congrArg (fun contexts => (contexts[k]?).getD Context.empty) h.contexts
  put := by
    rintro w' _ h rfl
    refine ⟨?_, h.recorders, h.size, h.sets, h.collections⟩
    exact (congrArg (·.set k (w.contextAt k)) h.contexts).trans (set_getD_self _ k _)

/-- The store of a recorder, found among all stores. -/
theorem store_recorder (w : Workspace) (n : Nat) :
    ((recorder n).get w).store =
      ((w.recorders.map Recorded.store)[n]?).getD (Recorder.empty none).store := by
  rw [List.getElem?_map]
  cases hn : w.recorders[n]? <;> simp [recorder, hn]

private theorem carries_alike_recorder (w : Workspace) (n : Nat) :
    (recorder n).Carries (fun r => r.store = ((recorder n).get w).store) w.Alike where
  get w' h := by rw [store_recorder, h.recorders, store_recorder]
  put := by
    intro w' r h hr
    refine ⟨h.contexts, ?_, h.size, h.sets, h.collections⟩
    change (w'.recorders.set n r).map Recorded.store = _
    rw [List.map_set, h.recorders, hr, store_recorder, set_getD_self]

private theorem carries_alike_set (w : Workspace) (n : Nat) :
    (ownedSet n).Carries (w.getSet n).Alike w.Alike where
  get w' h := h.sets n
  put w' s h hs := by
    refine ⟨h.contexts, h.recorders, List.length_set.trans h.size, ?_, h.collections⟩
    exact forall_getD_set (p := fun n s => (w.getSet n).Alike s) hs h.sets

private theorem carries_alike_collection (w : Workspace) (n : Nat) :
    (ownedCollection n).Carries (fun c => c = w.getCollection n) w.Alike where
  get w' h := congrArg
    (fun collections => (collections[n]?).getD (OwnedCollection.empty .function)) h.collections
  put := by
    rintro w' _ h rfl
    refine ⟨h.contexts, h.recorders, h.size, h.sets, ?_⟩
    exact (congrArg (·.set n (w.getCollection n)) h.collections).trans (set_getD_self _ n _)

def alikeCompartments (w : Workspace) : Compartments w.Alike where
  context k c := c = w.contextAt k
  recorder n s := s = ((recorder n).get w).store
  set n s := (w.getSet n).Alike s
  collection n c := c = w.getCollection n
  carries_context := w.carries_alike_context
  carries_recorder := w.carries_alike_recorder
  carries_set := w.carries_alike_set
  carries_collection := w.carries_alike_collection
  access _ s index h := fun index' => (h index').trans (s.getOrEmpty_access index index').symm

theorem keep_refused (w : Workspace) :
    w.alikeCompartments.Keep False (fun _ => True) (fun _ => True) where
  context _ h index := Context.keeps_refused _ h index
  recorder _ entity index := OpenStore.keeps_refused _ entity index
  set n _ := OwnedSet.keeps_of_access fun s h => w.alikeCompartments.access n s _ h
  collection _ := OwnedCollection.keeps_refused _

private theorem keeps_single (w : Workspace) {a : Activity} (hsingle : a.isSingle = true) :
    Action.Keeps False w.Alike a.run := by
  have hkeep := w.keep_refused
  cases a with
  | addFunction | removeEntity | newSet | copySet | newCollection | copyCollection | copyAt =>
    -- these never fail
    exact fun _ _ hok => absurd ⟨_, rfl⟩ hok
  | buildCall k callee =>
    have hbuilt := Context.keeps_buildSite (· = w.contextAt k) Role.call callee.handle
    exact ((hbuilt.within (w.carries_alike_context k)).map _).map _
  | buildInvoke k callee =>
    have hbuilt := Context.keeps_buildSite (· = w.contextAt k) Role.invoke callee.handle
    exact ((hbuilt.within (w.carries_alike_context k)).map _).map _
  | onStore k h request => exact hkeep.run_onStore k h (fun _ _ => trivial) fun _ _ => trivial
  | onRecorder n entity request =>
    exact hkeep.run_onRecorder n entity (fun _ _ => trivial) fun _ _ => trivial
  | reach r index => exact Action.Keeps.of_related (w.alikeCompartments.related_reach r index)
  | onSet r request =>
    refine hkeep.run_onSet r ?_ (fun _ _ => trivial) fun _ _ => trivial
    intro hbatch
    rw [Activity.isSingle, hbatch] at hsingle
    cases hsingle
  | onCollection r request =>
    exact hkeep.run_onCollection r (fun _ _ => trivial) fun _ _ => trivial
  | setAlignment a alignment => exact hkeep.run_setAlignment a alignment fun _ _ => trivial
  | addCollection | addFrom | merge | apply => cases hsingle

/-- An activity about one attribute at most that is refused leaves no trace, in
whatever state and for whatever reason. -/
theorem alike_of_refused (w : Workspace) {a : Activity} (hsingle : a.isSingle = true) {e : Error}
    (he : (w.perform a).answer = .error e) : w.Alike (w.perform a).state :=
  (w.keeps_single hsingle).kept_of_error (Alike.refl w) he

/-- An attribute that functions have, added to the return value. -/
def coldReturn : Activity := .onSet (.owned 0) (.addKind .returnValue .cold)

/-- The set has an empty collection more, and no attribute. -/
theorem alike_of_refused_coldReturn :
    coldReturn.isSingle = true ∧
      ((reached 0 [] [.newSet]).perform coldReturn).answer =
        .error (.illegalPlace .cold .returnValue) ∧
      ((reached 0 [] [.newSet]).perform coldReturn).state.sets = [⟨[.empty .returnValue]⟩] ∧
      (reached 0 [] [.newSet]).Alike ((reached 0 [] [.newSet]).perform coldReturn).state := by
  have hrefused : ((reached 0 [] [.newSet]).perform coldReturn).answer =
      .error (.illegalPlace .cold .returnValue) := rfl
  exact ⟨rfl, hrefused, rfl, alike_of_refused _ rfl hrefused⟩

end Workspace

end IRAttributes
