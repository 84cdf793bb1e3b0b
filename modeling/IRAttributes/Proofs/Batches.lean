import IRAttributes.Proofs.Access
import IRAttributes.Proofs.Copying

/-!
Batches of additions. A batch reaches for its collection once, while single
additions reach for it every time, and look again at the entity as it is by then.
Nothing that is added at an index changes who is granted that index, so both come
to the same, item by item: a batch does what its items do in turn, and ends at
the first one that is refused, which has no effect.
-/
namespace IRAttributes

variable {σ α β H : Type}

namespace Action

variable {f g : α → Action σ Unit} {J : σ → Prop} {s : σ}

/-- The state after some items were done in turn, whether or not they succeeded. -/
def after (f : α → Action σ Unit) (s : σ) : List α → σ
  | [] => s
  | a :: rest => after f ((f a).run.run s).state rest

/-- All of some items succeed, each in its turn. -/
def AllSucceed (f : α → Action σ Unit) (s : σ) : List α → Prop
  | [] => True
  | a :: rest =>
      ((f a).run.run s).answer = .ok () ∧ AllSucceed f ((f a).run.run s).state rest

/-- Everything that can come of doing some items in turn up to the first one
that fails: all of them succeed, or the ones before one that is refused there. -/
structure Ends (f : α → Action σ Unit) (items : List α) (s : σ)
    (result : Outcome σ (Except Error Unit)) : Prop where
  answer_eq_ok_iff : result.answer = .ok () ↔ AllSucceed f s items
  state_of_ok : result.answer = .ok () → result.state = after f s items
  exists_refused : ∀ e, result.answer = .error e → ∃ before a later, items = before ++ a :: later ∧
    AllSucceed f s before ∧ ((f a).run.run (after f s before)).answer = .error e ∧
    ((f a).run.run (after f s before)).state = after f s before ∧ result.state = after f s before

/-- Additions that keep something, as long as which they leave no trace if they fail. -/
structure Clean (J : σ → Prop) (f : α → Action σ Unit) : Prop where
  kept : ∀ a s, J s → J ((f a).run.run s).state
  refused : ∀ a s e, J s → ((f a).run.run s).answer = .error e → ((f a).run.run s).state = s

theorem forM_cons_of_ok {a : α} (rest : List α) (h : ((f a).run.run s).answer = .ok ()) :
    (((a :: rest).forM f).run.run s).answer =
        ((rest.forM f).run.run ((f a).run.run s).state).answer ∧
      (((a :: rest).forM f).run.run s).state =
        ((rest.forM f).run.run ((f a).run.run s).state).state :=
  bind_of_ok (fun _ => rest.forM f) h

theorem forM_cons_of_error {a : α} {e : Error} (rest : List α)
    (h : ((f a).run.run s).answer = .error e) :
    (((a :: rest).forM f).run.run s).answer = .error e ∧
      (((a :: rest).forM f).run.run s).state = ((f a).run.run s).state :=
  bind_of_error (fun _ => rest.forM f) h

theorem Clean.ends (h : Clean J f) (items : List α) (hs : J s) :
    Ends f items s ((items.forM f).run.run s) := by
  induction items generalizing s with
  | nil => exact ⟨⟨fun _ => trivial, fun _ => rfl⟩, fun _ => rfl, fun e he => nomatch he⟩
  | cons a rest ih =>
    cases hfirst : ((f a).run.run s).answer with
    | ok u =>
      obtain ⟨hanswer, hstate⟩ := forM_cons_of_ok rest hfirst
      have hrest := ih (h.kept a s hs)
      constructor
      · rw [hanswer, hrest.answer_eq_ok_iff, AllSucceed, and_iff_right hfirst]
      · rw [hanswer, hstate]
        exact hrest.state_of_ok
      · intro e he
        rw [hanswer] at he
        obtain ⟨before, b, later, rfl, hbefore, hb, hsame, hlast⟩ := hrest.exists_refused e he
        exact ⟨a :: before, b, later, rfl, ⟨hfirst, hbefore⟩, hb, hsame, hstate.trans hlast⟩
    | error e =>
      obtain ⟨hanswer, hstate⟩ := forM_cons_of_error rest hfirst
      have hsame := h.refused a s e hs hfirst
      have hfailed : (((a :: rest).forM f).run.run s).answer ≠ .ok () := by
        rw [hanswer]
        exact fun heq => nomatch heq
      have hnot : ¬ AllSucceed f s (a :: rest) := by
        rw [AllSucceed, hfirst]
        exact fun hall => nomatch hall.1
      refine ⟨iff_of_false hfailed hnot, fun heq => absurd heq hfailed, ?_⟩
      intro e' he'
      obtain rfl : e = e' := Except.error.inj (hanswer.symm.trans he')
      exact ⟨[], a, rest, rfl, trivial, hfirst, hsame, hstate.trans hsame⟩

/-- What is the same for each item is the same for a batch. -/
theorem run_forM_congr (hfg : ∀ a s, J s → (f a).run.run s = (g a).run.run s)
    (hkept : ∀ a s, J s → J ((g a).run.run s).state) (items : List α) (hs : J s) :
    (items.forM f).run.run s = (items.forM g).run.run s := by
  induction items generalizing s with
  | nil => rfl
  | cons a rest ih =>
    have hcons : ∀ f : α → Action σ Unit, (a :: rest).forM f = f a >>= fun _ => rest.forM f :=
      fun _ => rfl
    have hfirst := hfg a s hs
    have hnext := hkept a s hs
    rcases hg : (g a).run.run s with ⟨e | u, s', events⟩
    · rw [hcons, hcons, run_bind_of_error _ (hfirst.trans hg), run_bind_of_error _ hg]
    · rw [hg] at hnext
      rw [hcons, hcons, run_bind_of_ok _ (hfirst.trans hg), run_bind_of_ok _ hg, ih hnext]

end Action

/-- A kind is refused at once, or else it is an attribute that is added. -/
theorem Collection.run_addKind_cases (c : Collection σ) (kind : Kind) (s : σ) :
    (∃ e, (c.addKind kind).run.run s = ⟨.error e, s, []⟩) ∨
      ∃ v, (c.addKind kind).run.run s = (c.add v).run.run s := by
  have hread : (c.addKind kind).run.run s =
      (Action.ofExcept (Placement.checkFlag kind (c.index s)) >>= fun _ =>
        Action.ofExcept (Attribute.ofKind kind) >>= c.add).run.run s := rfl
  cases hcheck : Placement.checkFlag kind (c.index s) with
  | error e =>
    rw [hread, hcheck]
    exact Or.inl ⟨e, rfl⟩
  | ok u =>
    rw [hread, hcheck]
    cases Attribute.ofKind kind with
    | error e => exact Or.inl ⟨e, rfl⟩
    | ok v => exact Or.inr ⟨v, rfl⟩

theorem Collection.clean_addKind {c : Collection σ} {J : σ → Prop} (h : Action.Clean J c.add) :
    Action.Clean J c.addKind where
  kept kind s hs := by
    rcases c.run_addKind_cases kind s with ⟨e, hrefused⟩ | ⟨v, hadded⟩
    · rw [hrefused]
      exact hs
    · rw [hadded]
      exact h.kept v s hs
  refused kind s e hs he := by
    rcases c.run_addKind_cases kind s with ⟨e, hrefused⟩ | ⟨v, hadded⟩
    · rw [hrefused]
    · rw [hadded] at he ⊢
      exact h.refused v s e hs he

namespace AttributeSet

/-- The collection at an index, which is the same for as long as something holds. -/
def Steady (S : AttributeSet σ) (index : Index) (c : Collection σ) (J : σ → Prop) : Prop :=
  ∀ s, J s → (S.collectionAt index).run.run s = ⟨.ok c, s, []⟩

/-- A batch does what its items would do in turn. If there is no access to the
collection, nothing is done even for no items; otherwise the collection is
accessed, and then one item after the other is done up to the first refused one. -/
structure Batches (access : Action σ (Collection σ)) (single : α → Action σ Unit)
    (batch : List α → Action σ Unit) (s : σ) : Prop where
  refused : ∀ e, (access.run.run s).answer = .error e → ∀ items,
    ((batch items).run.run s).answer = .error e ∧ ((batch items).run.run s).state = s
  run_eq : ∀ items,
    (batch items).run.run s = (do let _ ← access; items.forM single : Action σ Unit).run.run s
  ends : ∀ c, (access.run.run s).answer = .ok c → ∀ items,
    Action.Ends single items (access.run.run s).state ((batch items).run.run s)

variable {S : AttributeSet σ} {index : Index} {c : Collection σ} {J : σ → Prop} {s s' : σ}
  {one : Collection σ → α → Action σ Unit}

theorem batches_of_refused {e : Error}
    (haccess : (S.collectionAt index).run.run s = ⟨.error e, s, []⟩) :
    Batches (S.collectionAt index) (fun a => S.collectionAt index >>= fun c => one c a)
      (fun items => S.collectionAt index >>= fun c => items.forM (one c)) s where
  refused e' he' items := by
    rw [haccess] at he'
    obtain rfl := Except.error.inj he'
    rw [Action.run_bind_of_error _ haccess]
    exact ⟨rfl, rfl⟩
  run_eq items := by
    rw [Action.run_bind_of_error _ haccess, Action.run_bind_of_error _ haccess]
  ends c hc := by
    rw [haccess] at hc
    cases hc

theorem Steady.batches (h : S.Steady index c J) (hone : Action.Clean J (one c))
    (haccess : (S.collectionAt index).run.run s = ⟨.ok c, s', []⟩) (hs' : J s') :
    Batches (S.collectionAt index) (fun a => S.collectionAt index >>= fun c => one c a)
      (fun items => S.collectionAt index >>= fun c => items.forM (one c)) s := by
  have hsingle : ∀ a t, J t →
      (S.collectionAt index >>= fun c => one c a).run.run t = (one c a).run.run t :=
    fun a t ht => Action.run_bind_of_ok _ (h t ht)
  have hsame : ∀ items : List α,
      (S.collectionAt index >>= fun c => items.forM (one c)).run.run s =
        (items.forM fun a => S.collectionAt index >>= fun c => one c a).run.run s' := by
    intro items
    rw [Action.run_bind_of_ok _ haccess, Action.run_forM_congr hsingle hone.kept items hs']
    rfl
  have hclean : Action.Clean J fun a => S.collectionAt index >>= fun c => one c a := by
    constructor
    · intro a t ht
      rw [hsingle a t ht]
      exact hone.kept a t ht
    · intro a t e ht he
      rw [hsingle a t ht] at he ⊢
      exact hone.refused a t e ht he
  constructor
  · intro e he
    rw [haccess] at he
    cases he
  · intro items
    rw [hsame, Action.run_bind_of_ok _ haccess]
    rfl
  · intro d _ items
    rw [hsame, haccess]
    exact hclean.ends items hs'

end AttributeSet

/-- Whatever is added to a context, no number of parameters changes. -/
theorem Context.keeps_counts (c : Context) (h : Handle) (index : Index) :
    store.Keeps True c.CountsLike (fun _ => True) (fun _ => False) h index where
  reads := reads _ (fun _ _ => trivial) h index
  add v _ := by
    intro c' hc' _
    cases hput : c'.put h index v with
    | error e => simpa [store, hput] using hc'
    | ok c'' =>
      have hstate : ((store.add h index v).run.run c').state = c'' := by simp [store, hput]
      rw [hstate]
      exact fun h' => (parameterCount_of_put hput h').trans (hc' h')
  remove _ hkey := hkey.elim

namespace Workspace

variable {w : Workspace} {index : Index}

/-- The numbers of parameters in one context are those of another context. -/
private theorem carries_countsLike (c : Context) (k : Nat) :
    (context k).Carries c.CountsLike fun w => c.CountsLike (w.contextAt k) where
  get _ h := h
  put w c' h hc' := by
    rw [contextAt_put]
    split
    · exact hc'
    · exact h

private theorem carries_same (w : Workspace) (k : Nat) :
    (context k).Carries (· = w.contextAt k) (· = w) where
  get _ h := congrArg (·.contextAt k) h
  put := by
    rintro _ _ rfl rfl
    exact put_contextAt k _

private theorem clean_view (c : Context) (k : Nat) (view : View Handle) :
    Action.Clean (fun w => c.CountsLike (w.contextAt k))
      (view.collection (contextStore k)).add where
  kept v w hw := by
    have hkeeps := ((c.keeps_counts view.entity view.index).within (carries_countsLike c k)).view
    exact (hkeeps.add v trivial).kept hw
  refused v w e _ he := by
    have hkeeps := ((Context.keeps_refused (P := fun _ => True) (K := fun _ => False)
      (· = w.contextAt k) view.entity view.index).within (w.carries_same k)).view
    exact (hkeeps.add v trivial).kept_of_error rfl he

/-- Batches at an index of a holder in a context. -/
private theorem batches_holder (k : Nat) (holder : Holder) {α : Type}
    {one : Collection Workspace → α → Action Workspace Unit}
    (hone : ∀ (c : Collection Workspace) J, Action.Clean J c.add → Action.Clean J (one c)) :
    AttributeSet.Batches ((holder.attributes (contextStore k)).collectionAt index)
      (fun a => (holder.attributes (contextStore k)).collectionAt index >>= fun c => one c a)
      (fun items => (holder.attributes (contextStore k)).collectionAt index >>= fun c =>
        items.forM (one c)) w := by
  have haccess := fun w' => holder.run_collectionAt (run_parameterCount w' k holder.handle) index
  cases hgrant : holder.grant index ((w.contextAt k).parameterCount holder.handle) with
  | error e =>
    have hrefused := haccess w
    rw [hgrant] at hrefused
    exact AttributeSet.batches_of_refused hrefused
  | ok u =>
    have hsteady : (holder.attributes (contextStore k)).Steady index
        (View.collection (contextStore k) ⟨holder.handle, index⟩)
        (fun w' => (w.contextAt k).CountsLike (w'.contextAt k)) := by
      intro w' hw'
      rw [haccess w', hw' holder.handle, hgrant]
      rfl
    exact hsteady.batches (hone _ _ (clean_view _ k _)) (hsteady w fun _ => rfl) fun _ => rfl

/-- Accessing an index of an owned set once more changes nothing. -/
def Accessed (n : Nat) (index : Index) (w : Workspace) : Prop :=
  (ownedSet n).put ((w.getSet n).access index) w = w

theorem accessed_put (w : Workspace) (n : Nat) (s : OwnedSet) {d : OwnedCollection}
    (hd : d.index = index) : Accessed n index ((ownedSet n).put (s.put d) w) := by
  unfold Accessed
  by_cases hn : n < w.sets.length
  · have haccess : (s.put d).access index = s.put d := by
      rw [OwnedSet.access, OwnedSet.getOrEmpty_put, if_pos hd, OwnedSet.put_put rfl]
    rw [getSet_put, if_pos ⟨rfl, hn⟩, haccess, (fits_ownedSet hn).put_put]
  · have hsame : ∀ s, (ownedSet n).put s w = w := by
      intro s
      exact congrArg (fun sets => { w with sets := sets })
        (List.set_eq_of_length_le (Nat.le_of_not_lt hn))
    rw [hsame, hsame]

private theorem clean_ownedAt (n : Nat) :
    Action.Clean (Accessed n index) (CollectionRef.ownedAt n index).collection.add where
  kept v w _ := by
    refine w.accessed_put n (w.getSet n) ?_
    rcases ((w.getSet n).getOrEmpty index).add_cases v with ⟨e, -, -, hstate⟩ | ⟨-, -, hstate⟩
    · exact (congrArg OwnedCollection.index hstate).trans ((w.getSet n).index_getOrEmpty index)
    · exact (congrArg OwnedCollection.index hstate).trans ((w.getSet n).index_getOrEmpty index)
  refused v w e hw he := by
    rcases ((w.getSet n).getOrEmpty index).add_cases v with ⟨_, -, -, hstate⟩ | ⟨-, hok, -⟩
    · have haccess : ((((CollectionRef.ownedAt n index).collection.add v).run.run w).state) =
          (ownedSet n).put ((w.getSet n).access index) w :=
        congrArg (fun d => (ownedSet n).put ((w.getSet n).put d) w) hstate
      exact haccess.trans hw
    · have hanswer : (((CollectionRef.ownedAt n index).collection.add v).run.run w).answer =
          .ok () := hok
      rw [he] at hanswer
      cases hanswer

private theorem batches_owned (n : Nat) {α : Type}
    {one : Collection Workspace → α → Action Workspace Unit}
    (hone : ∀ (c : Collection Workspace) J, Action.Clean J c.add → Action.Clean J (one c)) :
    AttributeSet.Batches ((SetRef.owned n).attributes.collectionAt index)
      (fun a => (SetRef.owned n).attributes.collectionAt index >>= fun c => one c a)
      (fun items => (SetRef.owned n).attributes.collectionAt index >>= fun c =>
        items.forM (one c)) w := by
  have haccess : ∀ w : Workspace, ((SetRef.owned n).attributes.collectionAt index).run.run w =
      ⟨.ok (CollectionRef.ownedAt n index).collection,
        (ownedSet n).put ((w.getSet n).access index) w, []⟩ := fun _ => rfl
  have hsteady : (SetRef.owned n).attributes.Steady index
      (CollectionRef.ownedAt n index).collection (Accessed n index) := by
    intro w' hw'
    rw [haccess, hw']
  exact hsteady.batches (hone _ _ (clean_ownedAt n)) (haccess w)
    (w.accessed_put n _ ((w.getSet n).index_getOrEmpty index))

/-- In whatever state, for every set outside of the recorded stores: adding
several kinds, or several attributes, at an index is adding one after the other
up to the first that is refused. -/
theorem batches_in_turn (w : Workspace) (r : SetRef) (index : Index)
    (hr : (r.place index).isRecorded = false) :
    AttributeSet.Batches (r.attributes.collectionAt index) (r.attributes.addKind index)
        (r.attributes.addKinds index) w ∧
      AttributeSet.Batches (r.attributes.collectionAt index) (r.attributes.add index)
        (r.attributes.addAll index) w := by
  have hboth : ∀ {α : Type} {one : Collection Workspace → α → Action Workspace Unit},
      (∀ (c : Collection Workspace) J, Action.Clean J c.add → Action.Clean J (one c)) →
      AttributeSet.Batches (r.attributes.collectionAt index)
        (fun a => r.attributes.collectionAt index >>= fun c => one c a)
        (fun items => r.attributes.collectionAt index >>= fun c => items.forM (one c)) w := by
    intro α one hone
    rcases r.holder_cases with ⟨k, holder, -, hattributes, -⟩ | ⟨n, entity, rfl⟩ | ⟨n, rfl⟩
    · rw [hattributes]
      exact batches_holder k holder hone
    · cases hr
    · exact batches_owned n hone
  exact ⟨hboth fun c J h => Collection.clean_addKind h, hboth fun c J h => h⟩

/-- A function with one parameter. -/
def unaryFunction : Workspace := reached 1 [] [.addFunction 0 "f" 1]

/-- The kind in the middle is for parameters only: the first one stays, and the
last one is not looked at. -/
theorem batches_in_turn_unaryFunction :
    ((SetRef.function ⟨0, .issued 0 0⟩).place .function).isRecorded = false ∧
      (∃ before a later, [Kind.cold, .byVal, .hot] = before ++ a :: later ∧
        Action.AllSucceed ((SetRef.function ⟨0, .issued 0 0⟩).attributes.addKind .function)
          unaryFunction before) ∧
      (((SetRef.function ⟨0, .issued 0 0⟩).attributes.addKinds .function
        [.cold, .byVal, .hot]).run.run unaryFunction).answer =
          .error (.illegalPlace .byVal .function) ∧
      (CollectionRef.view 0 ⟨.issued 0 0, .function⟩).listing
        (((SetRef.function ⟨0, .issued 0 0⟩).attributes.addKinds .function
          [.cold, .byVal, .hot]).run.run unaryFunction).state = [.known .cold none] := by
  have hrefused : (((SetRef.function ⟨0, .issued 0 0⟩).attributes.addKinds .function
      [.cold, .byVal, .hot]).run.run unaryFunction).answer =
        .error (.illegalPlace .byVal .function) := rfl
  obtain ⟨hkinds, -⟩ := batches_in_turn unaryFunction (.function ⟨0, .issued 0 0⟩) .function rfl
  obtain ⟨before, a, later, hsplit, hbefore, -⟩ := (hkinds.ends _ rfl _).exists_refused _ hrefused
  exact ⟨rfl, ⟨before, a, later, hsplit, hbefore⟩, hrefused, rfl⟩

end Workspace

end IRAttributes
