import IRAttributes.Proofs.Focus
import IRAttributes.Proofs.Forms
import IRAttributes.Proofs.Legality
import IRAttributes.Proofs.Merging
import IRAttributes.Proofs.Mirror

/-!
Where a collection keeps its attributes. Owned collections and views alike have
one list somewhere in the state, in one form or another, and everything that is
asked of them is answered from that list or puts another list in its place. Such
a collection is said to be shelved. Whatever follows from this alone is true of
a collection that stands by itself, of one in an owned set, and of a view of an
entity that is there.
-/
namespace IRAttributes

variable {σ τ ρ ν κ H : Type} [DecidableEq κ]

namespace Component

/-- A part that is found again where it was put, as long as `J` holds of it and
`I` of the whole. -/
structure Lens (component : Component τ σ) (J : σ → Prop) (I : τ → Prop) : Prop
    extends component.Carries J I where
  get_put : ∀ t s, I t → J s → component.get (component.put s t) = s
  put_put : ∀ t s s', I t → J s → J s' →
    component.put s' (component.put s t) = component.put s' t

/-- A part of a part. -/
def inside (inner : Component σ ρ) (outer : Component τ σ) : Component τ ρ where
  get t := inner.get (outer.get t)
  put r t := outer.put (inner.put r (outer.get t)) t

variable {component : Component τ σ} {J : σ → Prop} {I : τ → Prop}

theorem Lens.inside {K : ρ → Prop} {inner : Component σ ρ} {outer : Component τ σ}
    (hinner : inner.Lens K J) (houter : outer.Lens J I) : (inner.inside outer).Lens K I where
  get t ht := hinner.get _ (houter.get t ht)
  put t r ht hr := houter.put t _ ht (hinner.put _ r (houter.get t ht) hr)
  get_put t r ht hr := by
    have hput := hinner.put _ r (houter.get t ht) hr
    change inner.get (outer.get (outer.put (inner.put r (outer.get t)) t)) = r
    rw [houter.get_put t _ ht hput, hinner.get_put _ r (houter.get t ht) hr]
  put_put t r r' ht hr hr' := by
    have hget := houter.get t ht
    have hput := hinner.put _ r hget hr
    have hput' := hinner.put _ r' hget hr'
    change outer.put (inner.put r' (outer.get (outer.put (inner.put r (outer.get t)) t)))
      (outer.put (inner.put r (outer.get t)) t) = outer.put (inner.put r' (outer.get t)) t
    rw [houter.get_put t _ ht hput, hinner.put_put _ r r' hget hr hr',
      houter.put_put t _ _ ht hput hput']

/-- What is put in place of a part leaves a whole that has the part. -/
theorem Fits.put {t : τ} (h : component.Fits t) (s : σ) : component.Fits (component.put s t) where
  get_put s' := by rw [h.put_put, h.get_put]
  put_put s' s'' := by rw [h.put_put, h.put_put, h.put_put]
  put_get := by rw [h.get_put, h.put_put]

theorem lens_of_fits (component : Component τ σ) (J : σ → Prop) :
    component.Lens J fun t => component.Fits t ∧ J (component.get t) where
  get _ ht := ht.2
  put _ s ht hs := ⟨ht.1.put s, (ht.1.get_put s).symm ▸ hs⟩
  get_put _ s ht _ := ht.1.get_put s
  put_put _ s s' ht _ _ := ht.1.put_put s s'

end Component

/-- The attributes of a collection are one list at some place of the state, in
some form, wherever `I` holds. -/
structure Collection.Shelves (c : Collection σ) (index : Index) (form : Form ν κ)
    (place : Component σ (List ν)) (I : σ → Prop) : Prop where
  lens : place.Lens form.Unique I
  index_eq : ∀ s, I s → c.index s = index
  attributes : ∀ s, I s → c.attributes.peek s = form.list (place.get s)
  find? : ∀ s, I s → ∀ key, (c.find? key).peek s =
    if key.isBlank then none else KeyedList.find? Attribute.key key (form.list (place.get s))
  size : ∀ s, I s → c.size.peek s = form.size (place.get s).length
  add : ∀ s, I s → ∀ v, Placement.Legal v index →
    ((c.add v).run.run s).answer = .ok () ∧
      ((c.add v).run.run s).state = place.put (form.put v (place.get s)) s
  remove : ∀ s, I s → ∀ key, key.isBlank = false →
    ((c.remove key).run s).state = place.put (form.erase key (place.get s)) s

/-- A collection has its attributes in a list, now and after any change of it. -/
def Collection.Shelved (c : Collection σ) (s : σ) : Prop :=
  ∃ (ν κ : Type) (_ : DecidableEq κ) (form : Form ν κ) (place : Component σ (List ν))
    (I : σ → Prop), c.Shelves (c.index s) form place I ∧ I s

namespace Collection.Shelves

variable {c : Collection σ} {index : Index} {form : Form ν κ} {place : Component σ (List ν)}
  {J : σ → Prop} {I : τ → Prop} {component : Component τ σ}

theorem shelved (h : c.Shelves index form place J) {s : σ} (hs : J s) : c.Shelved s :=
  ⟨ν, κ, _, form, place, J, (h.index_eq s hs).symm ▸ h, hs⟩

theorem within (h : c.Shelves index form place J) (hlens : component.Lens J I) :
    (c.within component).Shelves index form (place.inside component) I where
  lens := h.lens.inside hlens
  index_eq t ht := h.index_eq _ (hlens.get t ht)
  attributes t ht := h.attributes _ (hlens.get t ht)
  find? t ht := h.find? _ (hlens.get t ht)
  size t ht := h.size _ (hlens.get t ht)
  add t ht v hv := by
    obtain ⟨hanswer, hstate⟩ := h.add _ (hlens.get t ht) v hv
    exact ⟨hanswer, congrArg (fun s => component.put s t) hstate⟩
  remove t ht key hkey :=
    congrArg (fun s => component.put s t) (h.remove _ (hlens.get t ht) key hkey)

/-- A view of a store that is part of something larger. -/
theorem view_within {S : Store σ H} {view : View H} {place : Component τ (List ν)}
    (h : ((view.collection S).within component).Shelves index form place I)
    (hfits : ∀ t, I t → component.Fits t) :
    (view.collection (S.within component)).Shelves index form place I where
  lens := h.lens
  index_eq := h.index_eq
  attributes := h.attributes
  find? t ht key := by
    refine Eq.trans ?_ (h.find? t ht key)
    change (view.find? (S.within component) key).peek t = (view.find? S key).peek _
    unfold View.find?
    split <;> rfl
  size := h.size
  add t ht v hv := by
    obtain ⟨hanswer, hstate⟩ := (hfits t ht).run_view_add S view v
    obtain ⟨hanswer', hstate'⟩ := h.add t ht v hv
    exact ⟨hanswer.trans hanswer', hstate.trans hstate'⟩
  remove t ht key hkey := by
    have hwrites := ((hfits t ht).store_writes S view.entity view.index).view
    obtain ⟨-, hstate⟩ := hwrites.remove key t _ (hfits t ht).put_get.symm
    exact Eq.trans hstate (h.remove t ht key hkey)

end Collection.Shelves

namespace OwnedCollection

/-- The attributes of an owned collection. -/
def shelf : Component OwnedCollection (List Attribute) where
  get c := c.attributes
  put l c := ⟨c.index, l⟩

/-- A collection for an index, with no key twice. -/
structure At (index : Index) (c : OwnedCollection) : Prop where
  index : c.index = index
  unique : Form.plain.Unique c.attributes

theorem shelves (index : Index) : collection.Shelves index Form.plain shelf (At index) where
  lens := {
    get := fun _ hc => hc.unique
    put := fun _ _ hc hl => ⟨hc.index, hl⟩
    get_put := fun _ _ _ _ => rfl
    put_put := fun _ _ _ _ _ _ => rfl }
  index_eq _ hc := hc.index
  attributes c _ := (Form.list_plain c.attributes).symm
  find? c _ key := by
    rw [Form.list_plain]
    rfl
  size _ _ := rfl
  add c hc v hv := by
    have hin : Placement.InRange c.index none := by cases c.index <;> trivial
    have hcheck := (Placement.check_eq_ok_iff v c.index none).mpr ⟨hin, hc.index.symm ▸ hv⟩
    rcases c.add_cases v with ⟨e, herror, -, -⟩ | ⟨-, hadded⟩
    · rw [hcheck] at herror
      cases herror
    · exact hadded
  remove c _ key hkey := by
    change c.erase key = ⟨c.index, KeyedList.erase Attribute.key key c.attributes⟩
    rw [OwnedCollection.erase, if_neg (Bool.eq_false_iff.mp hkey)]

end OwnedCollection

namespace OwnedSet

/-- The collection at an index, accessed or not. -/
theorem lens_component (index : Index) :
    (component index).Lens (OwnedCollection.At index)
      fun s => OwnedCollection.At index (s.getOrEmpty index) where
  get _ hs := hs
  put s c hs hc := by
    rw [component, getOrEmpty_put, if_pos hc.index]
    exact hc
  get_put s c hs hc := by
    change (s.put c).getOrEmpty index = c
    rw [getOrEmpty_put, if_pos hc.index]
  put_put s c c' hs hc hc' := put_put (hc'.index.trans hc.index.symm) s

end OwnedSet

namespace Entity

/-- The entity with other attributes at an index, unless the index has no number. -/
def setNative (e : Entity) (index : Index) (attributes : List NativeAttribute) : Entity :=
  match index.raw? with
  | some raw => e.setSlot raw attributes
  | none => e

theorem role_setNative (e : Entity) (index : Index) (attributes : List NativeAttribute) :
    (e.setNative index attributes).role = e.role := by
  unfold setNative
  split <;> rfl

theorem native_setNative (e : Entity) {index : Index} (hindex : index.raw?.isSome = true)
    (attributes : List NativeAttribute) :
    (e.setNative index attributes).native index = attributes := by
  obtain ⟨raw, hraw⟩ := Option.isSome_iff_exists.mp hindex
  simp only [setNative, hraw, e.native_setSlot hraw, if_true]

theorem setNative_setNative (e : Entity) (index : Index)
    (attributes attributes' : List NativeAttribute) :
    (e.setNative index attributes).setNative index attributes' = e.setNative index attributes' := by
  cases hraw : index.raw? with
  | none => simp only [setNative, hraw]
  | some raw =>
    have hsame : Prod.fst (raw, attributes) = Prod.fst (raw, attributes') := rfl
    simp only [setNative, hraw]
    exact congrArg (Entity.mk e.role) (KeyedList.put_put hsame e.slots)

theorem putAt_eq (e : Entity) (index : Index) (v : Attribute) :
    e.putAt index v = e.setNative index (Form.native.put v (e.native index)) := by
  cases hraw : index.raw? with
  | none => simp only [putAt, setNative, hraw]
  | some raw =>
    simp only [putAt, setNative, native, hraw]
    rfl

theorem eraseAt_eq (e : Entity) (index : Index) (key : Key) :
    e.eraseAt index key = e.setNative index (Form.native.erase key (e.native index)) := by
  cases hraw : index.raw? with
  | none => simp only [eraseAt, setNative, hraw]
  | some raw =>
    simp only [eraseAt, setNative, native, hraw]
    rfl

end Entity

namespace Context

variable {c : Context} {h : Handle} {index : Index} {count : UInt32}

/-- What an entity keeps at an index. -/
def shelf (h : Handle) (index : Index) : Component Context (List NativeAttribute) where
  get c := c.native h index
  put l c := c.update h (·.setNative index l)

/-- The number of parameters of an entity can be counted, and no key occurs twice at an index. -/
structure At (h : Handle) (index : Index) (count : UInt32) (c : Context) : Prop where
  counted : c.parameterCount h = .ok count
  unique : Form.native.Unique (c.native h index)

theorem At.exists_entity (hc : c.At h index count) : ∃ e, c.entity? h = some e := by
  cases he : c.entity? h with
  | some e => exact ⟨e, rfl⟩
  | none =>
    have hrole : c.role? h = none := congrArg (Option.map Entity.role) he
    have hcounted := hc.counted
    rw [parameterCount_of_none hrole] at hcounted
    cases hcounted

theorem native_put_shelf (hc : c.At h index count) (hindex : index.raw?.isSome = true)
    (l : List NativeAttribute) : (c.update h (·.setNative index l)).native h index = l := by
  obtain ⟨e, he⟩ := hc.exists_entity
  rw [native_eq, entity?_update, if_pos rfl, he]
  exact e.native_setNative hindex l

/-- What is rewritten at an index depends on what was there. -/
private theorem update_eq_put_shelf {f : Entity → Entity}
    {change : List NativeAttribute → List NativeAttribute}
    (hf : ∀ e : Entity, f e = e.setNative index (change (e.native index))) (c : Context)
    (h : Handle) : c.update h f = (shelf h index).put (change (c.native h index)) c := by
  refine congrArg Context.mk (SlotTable.update_congr ?_)
  intro e he
  have hnative : c.native h index = e.native index := by
    rw [native_eq]
    exact congrArg (fun e => (e.map (·.native index)).getD []) he
  rw [hf, hnative]

theorem shelves_view (hindex : index.Within count) :
    (View.collection store ⟨h, index⟩).Shelves index Form.native (shelf h index)
      (At h index count) where
  lens := {
    get := fun _ hc => hc.unique
    put := by
      intro c l hc hl
      refine ⟨?_, ?_⟩
      · exact (parameterCount_update (·.role_setNative index l) c h h).trans hc.counted
      · exact (native_put_shelf hc (Option.isSome_iff_exists.mpr hindex.exists_raw) l).symm ▸ hl
    get_put := fun _ l hc _ =>
      native_put_shelf hc (Option.isSome_iff_exists.mpr hindex.exists_raw) l
    put_put := by
      intro c l l' _ _ _
      refine congrArg Context.mk ((SlotTable.update_update c.entities _ _ h).trans ?_)
      exact congrArg (c.entities.update · h) (funext fun e => e.setNative_setNative index l l') }
  index_eq _ _ := rfl
  attributes _ _ := rfl
  find? c hc key := by
    change (View.find? store ⟨h, index⟩ key).peek c = _
    unfold View.find?
    split
    · rfl
    · exact c.find?_eq h index key
  size _ _ := rfl
  add c hc v hv := by
    have hcheck := (Placement.check_eq_ok_iff v index (some count)).mpr ⟨hindex.inRange, hv⟩
    obtain ⟨c', hput⟩ := exists_put hc.counted hindex v
    obtain ⟨hanswer, hstate⟩ := view_add_of_put hc.counted hcheck hput
    refine ⟨hanswer, hstate.trans ?_⟩
    cases moves_put hput with
    | put => exact update_eq_put_shelf (Entity.putAt_eq · index v) c h
  remove c hc key hkey := by
    have hstate : ((View.remove store ⟨h, index⟩ key).run c).state = c.erase h index key := by
      rw [View.remove, hkey]
      rfl
    refine hstate.trans ((c.erase_eq_update h index key).trans ?_)
    exact update_eq_put_shelf (Entity.eraseAt_eq · index key) c h

end Context

namespace CollectionRef

/-- Somewhere attributes can be kept: an owned collection, by itself or in a set, or
an index of an entity that is there, as is its callee if it is a call site. -/
def Open (w : Workspace) : CollectionRef → Prop
  | .view k v => ∃ count, (w.contextAt k).HasParameters v.entity count ∧ v.index.Within count
  | .recordedView _ _ => False
  | .owned n => n < w.collections.length
  | .ownedAt n _ => n < w.sets.length

theorem shelved_of_open {P : Attribute → Prop} {w : Workspace}
    (hcontexts : ∀ k, (w.contextAt k).Lawful) (hstocked : w.Stocked P) {r : CollectionRef}
    (hopen : r.Open w) : r.collection.Shelved w := by
  have hbeside : Workspace.Beside P none w w := hstocked.beside
  cases r with
  | view k v =>
    obtain ⟨count, hparameters, hindex⟩ := hopen
    obtain ⟨role, hrole⟩ := hparameters.exists_role
    have hcounted := hparameters.parameterCount (hcontexts k).sound
    have hshelves := (Context.shelves_view (h := v.entity) hindex).within
      (Component.lens_of_fits (Workspace.context k) _)
    refine (hshelves.view_within fun _ ht => ht.1).shelved ?_
    exact ⟨Workspace.fits_context (Workspace.lt_of_role? hrole), hcounted,
      (hcontexts k).unique v.entity v.index⟩
  | recordedView n v => exact hopen.elim
  | owned n =>
    have hshelves := (OwnedCollection.shelves (w.getCollection n).index).within
      (Component.lens_of_fits (Workspace.ownedCollection n) _)
    refine hshelves.shelved ?_
    exact ⟨Workspace.fits_ownedCollection hopen, rfl, (hbeside.getCollection n).unique⟩
  | ownedAt n index =>
    have hshelves := ((OwnedCollection.shelves index).within (OwnedSet.lens_component index)).within
      (Component.lens_of_fits (Workspace.ownedSet n) _)
    refine hshelves.shelved ?_
    exact ⟨Workspace.fits_ownedSet hopen, (w.getSet n).index_getOrEmpty index,
      ((hbeside.getSet n).getOrEmpty index).unique⟩

/-- After any run, whatever attributes were brought along. -/
theorem shelved_of_run (contexts : Nat) (parameterCounts : List (Option UInt32))
    (activities : List Activity) {r : CollectionRef}
    (hopen : r.Open (Workspace.reached contexts parameterCounts activities)) :
    r.collection.Shelved (Workspace.reached contexts parameterCounts activities) :=
  shelved_of_open (Workspace.lawful_reached contexts parameterCounts activities)
    (Workspace.stocked_of_run contexts parameterCounts activities) hopen

end CollectionRef

end IRAttributes
