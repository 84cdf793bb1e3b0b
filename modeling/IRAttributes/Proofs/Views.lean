import IRAttributes.Proofs.Access

/-!
Sets and views of the entities of a context, one request at a time. Reaching
for an index asks for the number of parameters and compares; an addition
through a view asks and compares again, looks at the kind, and only then puts
the attribute. Whenever one of these refuses, the context stays as it is.
-/
namespace IRAttributes.Context

variable {c c' : Context} {h : Handle} {index : Index} {count : UInt32} {v : Attribute} {e : Error}

/-- A set of a store compares an index with the number of parameters. -/
private theorem collectionAt_of_counted (hcount : c.parameterCount h = .ok count)
    (index : Index) :
    ((store.attributeSet h).collectionAt index).run.run c =
      ⟨(Placement.checkRange index (some count)).map fun _ => View.collection store ⟨h, index⟩,
        c, []⟩ := by
  have hrun := c.run_collectionAt (.entity h) index
  rw [Holder.handle, hcount] at hrun
  exact hrun

/-- A store gives a view of an index that is in range. -/
theorem collectionAt_of_inRange (hcount : c.parameterCount h = .ok count)
    (hrange : Placement.checkRange index (some count) = .ok ()) :
    (((store.attributeSet h).collectionAt index).run.run c).answer =
        .ok (View.collection store ⟨h, index⟩) ∧
      (((store.attributeSet h).collectionAt index).run.run c).state = c := by
  rw [collectionAt_of_counted hcount, hrange]
  exact ⟨rfl, rfl⟩

theorem collectionAt_of_outOfRange (hcount : c.parameterCount h = .ok count)
    (hrange : Placement.checkRange index (some count) = .error e) :
    (((store.attributeSet h).collectionAt index).run.run c).answer = .error e ∧
      (((store.attributeSet h).collectionAt index).run.run c).state = c := by
  rw [collectionAt_of_counted hcount, hrange]
  exact ⟨rfl, rfl⟩

theorem view_add_of_uncounted (hcount : c.parameterCount h = .error e) (index : Index)
    (v : Attribute) :
    ((View.add store ⟨h, index⟩ v).run.run c).answer = .error e ∧
      ((View.add store ⟨h, index⟩ v).run.run c).state = c := by
  have hasked : ((store.parameterCount h).run.run c).answer = .error e := hcount
  obtain ⟨hanswer, hstate⟩ := Action.bind_of_error (x := store.parameterCount h) _ hasked
  exact ⟨hanswer, hstate⟩

/-- A view of an entity with a known number of parameters checks against that number. -/
theorem view_add_of_error (hcount : c.parameterCount h = .ok count)
    (hcheck : Placement.check v index (some count) = .error e) :
    ((View.add store ⟨h, index⟩ v).run.run c).answer = .error e ∧
      ((View.add store ⟨h, index⟩ v).run.run c).state = c := by
  have hasked : ((store.parameterCount h).run.run c).answer = .ok count := hcount
  have hrefused : ((Action.ofExcept (Placement.check v index (some count)) :
      Action Context Unit).run.run c).answer = .error e := hcheck
  obtain ⟨hanswer, hstate⟩ := Action.bind_of_ok (x := store.parameterCount h) _ hasked
  obtain ⟨hanswer', hstate'⟩ := Action.bind_of_error _ hrefused
  exact ⟨hanswer.trans hanswer', hstate.trans hstate'⟩

/-- What passes the check is up to the store. -/
private theorem view_add_of_checked (hcount : c.parameterCount h = .ok count)
    (hcheck : Placement.check v index (some count) = .ok ()) :
    ((View.add store ⟨h, index⟩ v).run.run c).answer =
        ((store.add h index v).run.run c).answer ∧
      ((View.add store ⟨h, index⟩ v).run.run c).state =
        ((store.add h index v).run.run c).state := by
  have hasked : ((store.parameterCount h).run.run c).answer = .ok count := hcount
  have hchecked : ((Action.ofExcept (Placement.check v index (some count)) :
      Action Context Unit).run.run c).answer = .ok () := hcheck
  have hreported : ((Action.report (.viewAdds v (store.entityText h) index) :
      Action Context Unit).run.run c).answer = .ok () := rfl
  obtain ⟨hanswer, hstate⟩ := Action.bind_of_ok (x := store.parameterCount h) _ hasked
  obtain ⟨hanswer₁, hstate₁⟩ := Action.bind_of_ok _ hchecked
  obtain ⟨hanswer₂, hstate₂⟩ := Action.bind_of_ok _ hreported
  exact ⟨hanswer.trans (hanswer₁.trans hanswer₂), hstate.trans (hstate₁.trans hstate₂)⟩

theorem view_add_of_put (hcount : c.parameterCount h = .ok count)
    (hcheck : Placement.check v index (some count) = .ok ())
    (hput : c.put h index v = .ok c') :
    ((View.add store ⟨h, index⟩ v).run.run c).answer = .ok () ∧
      ((View.add store ⟨h, index⟩ v).run.run c).state = c' := by
  have hadded : (store.add h index v).run.run c = ⟨.ok (), c', [.storeAdds v h.text index]⟩ := by
    simp only [store, ExceptT.run_mk, hput]
  obtain ⟨hanswer, hstate⟩ := view_add_of_checked hcount hcheck
  exact ⟨hanswer.trans (congrArg Outcome.answer hadded),
    hstate.trans (congrArg Outcome.state hadded)⟩

theorem view_add_of_refused (hcount : c.parameterCount h = .ok count)
    (hcheck : Placement.check v index (some count) = .ok ())
    (hput : c.put h index v = .error e) :
    ((View.add store ⟨h, index⟩ v).run.run c).answer = .error e ∧
      ((View.add store ⟨h, index⟩ v).run.run c).state = c := by
  have hadded : (store.add h index v).run.run c = ⟨.error e, c, [.storeAdds v h.text index]⟩ := by
    simp only [store, ExceptT.run_mk, hput]
  obtain ⟨hanswer, hstate⟩ := view_add_of_checked hcount hcheck
  exact ⟨hanswer.trans (congrArg Outcome.answer hadded),
    hstate.trans (congrArg Outcome.state hadded)⟩

/-- An addition through a view changes nothing, or everything was in order and
the attribute is put. -/
theorem view_add_cases (c : Context) (h : Handle) (index : Index) (v : Attribute) :
    (∃ e, ((View.add store ⟨h, index⟩ v).run.run c).answer = .error e ∧
        ((View.add store ⟨h, index⟩ v).run.run c).state = c) ∨
      ∃ count c', c.parameterCount h = .ok count ∧
        Placement.check v index (some count) = .ok () ∧ c.put h index v = .ok c' ∧
        ((View.add store ⟨h, index⟩ v).run.run c).answer = .ok () ∧
        ((View.add store ⟨h, index⟩ v).run.run c).state = c' := by
  cases hcount : c.parameterCount h with
  | error e => exact Or.inl ⟨e, view_add_of_uncounted hcount index v⟩
  | ok count =>
    cases hcheck : Placement.check v index (some count) with
    | error e => exact Or.inl ⟨e, view_add_of_error hcount hcheck⟩
    | ok u =>
      cases hput : c.put h index v with
      | error e => exact Or.inl ⟨e, view_add_of_refused hcount hcheck hput⟩
      | ok c' => exact Or.inr ⟨count, c', rfl, hcheck, rfl, view_add_of_put hcount hcheck hput⟩

end IRAttributes.Context
