import IRAttributes.Event

/-!
Computations on a state that report events. A step always gives an answer; an
action may fail instead, and what it changed before the failure stays changed.
A step on one part of a larger state is also a step on the whole, which leaves
the other parts alone.
-/
namespace IRAttributes

structure Outcome (σ α : Type) where
  answer : α
  state : σ
  events : List Event

structure Step (σ α : Type) where
  run : σ → Outcome σ α

/-- Where a smaller state is found in a larger one. -/
structure Component (τ σ : Type) where
  get : τ → σ
  put : σ → τ → τ

namespace Step

variable {σ τ α β γ : Type}

theorem ext {x y : Step σ α} (h : ∀ s, x.run s = y.run s) : x = y := by
  cases x
  cases y
  exact congrArg Step.mk (funext h)

instance : Monad (Step σ) where
  pure a := ⟨fun s => ⟨a, s, []⟩⟩
  bind x f := ⟨fun s =>
    let first := x.run s
    let second := (f first.answer).run first.state
    ⟨second.answer, second.state, first.events ++ second.events⟩⟩

def read (f : σ → α) : Step σ α := ⟨fun s => ⟨f s, s, []⟩⟩

def modify (f : σ → σ) : Step σ Unit := ⟨fun s => ⟨(), f s, []⟩⟩

def report (e : Event) : Step σ Unit := ⟨fun s => ⟨(), s, [e]⟩⟩

def within (component : Component τ σ) (x : Step σ α) : Step τ α := ⟨fun t =>
  let result := x.run (component.get t)
  ⟨result.answer, component.put result.state t, result.events⟩⟩

/-- The answer alone, for looking at a state without touching it. -/
def peek (x : Step σ α) (s : σ) : α := (x.run s).answer

@[simp] theorem run_pure (a : α) (s : σ) : (pure a : Step σ α).run s = ⟨a, s, []⟩ := rfl

@[simp] theorem run_bind (x : Step σ α) (f : α → Step σ β) (s : σ) :
    (x >>= f).run s =
      ⟨((f (x.run s).answer).run (x.run s).state).answer,
       ((f (x.run s).answer).run (x.run s).state).state,
       (x.run s).events ++ ((f (x.run s).answer).run (x.run s).state).events⟩ := rfl

@[simp] theorem run_read (f : σ → α) (s : σ) : (read f).run s = ⟨f s, s, []⟩ := rfl

@[simp] theorem run_modify (f : σ → σ) (s : σ) : (modify f).run s = ⟨(), f s, []⟩ := rfl

@[simp] theorem run_report (e : Event) (s : σ) : (report e).run s = ⟨(), s, [e]⟩ := rfl

@[simp] theorem run_within (component : Component τ σ) (x : Step σ α) (t : τ) :
    (x.within component).run t =
      ⟨(x.run (component.get t)).answer, component.put (x.run (component.get t)).state t,
       (x.run (component.get t)).events⟩ := rfl

theorem bind_assoc (x : Step σ α) (f : α → Step σ β) (g : β → Step σ γ) :
    (x >>= f) >>= g = x >>= fun a => f a >>= g := by
  apply ext
  intro s
  simp [List.append_assoc]

instance : LawfulMonad (Step σ) := LawfulMonad.mk' (Step σ)
  (by intro α x; apply ext; intro s; simp [Functor.map])
  (by intro α β a f; apply ext; intro s; simp)
  (by intro α β γ x f g; exact bind_assoc x f g)

end Step

abbrev Action (σ α : Type) : Type := ExceptT Error (Step σ) α

namespace Action

variable {σ τ α : Type}

def ofExcept (r : Except Error α) : Action σ α := ExceptT.mk (pure r)

def read (f : σ → α) : Action σ α := ExceptT.lift (Step.read f)

def report (e : Event) : Action σ Unit := ExceptT.lift (Step.report e)

def within (component : Component τ σ) (x : Action σ α) : Action τ α :=
  ExceptT.mk (x.run.within component)

end Action

end IRAttributes
