import IRAttributes.Proofs.Operation

/-!
Everything that can be done to a workspace, as data, and runs of it. A run is
any list of activities on contexts, recorded stores, owned sets and owned
collections, in any order: entities come and go, sets and collections are made
and copied, attributes are changed through every kind of reference, and copied
from one place to another. Numbers, handles and attributes are arbitrary.
-/
namespace IRAttributes

inductive Activity
  | addFunction (context : Nat) (name : String) (parameterCount : UInt32)
  | buildCall (context : Nat) (callee : Function)
  | buildInvoke (context : Nat) (callee : Function)
  | removeEntity (context : Nat) (h : Handle)
  | newSet
  | copySet (number : Nat)
  | newCollection (index : Index)
  | copyCollection (number : Nat)
  /-- An owned collection with the attributes that a set has at an index. -/
  | copyAt (set : Nat) (index : Index)
  | onStore (context : Nat) (h : Handle) (request : StoreRequest)
  | onRecorder (recorder : Nat) (entity : UInt32) (request : StoreRequest)
  /-- Reaching for the collection at an index, and doing nothing with it. -/
  | reach (r : SetRef) (index : Index)
  | onSet (r : SetRef) (request : SetRequest)
  | onCollection (r : CollectionRef) (request : CollectionRequest)
  | setAlignment (a : Argument) (alignment : UInt64)
  | addCollection (target : SetRef) (index : Index) (source : CollectionRef)
  | addFrom (target : SetRef) (index : Index) (source : SetRef)
  | merge (source target : Nat)
  | apply (source : Nat) (target : SetRef)
  deriving DecidableEq

namespace Activity

def run : Activity → Action Workspace Reply
  | .addFunction context name parameterCount =>
      return .entity (← Workspace.addFunction context name parameterCount).handle
  | .buildCall context callee => return .entity (← Workspace.buildCall context callee).handle
  | .buildInvoke context callee => return .entity (← Workspace.buildInvoke context callee).handle
  | .removeEntity context h => return .answer (.truth (← Workspace.removeEntity context h))
  | .newSet => return .answer (.number (← Workspace.addSet .empty))
  | .copySet number => do
      let s ← Action.read (·.getSet number)
      return .answer (.number (← Workspace.addSet s))
  | .newCollection index => return .answer (.number (← Workspace.addCollection (.empty index)))
  | .copyCollection number => do
      let c ← Action.read (·.getCollection number)
      return .answer (.number (← Workspace.addCollection c))
  | .copyAt set index => do
      let c ← Action.read fun w => (w.getSet set).getOrEmpty index
      return .answer (.number (← Workspace.addCollection c))
  | .onStore context h request =>
      return .answer (← request.run (Workspace.contextStore context) h)
  | .onRecorder recorder entity request =>
      return .answer (← request.run (Workspace.recorderStore recorder) entity)
  | .reach r index => do
      let _ ← r.collectionAt index
      return .answer .done
  | .onSet r request => return .answer (← request.run r.attributes)
  | .onCollection r request => return .answer (← request.run r.collection)
  | .setAlignment a alignment => do
      let _ ← a.setAlignment alignment
      return .answer .done
  | .addCollection target index source => do
      target.attributes.addCollection index source.collection
      return .answer .done
  | .addFrom target index source => do
      target.attributes.addFrom index source.attributes
      return .answer .done
  | .merge source target => do
      Workspace.merge source target
      return .answer .done
  | .apply source target => do
      Workspace.apply source target
      return .answer .done

/-- The attributes that an activity brings into the workspace. -/
def values : Activity → List Attribute
  | .onStore _ _ request => request.values
  | .onRecorder _ _ request => request.values
  | .onSet _ request => request.values
  | .onCollection _ request => request.values
  | _ => []

/-- All attributes brought along were built by the checked constructors. -/
def WellFormed (a : Activity) : Prop := ∀ v ∈ a.values, v.WellFormed

instance (a : Activity) : Decidable a.WellFormed := by
  unfold WellFormed
  infer_instance

/-- Nothing is added to a context behind the back of the checks. -/
def Validated : Activity → Prop
  | .onStore _ _ (.add _ _) => False
  | _ => True

instance (a : Activity) : Decidable a.Validated := by
  unfold Validated
  split <;> infer_instance

end Activity

namespace Workspace

def perform (a : Activity) (w : Workspace) : Outcome Workspace (Except Error Reply) :=
  a.run.run.run w

/-- The workspace after a list of activities, whether or not they succeed. -/
def after (w : Workspace) : List Activity → Workspace
  | [] => w
  | a :: rest => after (w.perform a).state rest

theorem after_append (w : Workspace) (before rest : List Activity) :
    w.after (before ++ rest) = (w.after before).after rest := by
  induction before generalizing w with
  | nil => rfl
  | cons a before ih => simp only [List.cons_append, after, ih]

/-- The workspace that a run leads to from one in which there is nothing yet. -/
def reached (contexts : Nat) (parameterCounts : List (Option UInt32))
    (activities : List Activity) : Workspace :=
  (ofCounts contexts parameterCounts).after activities

end Workspace

/-- A set in a workspace that some run leads to, whatever attributes were brought along. -/
def OwnedSet.Reached (s : OwnedSet) : Prop :=
  ∃ (contexts : Nat) (parameterCounts : List (Option UInt32)) (activities : List Activity),
    s ∈ (Workspace.reached contexts parameterCounts activities).sets

/-- A set that can be built: one in a workspace that some run of well-formed
activities leads to. -/
def OwnedSet.Built (s : OwnedSet) : Prop :=
  ∃ (contexts : Nat) (parameterCounts : List (Option UInt32)) (activities : List Activity),
    (∀ a ∈ activities, a.WellFormed) ∧
      s ∈ (Workspace.reached contexts parameterCounts activities).sets

end IRAttributes
