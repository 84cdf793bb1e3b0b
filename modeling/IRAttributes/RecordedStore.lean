import IRAttributes.Store

/-!
Stores that remember what they were asked. Any store can be recorded: its
answers stay the same, and every request is noted in order. A count of
parameters is noted together with its answer, since additions depend on it.
-/
namespace IRAttributes

/-- What a store was asked. -/
inductive Message (H : Type)
  | parameterCount (entity : H) (answer : Except Error UInt32)
  | add (entity : H) (index : Index) (v : Attribute)
  | remove (entity : H) (index : Index) (key : Key)
  | count (entity : H) (index : Index)
  | attributes (entity : H) (index : Index)
  | find (entity : H) (index : Index) (key : Key)

def Key.plain : Key → String
  | .kind k => k.spelling
  | .name s => s

namespace Message

variable {H : Type}

def request : Message H → String
  | .parameterCount .. => "parameter_count"
  | .add .. => "add_attribute"
  | .remove _ _ (.kind _) => "remove_enum_attribute"
  | .remove _ _ (.name _) => "remove_string_attribute"
  | .count .. => "attribute_count"
  | .attributes .. => "attributes"
  | .find _ _ (.kind _) => "enum_attribute"
  | .find _ _ (.name _) => "string_attribute"

def arguments (entityText : H → String) : Message H → List String
  | .parameterCount entity _ => [entityText entity]
  | .add entity index v => [entityText entity, index.text, v.text]
  | .remove entity index key => [entityText entity, index.text, key.plain]
  | .count entity index => [entityText entity, index.text]
  | .attributes entity index => [entityText entity, index.text]
  | .find entity index key => [entityText entity, index.text, key.plain]

def text (entityText : H → String) (m : Message H) : String :=
  " ".intercalate (m.request :: m.arguments entityText)

end Message

structure Recorded (σ H : Type) where
  store : σ
  messages : List (Message H)

namespace Recorded

variable {σ H α : Type}

def component : Component (Recorded σ H) σ where
  get := Recorded.store
  put s r := ⟨s, r.messages⟩

def note (m : Message H) : Step (Recorded σ H) Unit :=
  Step.modify fun r => ⟨r.store, r.messages ++ [m]⟩

/-- Notes a request and then has it answered. -/
def noting (m : Message H) (x : Step σ α) : Step (Recorded σ H) α := do
  note m
  x.within component

end Recorded

def Store.recorded {σ H : Type} (store : Store σ H) : Store (Recorded σ H) H where
  entityText := store.entityText
  parameterCount entity := ExceptT.mk do
    let answer ← (store.parameterCount entity).run.within Recorded.component
    Recorded.note (.parameterCount entity answer)
    return answer
  add entity index v := ExceptT.mk
    (Recorded.noting (.add entity index v) (store.add entity index v).run)
  remove entity index key :=
    Recorded.noting (.remove entity index key) (store.remove entity index key)
  count entity index := Recorded.noting (.count entity index) (store.count entity index)
  attributes entity index :=
    Recorded.noting (.attributes entity index) (store.attributes entity index)
  find? entity index key :=
    Recorded.noting (.find entity index key) (store.find? entity index key)

end IRAttributes
