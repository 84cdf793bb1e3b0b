import IRAttributes.NativeAttribute
import IRAttributes.SlotTable
import IRAttributes.Store

/-!
A store that owns functions and call sites together with their attributes. A
call site carries attributes of its own and has as many parameters as the
function it calls, for as long as that function exists. Attributes are kept in
native form under the number of their index; the two parameter positions that
have no number can be looked at but hold nothing and take nothing.
-/
namespace IRAttributes

/-- A call site remembers the handle of its callee, whether or not that is still alive. -/
inductive Role
  | function (name : String) (parameterCount : UInt32)
  | call (callee : Handle)
  | invoke (callee : Handle)
  deriving DecidableEq

structure Entity where
  role : Role
  slots : List (UInt32 × List NativeAttribute)
  deriving DecidableEq

namespace Entity

def slot (e : Entity) (raw : UInt32) : List NativeAttribute :=
  ((KeyedList.find? Prod.fst raw e.slots).map Prod.snd).getD []

def setSlot (e : Entity) (raw : UInt32) (attributes : List NativeAttribute) : Entity :=
  ⟨e.role, KeyedList.put Prod.fst (raw, attributes) e.slots⟩

/-- Nothing is kept under an index without a number. -/
def native (e : Entity) (index : Index) : List NativeAttribute :=
  match index.raw? with
  | some raw => e.slot raw
  | none => []

def put (e : Entity) (raw : UInt32) (v : Attribute) : Entity :=
  e.setSlot raw (KeyedList.put NativeAttribute.key (.ofAttribute v) (e.slot raw))

def erase (e : Entity) (raw : UInt32) (key : Key) : Entity :=
  e.setSlot raw (KeyedList.erase NativeAttribute.key key.native (e.slot raw))

end Entity

structure Context where
  entities : SlotTable Entity

namespace Context

def empty : Context := ⟨.empty⟩

def entity? (c : Context) (h : Handle) : Option Entity := c.entities.get? h

def contains (c : Context) (h : Handle) : Bool := c.entities.contains h

/-- The handle of the function that a call site was built for. -/
def callee? (c : Context) (h : Handle) : Option Handle :=
  match (c.entity? h).map Entity.role with
  | some (.call callee) | some (.invoke callee) => some callee
  | _ => none

/-- The name of a function, or of the function that a call site calls. -/
def functionName? (c : Context) (h : Handle) : Option String :=
  match (c.entity? h).map Entity.role with
  | some (.function name _) => some name
  | some (.call callee) | some (.invoke callee) =>
      match (c.entity? callee).map Entity.role with
      | some (.function name _) => some name
      | _ => none
  | none => none

/-- Goes from call sites to their callees until a function is reached; `none`
if the given number of entities was not enough. -/
def countWithin (c : Context) : Nat → Handle → Option (Except Error UInt32)
  | 0, _ => none
  | visits + 1, h =>
      match (c.entity? h).map Entity.role with
      | none => some (.error .deadHandle)
      | some (.function _ count) => some (.ok count)
      | some (.call callee) | some (.invoke callee) => c.countWithin visits callee

/-- No chain of callees is longer than the table and one entity that is gone. -/
def parameterCount (c : Context) (h : Handle) : Except Error UInt32 :=
  (c.countWithin (c.entities.size + 1) h).getD (.error .deadHandle)

def native (c : Context) (h : Handle) (index : Index) : List NativeAttribute :=
  match c.entity? h with
  | some e => e.native index
  | none => []

def attributes (c : Context) (h : Handle) (index : Index) : List Attribute :=
  (c.native h index).filterMap NativeAttribute.toAttribute?

/-- The number of attributes modulo 2^32, those included that cannot be read back. -/
def count (c : Context) (h : Handle) (index : Index) : UInt32 :=
  UInt32.ofNat (c.native h index).length

def find? (c : Context) (h : Handle) (index : Index) (key : Key) : Option Attribute :=
  (KeyedList.find? NativeAttribute.key key.native (c.native h index)).bind
    NativeAttribute.toAttribute?

def update (c : Context) (h : Handle) (f : Entity → Entity) : Context :=
  ⟨c.entities.update f h⟩

def put (c : Context) (h : Handle) (index : Index) (v : Attribute) : Except Error Context :=
  match index.raw? with
  | none => do
      let count ← c.parameterCount h
      throw (.parameterOutOfRange (index.position?.getD 4294967295) count)
  | some raw =>
      if c.contains h then .ok (c.update h (·.put raw v)) else .error .deadHandle

def erase (c : Context) (h : Handle) (index : Index) (key : Key) : Context :=
  match index.raw? with
  | none => c
  | some raw => c.update h (·.erase raw key)

def insert (c : Context) (role : Role) : Context := ⟨c.entities.insert ⟨role, []⟩⟩

def addFunction (name : String) (parameterCount : UInt32) : Step Context Handle := ⟨fun c =>
  let h := c.entities.nextHandle
  ⟨h, c.insert (.function name parameterCount), [.functionAdded name parameterCount h.text]⟩⟩

/-- Only a function that exists can be called. -/
def buildSite (role : Handle → Role) (callee : Handle) : Action Context Handle :=
  ExceptT.mk ⟨fun c =>
    match (c.entity? callee).map Entity.role with
    | some (.function _ _) =>
        let h := c.entities.nextHandle
        ⟨.ok h, c.insert (role callee), [.callSiteAdded h.text callee.text]⟩
    | _ => ⟨.error .deadHandle, c, []⟩⟩

def buildCall (callee : Handle) : Action Context Handle := buildSite Role.call callee

def buildInvoke (callee : Handle) : Action Context Handle := buildSite Role.invoke callee

/-- Removes an entity with all its attributes; false if there is none. -/
def remove (h : Handle) : Step Context Bool := ⟨fun c =>
  if c.contains h then ⟨true, ⟨c.entities.remove h⟩, [.entityRemoved h.text]⟩
  else ⟨false, c, []⟩⟩

/-- Every request but the counts is reported before it is looked at. -/
def store : Store Context Handle where
  entityText := Handle.text
  parameterCount h := ExceptT.mk (Step.read (·.parameterCount h))
  add h index v := ExceptT.mk ⟨fun c =>
    match c.put h index v with
    | .ok changed => ⟨.ok (), changed, [.storeAdds v h.text index]⟩
    | .error e => ⟨.error e, c, [.storeAdds v h.text index]⟩⟩
  remove h index key := ⟨fun c =>
    ⟨(), c.erase h index key, [.storeRemoves key h.text index]⟩⟩
  count h index := Step.read (·.count h index)
  attributes h index := ⟨fun c =>
    ⟨c.attributes h index, c, [.storeLists h.text index]⟩⟩
  find? h index key := ⟨fun c =>
    ⟨c.find? h index key, c, [.storeFinds key h.text index]⟩⟩

def attributeSet (h : Handle) : AttributeSet Context := store.attributeSet h

end Context

end IRAttributes
