import IRAttributes.KeyedList
import IRAttributes.RecordedStore

/-!
A store that checks nothing. Every entity has the same number of parameters,
or none exists, and every attribute is taken for every entity all the same. A
new attribute goes to the end; the one that had its key is dropped.
-/
namespace IRAttributes

structure OpenStore where
  /-- The number of parameters of every entity, or that none exists. -/
  parameterCount : Option UInt32
  slots : List ((UInt32 × Index) × List Attribute)

namespace OpenStore

def attributes (s : OpenStore) (entity : UInt32) (index : Index) : List Attribute :=
  ((KeyedList.find? Prod.fst (entity, index) s.slots).map Prod.snd).getD []

def setAttributes (entity : UInt32) (index : Index) (vs : List Attribute) (s : OpenStore) :
    OpenStore :=
  ⟨s.parameterCount, KeyedList.put Prod.fst ((entity, index), vs) s.slots⟩

def erase (entity : UInt32) (index : Index) (key : Key) (s : OpenStore) : OpenStore :=
  s.setAttributes entity index (KeyedList.erase Attribute.key key (s.attributes entity index))

def add (entity : UInt32) (index : Index) (v : Attribute) (s : OpenStore) : OpenStore :=
  s.setAttributes entity index
    (KeyedList.erase Attribute.key v.key (s.attributes entity index) ++ [v])

def store : Store OpenStore UInt32 where
  entityText entity := toString entity
  parameterCount _ := ExceptT.mk <| Step.read fun s =>
    match s.parameterCount with
    | some count => .ok count
    | none => .error .deadHandle
  add entity index v := ExceptT.lift (Step.modify (add entity index v))
  remove entity index key := Step.modify (erase entity index key)
  count entity index := Step.read fun s => UInt32.ofNat (s.attributes entity index).length
  attributes entity index := Step.read (·.attributes entity index)
  find? entity index key := Step.read fun s =>
    KeyedList.find? Attribute.key key (s.attributes entity index)

end OpenStore

/-- An open store that is recorded. -/
abbrev Recorder : Type := Recorded OpenStore UInt32

def Recorder.empty (parameterCount : Option UInt32) : Recorder := ⟨⟨parameterCount, []⟩, []⟩

def Recorder.recording : Store Recorder UInt32 := OpenStore.store.recorded

end IRAttributes
