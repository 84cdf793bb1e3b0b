import IRAttributes.Reference

/-!
Requests as data. Everything that can be asked of a set, of a collection and of
a store is a value here, and so is every answer, so that a whole history of
requests can be written down, carried out and compared.
-/
namespace IRAttributes

inductive Answer
  | done
  | truth (b : Bool)
  | text (s : String)
  | number (n : Nat)
  | count (n : Option UInt32)
  | payload (n : UInt64)
  | index (index : Index)
  | found (v : Option Attribute)
  | list (vs : List Attribute)
  | summary (s : Summary)
  deriving DecidableEq

inductive SetRequest
  | summary (index : Index)
  | parameterSummary (position : UInt32)
  | parameterCount
  | addKind (index : Index) (kind : Kind)
  | addKinds (index : Index) (kinds : List Kind)
  | addPayload (index : Index) (kind : Kind) (payload : UInt64)
  | add (index : Index) (v : Attribute)
  | addAll (index : Index) (vs : List Attribute)
  | remove (index : Index) (key : Key)
  | has (index : Index) (key : Key)
  | hasAny (index : Index)
  | text (index : Index)
  | payload (index : Index) (kind : Kind)
  deriving DecidableEq

inductive CollectionRequest
  | summary
  | index
  | find (key : Key)
  | attributes
  | size
  | isEmpty
  | has (key : Key)
  | text
  | add (v : Attribute)
  | addKind (kind : Kind)
  | addPayload (kind : Kind) (payload : UInt64)
  | addNamed (name value : String)
  | removeLike (v : Attribute)
  | remove (key : Key)
  deriving DecidableEq

inductive StoreRequest
  | parameterCount
  | createKind (kind : Kind)
  | createPayload (kind : Kind) (payload : UInt64)
  | createNamed (name value : String)
  | add (index : Index) (v : Attribute)
  | remove (index : Index) (key : Key)
  | count (index : Index)
  | attributes (index : Index)
  | find (index : Index) (key : Key)
  deriving DecidableEq

variable {σ : Type}

def SetRequest.run (S : AttributeSet σ) : SetRequest → Action σ Answer
  | .summary index => return .summary (← S.summary index)
  | .parameterSummary position => return .summary (← S.parameterSummary position)
  | .parameterCount => return .count (← S.parameterCount)
  | .addKind index kind => do S.addKind index kind; return .done
  | .addKinds index kinds => do S.addKinds index kinds; return .done
  | .addPayload index kind n => do S.addPayload index kind n; return .done
  | .add index v => do S.add index v; return .done
  | .addAll index vs => do S.addAll index vs; return .done
  | .remove index key => do S.remove index key; return .done
  | .has index key => return .truth (← S.has index key)
  | .hasAny index => return .truth (← S.hasAny index)
  | .text index => return .text (← S.text index)
  | .payload index kind => return .payload (← S.payload index kind)

def CollectionRequest.run (c : Collection σ) : CollectionRequest → Action σ Answer
  | .summary => return .summary (← c.summary)
  | .index => return .index (← Action.read c.index)
  | .find key => return .found (← c.find? key)
  | .attributes => return .list (← c.attributes)
  | .size => return .number (← c.size)
  | .isEmpty => return .truth (← c.isEmpty)
  | .has key => return .truth (← c.has key)
  | .text => return .text (← c.text)
  | .add v => do c.add v; return .done
  | .addKind kind => do c.addKind kind; return .done
  | .addPayload kind n => do c.addPayload kind n; return .done
  | .addNamed name value => do c.addNamed name value; return .done
  | .removeLike v => do c.removeLike v; return .done
  | .remove key => do c.remove key; return .done

/-- Creating an attribute leaves the store alone. -/
def StoreRequest.run {H : Type} (store : Store σ H) (entity : H) :
    StoreRequest → Action σ Answer
  | .parameterCount => return .count (some (← store.parameterCount entity))
  | .createKind kind => return .found (some (← Action.ofExcept (Attribute.ofKind kind)))
  | .createPayload kind n =>
      return .found (some (← Action.ofExcept (Attribute.ofPayload kind n)))
  | .createNamed name value =>
      return .found (some (← Action.ofExcept (Attribute.ofName name value)))
  | .add index v => do store.add entity index v; return .done
  | .remove index key => do store.remove entity index key; return .done
  | .count index => return .number (← store.count entity index).toNat
  | .attributes index => return .list (← store.attributes entity index)
  | .find index key => return .found (← store.find? entity index key)

end IRAttributes
