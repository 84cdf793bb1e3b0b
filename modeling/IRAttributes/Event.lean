import IRAttributes.Attribute

/-!
What gets reported while attributes are changed. Changes of the entities and
replacements are reported for debugging; every request that a view passes on,
and every request that reaches the context's own storage, is traced.
-/
namespace IRAttributes

inductive Event
  | functionAdded (name : String) (parameterCount : UInt32) (entity : String)
  | callSiteAdded (entity callee : String)
  | entityRemoved (entity : String)
  | replaced (old new : Attribute) (index : Index)
  | viewAdds (v : Attribute) (entity : String) (index : Index)
  | viewRemoves (key : Key) (entity : String) (index : Index)
  | storeAdds (v : Attribute) (entity : String) (index : Index)
  | storeRemoves (key : Key) (entity : String) (index : Index)
  | storeLists (entity : String) (index : Index)
  | storeFinds (key : Key) (entity : String) (index : Index)
  deriving DecidableEq

/-- A kind stands between backquotes, a name between quotes. -/
def Key.quoted : Key → String
  | .kind k => s!"`{k.spelling}`"
  | .name s => s!"\"{s}\""

namespace Event

def level : Event → String
  | .functionAdded .. | .callSiteAdded .. | .entityRemoved .. | .replaced .. => "DEBUG"
  | _ => "TRACE"

def message : Event → String
  | .functionAdded name parameterCount entity =>
      s!"added function `{name}` ({parameterCount} parameters) as {entity}"
  | .callSiteAdded entity callee => s!"added call site {entity} of {callee}"
  | .entityRemoved entity => s!"removed {entity}"
  | .replaced old new index =>
      s!"replacing `{old.text}` with `{new.text}` on the {index.text} index"
  | .viewAdds v entity index => s!"add `{v.text}` to {entity} at the {index.text} index"
  | .viewRemoves key entity index =>
      s!"remove {key.quoted} from {entity} at the {index.text} index"
  | .storeAdds v entity index =>
      s!"store: add `{v.text}` to {entity} at the {index.text} index"
  | .storeRemoves key entity index =>
      s!"store: remove {key.quoted} from {entity} at the {index.text} index"
  | .storeLists entity index =>
      s!"store: get attributes of {entity} at the {index.text} index"
  | .storeFinds key entity index =>
      s!"store: get {key.quoted} of {entity} at the {index.text} index"

def line (e : Event) : String := e.level ++ " " ++ e.message

end Event

end IRAttributes
