import Ensemble.Message

/-!
# Messages as JSON

Fields are written in the order they are declared, and those that are not set are left out.
-/

namespace Ensemble

open Json Json.Decode

/-- A member that is left out when there is nothing to say. -/
def Json.whenSome (name : String) (f : α → Json) : Option α → List (String × Json)
  | some a => [(name, f a)]
  | none => []

def Json.whenTrue (name : String) (b : Bool) : List (String × Json) :=
  if b then [(name, .bool true)] else []

namespace Role

def name : Role → String
  | .system => "system"
  | .user => "user"
  | .assistant => "assistant"
  | .tool => "tool"

def toJson (r : Role) : Json := .text r.name

def decode : Decoder Role :=
  variant [("system", .system), ("user", .user), ("assistant", .assistant), ("tool", .tool)]

end Role

namespace ToolCall

def toJson (c : ToolCall) : Json :=
  .object [("id", .text c.id), ("name", .text c.name), ("arguments", .text c.arguments)]

def decode : Decoder ToolCall :=
  record "struct ToolCall" (ToolCall.mk <$> .required "id" text <*> .required "name" text
    <*> .required "arguments" text)

end ToolCall

namespace Message

def toJson (m : Message) : Json :=
  .object ([("role", m.role.toJson), ("content", .text m.content)]
    ++ whenSome "tool_calls" (fun cs => .array (cs.map ToolCall.toJson)) m.toolCalls
    ++ whenSome "tool_call_id" .text m.toolCallId
    ++ whenSome "usage" Usage.toJson m.usage
    ++ whenSome "cost" .float m.cost
    ++ whenSome "model" .text m.model
    ++ whenTrue "cache_checkpoint" m.checkpoint)

def decode : Decoder Message :=
  record "struct Message" (Message.mk <$> .required "role" Role.decode
    <*> .required "content" text
    <*> .nullable "tool_calls" (list ToolCall.decode)
    <*> .nullable "tool_call_id" text
    <*> .optional "usage" Usage.decode
    <*> .optional "cost" float
    <*> .optional "model" text
    <*> .defaulted "cache_checkpoint" false bool)

end Message

end Ensemble
