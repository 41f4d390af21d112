import Ensemble.Message.Codec
import Ensemble.Model.Basic

/-!
# Requests and options as JSON
-/

namespace Ensemble

open Json Json.Decode

def Json.word (n : UInt32) : Json := .nat n.toNat

namespace ToolDefinition

def toJson (t : ToolDefinition) : Json :=
  .object [("name", .text t.name), ("description", .text t.description),
    ("input_schema", t.inputSchema)]

/-- `what` is what the definition is called when something else stands in its place. -/
def decodeAs (what : String) : Decoder ToolDefinition :=
  record what (ToolDefinition.mk <$> .required "name" text <*> .required "description" text
    <*> .required "input_schema" any)

def decode : Decoder ToolDefinition := decodeAs "struct ToolDefinition"

end ToolDefinition

namespace Model

/-- A member for a temperature, which has 32 bits only. -/
def temperatureMember (t : Option Float32) : List (String × Json) :=
  whenSome "temperature" (fun x => .number (.float32 x)) t

def Options.toJson (o : Options) : Json :=
  .object (whenSome "max_tokens" .word o.maxTokens ++ temperatureMember o.temperature
    ++ whenSome "structured_output" id o.structuredOutput)

def Options.decode : Decoder Options :=
  record "struct ModelOptions" (Options.mk <$> .nullable "max_tokens" word32
    <*> .nullable "temperature" float32 <*> .nullable "structured_output" any)

def Request.toJson (r : Request) : Json :=
  .object ([("model", .text r.model), ("messages", .array (r.messages.map Message.toJson))]
    ++ whenSome "tools" (fun ts => .array (ts.map ToolDefinition.toJson)) r.tools
    ++ whenSome "max_tokens" .word r.maxTokens ++ temperatureMember r.temperature)

end Model

end Ensemble
