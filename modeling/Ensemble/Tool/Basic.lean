import Ensemble.Cancellation
import Ensemble.Model.Basic

/-!
# Tools

A tool takes JSON arguments and answers with a text, in a world it may change. Tools come in sets
that share state and may add to the instructions of the agents that hold them.
-/

namespace Ensemble

inductive ToolResult where
  | text (content : String)
  | error (content : String)
deriving DecidableEq

namespace ToolResult

def content : ToolResult → String
  | .text s => s
  | .error s => s

def isError : ToolResult → Bool
  | .text _ => false
  | .error _ => true

end ToolResult

/-- What an execution came to, and whether it requested the cancellation of the run. -/
structure ToolReply where
  result : Except ToolError ToolResult
  cancels : Bool := false

structure Tool (σ : Type) where
  name : String
  category : String := "general"
  title : String := name
  description : String
  inputSchema : Json
  outputSchema : Json := .object [("type", .text "string")]
  readOnly : Bool := false
  /-- Each call needs the user's consent, unless the session has given it for all. -/
  requiresApproval : Bool := !readOnly
  /-- The arguments, whether cancellation was requested already, and the world. -/
  execute : Json → Bool → σ → ToolReply × σ

namespace Tool

def definition {σ : Type} (t : Tool σ) : ToolDefinition := ⟨t.name, t.description, t.inputSchema⟩

def readArguments (decode : Json.Decoder α) (arguments : Json) : Except ToolError α :=
  match Json.Decode.ofValue decode arguments with
  | .ok a => .ok a
  | .error e => .error ⟨e.message⟩

end Tool

structure ToolSet (σ : Type) where
  /-- Tells instances apart. -/
  key : Nat
  instructions : Option String := none
  tools : List (Tool σ)
  start : σ → Except Error Unit × σ := fun world => (.ok (), world)
  stop : σ → Except Error Unit × σ := fun world => (.ok (), world)

end Ensemble
