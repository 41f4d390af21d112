import Ensemble.Text.Blank
import Ensemble.Usage

/-!
# Messages

One entry of a conversation, as models and agents exchange it.
-/

namespace Ensemble

inductive Role where
  | system
  | user
  | assistant
  | tool
deriving DecidableEq

/-- A call of a tool by a model; the arguments are the text the model wrote. -/
structure ToolCall where
  id : String
  name : String
  arguments : String
deriving DecidableEq

structure Message where
  role : Role
  content : String
  toolCalls : Option (List ToolCall) := none
  toolCallId : Option String := none
  usage : Option Usage := none
  cost : Option Float := none
  model : Option String := none
  /-- Ends a stretch of the conversation that a provider may keep in its cache. -/
  checkpoint : Bool := false

namespace Message

def system (content : String) : Message := { role := .system, content }

def user (content : String) : Message := { role := .user, content }

/-- Without calls there is no list of calls. -/
def assistant (content : String) (calls : List ToolCall := []) : Message :=
  { role := .assistant, content, toolCalls := if calls.isEmpty then none else some calls }

def toolResult (id content : String) : Message := { role := .tool, content, toolCallId := some id }

def calls (m : Message) : List ToolCall := m.toolCalls.getD []

end Message

namespace ToolCall

def readArguments (c : ToolCall) : Except Json.Error Json := Json.parse c.arguments

/-- Blank arguments stand for an empty object. -/
def parseArguments (c : ToolCall) : Except Json.Error Json :=
  if Text.isBlankText c.arguments then .ok (.object []) else c.readArguments

end ToolCall

end Ensemble
