import Ensemble.Message

/-!
# Events of a run

A run reports what it does as a list of events. It ends with exactly one of `done`, `error`,
`cancelled` and `elicitationRequest`; the last one suspends it until the user has answered.
-/

namespace Ensemble

inductive Event where
  | tokenDelta (agent content : String)
  | toolCallStarted (agent : String) (call : ToolCall)
  | toolCallResult (agent callId name content : String) (isError : Bool)
  | elicitationRequest (agent message : String) (call : ToolCall)
  | agentSwitched (source target : String)
  | sessionCompacted (agent summary : String)
  | followUpSuggestions (agent : String) (suggestions : List String)
  | error (message : String)
  | cancelled
  | done (agent stopReason : String) (usage : Usage) (cost : Float)

namespace Event

def kind : Event → String
  | .tokenDelta .. => "token_delta"
  | .toolCallStarted .. => "tool_call_started"
  | .toolCallResult .. => "tool_call_result"
  | .elicitationRequest .. => "elicitation_request"
  | .agentSwitched .. => "agent_switched"
  | .sessionCompacted .. => "session_compacted"
  | .followUpSuggestions .. => "follow_up_suggestions"
  | .error .. => "error"
  | .cancelled => "cancelled"
  | .done .. => "done"

def isTerminal : Event → Bool
  | .done .. | .error .. | .cancelled | .elicitationRequest .. => true
  | _ => false

def resultOf (agent : String) (call : ToolCall) (content : String) (isError : Bool) : Event :=
  .toolCallResult agent call.id call.name content isError

end Event

inductive ElicitationAction where
  | accept
  | decline
  | cancel
deriving DecidableEq

structure Answer where
  action : ElicitationAction
  content : Option Json := none

namespace Answer

def accept : Answer := ⟨.accept, none⟩

def acceptForSession : Answer := ⟨.accept, some (.object [("approve_session", .bool true)])⟩

def decline : Answer := ⟨.decline, none⟩

def cancel : Answer := ⟨.cancel, none⟩

def approvesSession (a : Answer) : Bool :=
  a.action == .accept && ((a.content.bind (Json.get? "approve_session")).bind Json.bool?).getD false

/-- What the user typed at a prompt. Anything else is no answer. -/
def parse? (input : String) : Option Answer :=
  match String.ofList ((Text.trim input).toList.map Char.toLower) with
  | "" | "y" | "yes" => some accept
  | "a" | "always" => some acceptForSession
  | "n" | "no" => some decline
  | "c" | "cancel" => some cancel
  | _ => none

end Answer

end Ensemble
