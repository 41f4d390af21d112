import Ensemble.Event
import Ensemble.Message.Codec

/-!
# Events and answers as JSON

An event is an object whose member `type` names its kind.
-/

namespace Ensemble

open Json Json.Decode

namespace Event

def fields : Event → List (String × Json)
  | .tokenDelta agent content => [("agent", .text agent), ("content", .text content)]
  | .toolCallStarted agent call => [("agent", .text agent), ("tool_call", call.toJson)]
  | .toolCallResult agent callId name content isError =>
    [("agent", .text agent), ("tool_call_id", .text callId), ("name", .text name),
      ("content", .text content), ("is_error", .bool isError)]
  | .elicitationRequest agent message call =>
    [("agent", .text agent), ("message", .text message), ("tool_call", call.toJson)]
  | .agentSwitched source target => [("from", .text source), ("to", .text target)]
  | .sessionCompacted agent summary => [("agent", .text agent), ("summary", .text summary)]
  | .followUpSuggestions agent suggestions =>
    [("agent", .text agent), ("suggestions", .texts suggestions)]
  | .error message => [("message", .text message)]
  | .cancelled => []
  | .done agent stopReason usage cost =>
    [("agent", .text agent), ("stop_reason", .text stopReason), ("usage", usage.toJson),
      ("cost", .float cost)]

def toJson (e : Event) : Json := .object (("type", .text e.kind) :: e.fields)

def variants : List (String × Decoder Event) := [
  ("token_delta", record "struct variant Event::TokenDelta"
    (tokenDelta <$> .required "agent" text <*> .required "content" text)),
  ("tool_call_started", record "struct variant Event::ToolCallStarted"
    (toolCallStarted <$> .required "agent" text <*> .required "tool_call" ToolCall.decode)),
  ("tool_call_result", record "struct variant Event::ToolCallResult"
    (toolCallResult <$> .required "agent" text <*> .required "tool_call_id" text
      <*> .required "name" text <*> .required "content" text <*> .required "is_error" bool)),
  ("elicitation_request", record "struct variant Event::ElicitationRequest"
    (elicitationRequest <$> .required "agent" text <*> .required "message" text
      <*> .required "tool_call" ToolCall.decode)),
  ("agent_switched", record "struct variant Event::AgentSwitched"
    (agentSwitched <$> .required "from" text <*> .required "to" text)),
  ("session_compacted", record "struct variant Event::SessionCompacted"
    (sessionCompacted <$> .required "agent" text <*> .required "summary" text)),
  ("follow_up_suggestions", record "struct variant Event::FollowUpSuggestions"
    (followUpSuggestions <$> .required "agent" text <*> .required "suggestions" (list text))),
  ("error", record "struct variant Event::Error" (error <$> .required "message" text)),
  ("cancelled", bare cancelled),
  ("done", record "struct variant Event::Done"
    (done <$> .required "agent" text <*> .required "stop_reason" text
      <*> .required "usage" Usage.decode <*> .required "cost" float))]

def decode : Decoder Event := tagged "internally tagged enum Event" "type" variants

end Event

namespace ElicitationAction

def name : ElicitationAction → String
  | .accept => "accept"
  | .decline => "decline"
  | .cancel => "cancel"

def toJson (a : ElicitationAction) : Json := .text a.name

def decode : Decoder ElicitationAction :=
  variant [("accept", .accept), ("decline", .decline), ("cancel", .cancel)]

end ElicitationAction

namespace Answer

def toJson (a : Answer) : Json :=
  .object (("action", a.action.toJson) :: whenSome "content" id a.content)

def decode : Decoder Answer :=
  record "struct ResumeElicitationRequest"
    (Answer.mk <$> .required "action" ElicitationAction.decode <*> .optional "content" any)

end Answer

end Ensemble
