import Ensemble.Json.Error

/-!
# Errors

Why a request to the library, a model or a tool fails. The wording of each cause is in `message`.
-/

namespace Ensemble

inductive Error where
  | invalidArguments (tool message : String)
  | invalidRequest (message : String)
  | sessionNotFound (id : String)
  | agentNotFound (name : String)
  | noPendingElicitation (session : String)
  | sessionBusy (session : String)
  | modelFailed (provider message : String)
  | toolFailed (name message : String)
  | config (message : String)
  | io (message : String)
  | json (e : Json.Error)
  | internal (message : String)

namespace Error

def message : Error → String
  | .invalidArguments tool message => s!"invalid arguments for tool {tool}: {message}"
  | .invalidRequest message => "invalid request: " ++ message
  | .sessionNotFound id => "session not found: " ++ id
  | .agentNotFound name => "agent not found: " ++ name
  | .noPendingElicitation session => "no pending elicitation for session " ++ session
  | .sessionBusy session => s!"session {session} already has an active run"
  | .modelFailed provider message => s!"llm error: {provider} - {message}"
  | .toolFailed name message => s!"tool error: {name} - {message}"
  | .config message => "config error: " ++ message
  | .io message => "io error: " ++ message
  | .json e => "json error: " ++ e.message
  | .internal message => "internal error: " ++ message

/-- The caller asked for something it may not have. -/
def isClientError : Error → Bool
  | .invalidArguments .. | .invalidRequest .. | .sessionNotFound .. | .agentNotFound ..
  | .noPendingElicitation .. | .sessionBusy .. => true
  | _ => false

end Error

inductive ModelError where
  | requestFailed (message : String)
  | authFailed (message : String)
  | rateLimited (retryAfter : Nat)
  | contextOverflow (message : String)
  | invalidResponse (message : String)
  | stream (message : String)
  | cancelled
  | network (message : String)
deriving DecidableEq

namespace ModelError

def message : ModelError → String
  | .requestFailed message => "request failed: " ++ message
  | .authFailed message => "authentication failed: " ++ message
  | .rateLimited retryAfter => s!"rate limited: retry after {retryAfter}ms"
  | .contextOverflow message => "context overflow: " ++ message
  | .invalidResponse message => "invalid response: " ++ message
  | .stream message => "stream error: " ++ message
  | .cancelled => "cancelled"
  | .network message => "network error: " ++ message

def toError (e : ModelError) (provider : String) : Error := .modelFailed provider e.message

end ModelError

/-- A tool refuses its arguments. Whatever goes wrong while it runs is part of its result. -/
structure ToolError where
  text : String
deriving DecidableEq

namespace ToolError

def message (e : ToolError) : String := "invalid arguments: " ++ e.text

def toError (e : ToolError) (tool : String) : Error := .invalidArguments tool e.text

end ToolError

end Ensemble
