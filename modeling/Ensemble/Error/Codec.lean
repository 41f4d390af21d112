import Ensemble.Error
import Ensemble.Json.Access

/-!
# Errors as JSON

An error is shown as its kind and its message.
-/

namespace Ensemble

namespace Error

def kind : Error → String
  | .invalidArguments .. => "InvalidArguments"
  | .invalidRequest _ => "InvalidRequest"
  | .sessionNotFound _ => "SessionNotFound"
  | .agentNotFound _ => "AgentNotFound"
  | .noPendingElicitation _ => "NoPendingElicitation"
  | .sessionBusy _ => "SessionBusy"
  | .modelFailed .. => "LlmError"
  | .toolFailed .. => "ToolError"
  | .config _ => "ConfigError"
  | .io _ => "IoError"
  | .json _ => "JsonError"
  | .internal _ => "Internal"

def toJson (e : Error) : Json := .object [("error", .text e.kind), ("message", .text e.message)]

def ofKind (kind name text : String) : Error :=
  match kind with
  | "InvalidArguments" => .invalidArguments name text
  | "InvalidRequest" => .invalidRequest text
  | "SessionNotFound" => .sessionNotFound text
  | "AgentNotFound" => .agentNotFound text
  | "NoPendingElicitation" => .noPendingElicitation text
  | "SessionBusy" => .sessionBusy text
  | "LlmError" => .modelFailed name text
  | "ToolError" => .toolFailed name text
  | "ConfigError" => .config text
  | "IoError" => .io text
  | "JsonError" =>
    match Json.parse text with
    | .error e => .json e
    | .ok _ => .internal text
  | _ => .internal text

end Error

namespace ModelError

def kind : ModelError → String
  | .requestFailed _ => "RequestFailed"
  | .authFailed _ => "AuthFailed"
  | .rateLimited _ => "RateLimited"
  | .contextOverflow _ => "ContextOverflow"
  | .invalidResponse _ => "InvalidResponse"
  | .stream _ => "StreamError"
  | .cancelled => "Cancelled"
  | .network _ => "NetworkError"

/-- What a network failure says depends on the network, and is left out. -/
def toJson : ModelError → Json
  | .network message => .object [("error", .text (kind (.network message)))]
  | e => .object [("error", .text e.kind), ("message", .text e.message)]

def ofJson (j : Json) : ModelError :=
  let text := j.textAt "text"
  match j.textAt "kind" with
  | "RequestFailed" => .requestFailed text
  | "AuthFailed" => .authFailed text
  | "RateLimited" => .rateLimited (j.natAt "retry_after_ms")
  | "ContextOverflow" => .contextOverflow text
  | "InvalidResponse" => .invalidResponse text
  | "StreamError" => .stream text
  | "NetworkError" => .network text
  | _ => .cancelled

end ModelError

def ToolError.toJson (e : ToolError) : Json :=
  .object [("error", .text "InvalidArguments"), ("message", .text e.message)]

namespace Json.Error

def categoryWord (e : Error) : String :=
  match e.category with
  | .syntactic => "syntax"
  | .endOfText => "eof"
  | .data => "data"

/-- Only of unfit data is told what is wrong; the wording of the rest depends on the position. -/
def toJson (e : Error) : Json :=
  .object ([("error", .text "json"), ("category", .text e.categoryWord)]
    ++ if e.category = .data then [("message", .text e.message)] else [])

end Json.Error

end Ensemble
