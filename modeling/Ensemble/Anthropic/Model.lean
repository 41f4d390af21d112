import Ensemble.Anthropic.Conversation
import Ensemble.Anthropic.Stream
import Ensemble.Http
import Ensemble.Model.Codec

/-!
# The messages API

A model that sends its requests over a network and reads streamed replies.
-/

namespace Ensemble.Anthropic

open Json

structure Settings where
  apiKey : String
  url : String := "https://api.anthropic.com/v1/messages"
  model : String
  options : Model.Options := {}
  pricing : Option Pricing := none

def version : String := "2023-06-01"

def body (r : Model.Request) : Json :=
  let system := systemBlocks r.messages
  .object ([("model", .text r.model), ("messages", .array ((turns r.messages).map Turn.toJson)),
      ("max_tokens", .word (r.maxTokens.getD Model.defaultMaxTokens)), ("stream", .bool true)]
    ++ (if system.isEmpty then [] else [("system", .array (system.map SystemBlock.toJson))])
    ++ Model.temperatureMember r.temperature
    ++ whenSome "tools" (fun ts => .array (ts.map ToolDefinition.toJson)) r.tools)

def requestOf (s : Settings) (r : Model.Request) : Http.Request where
  url := s.url
  headers := [("x-api-key", s.apiKey), ("anthropic-version", version),
    ("content-type", "application/json")]
  body := (body r).render

/-- How long to wait when there are too many requests, in milliseconds. -/
def retryAfter : Nat := 60000

def contains (part : List Char) : List Char → Bool
  | [] => part.isEmpty
  | c :: rest => part.isPrefixOf (c :: rest) || contains part rest

def failure (status : Nat) (text : String) : ModelError :=
  if status = 401 then .authFailed text
  else if status = 429 then .rateLimited retryAfter
  else if status = 400 ∧ contains "prompt is too long".toList text.toList then .contextOverflow text
  else .requestFailed (Http.statusText status ++ ": " ++ text)

def endSteps : Http.Ending → List Model.Step
  | .complete => []
  | .broken message => [.item (.error (.stream message)) false]
  | .silent => [.wait none]

def steps (r : Http.Response) : Except ModelError (List Model.Step) :=
  if Http.isSuccess r.status then
    .ok ((items r.chunks).map (Model.Step.item · false) ++ endSteps r.ending)
  else .error (failure r.status r.text)

/-- A model behind a network. Nothing is sent once cancellation was requested. -/
def model {σ : Type} (s : Settings) (network : Http.Network σ) : Model σ where
  name := "anthropic"
  model := s.model
  options := s.options
  pricing := s.pricing
  complete cancelled request world :=
    if cancelled then (.error .cancelled, world)
    else
      match network (requestOf s request) world with
      | (.error message, world) => (.error (.network message), world)
      | (.ok response, world) => (steps response, world)

end Ensemble.Anthropic
