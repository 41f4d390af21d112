import Ensemble.Error.Codec
import Ensemble.Model.Codec
import Ensemble.Model.Scripted

/-!
# Recorded replies

A script, a recording and the pieces of a reply in JSON. A model that plays a recording delivers
exactly the pieces of one turn after the other, and behind the last nothing at all.
-/

namespace Ensemble.Model

open Json

namespace Delta

def toJson : Delta → Json
  | .text t => .object [("t", .text "text"), ("text", .text t)]
  | .thinking t => .object [("t", .text "thinking"), ("text", .text t)]
  | .callStart id name => .object [("t", .text "start"), ("id", .text id), ("name", .text name)]
  | .callDelta id arguments =>
    .object [("t", .text "delta"), ("id", .text id), ("arguments", .text arguments)]
  | .callEnd id => .object [("t", .text "end"), ("id", .text id)]
  | .done reason usage =>
    .object [("t", .text "done"), ("stop_reason", .orNull .text reason),
      ("usage", .orNull Usage.toJson usage)]
  | .error message => .object [("t", .text "error"), ("text", .text message)]

/-- A piece of a reply, or why it breaks off. -/
def ofJson (j : Json) : Except ModelError Delta :=
  let id := j.textAt "id"
  match j.textAt "t" with
  | "text" => .ok (.text (j.textAt "text"))
  | "thinking" => .ok (.thinking (j.textAt "text"))
  | "start" => .ok (.callStart id (j.textAt "name"))
  | "delta" => .ok (.callDelta id (j.textAt "arguments"))
  | "end" => .ok (.callEnd id)
  | "done" => .ok (.done (j.textAt? "stop_reason") (j.typedAt? Usage.decode "usage"))
  | "err" => .error (.ofJson j)
  | _ => .ok (.error (j.textAt "text"))

end Delta

def itemToJson : Except ModelError Delta → Json
  | .ok d => d.toJson
  | .error e => e.toJson

def replyToJson (c : Cancellation) : Except ModelError (List Step) → Json
  | .ok steps => .object [("deltas", .array ((deliver c steps).1.map itemToJson))]
  | .error e => e.toJson

def Step.ofJson (j : Json) : Step := .item (Delta.ofJson j) (j.flagAt "cancel")

abbrev Turn := Except ModelError (List Step)

def Turn.ofJson (j : Json) : Turn :=
  match j.given? "fail" with
  | some e => .error (.ofJson e)
  | none => .ok ((j.itemsAt "deltas").map Step.ofJson)

structure Playback where
  turns : List Turn
  requests : List Request := []

/-- The request is logged, and the next turn is played. -/
def Playback.answer (p : Playback) (request : Request) : Turn × Playback :=
  (p.turns.head?.getD (.ok []), { turns := p.turns.tail, requests := p.requests ++ [request] })

def played {σ : Type} (name model : String) (options : Options) (pricing : Option Pricing)
    (part : Part σ Playback) : Model σ where
  name := name
  model := model
  options := options
  pricing := pricing
  complete _ request world :=
    let (turn, playback) := (part.get world).answer request
    (turn, part.set playback world)

/-! ## Scripts -/

def callsOf (j : Json) : List (String × Json) :=
  (j.itemsAt "calls").map fun c => (c.textAt "name", (c.get? "args").getD .null)

def Reply.ofJson (j : Json) : Reply :=
  let text := j.textAt "text"
  match j.textAt "r" with
  | "calls" => .calls (callsOf j)
  | "text_calls" => .textThenCalls text (callsOf j)
  | "raw" => .rawCall (j.textAt "name") (j.textAt "arguments")
  | "error" => .error text
  | "fail_after" => .failAfter text (j.textAt "error")
  | "delayed" => .delayed (j.natAt "ms") text
  | "hang" => .hang
  | _ => .text text

def optionsAt (j : Json) (name : String) : Options := (j.typedAt? Options.decode name).getD {}

def ScriptedSettings.ofJson (j : Json) : ScriptedSettings where
  model := j.textAt "model" "scripted"
  options := optionsAt j "options"
  usage := (j.typedAt? Usage.decode "usage").getD ⟨10, 5, 0, 0⟩
  pricing := j.typedAt? Pricing.decode "pricing"

end Ensemble.Model
