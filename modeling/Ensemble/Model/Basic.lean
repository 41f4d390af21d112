import Ensemble.Cancellation
import Ensemble.Error
import Ensemble.Message

/-!
# Models

A model answers a request with a stream of steps. What a model does may depend on the world it
lives in, which is any type: scripts, recorded replies and servers are worlds.
-/

namespace Ensemble

structure ToolDefinition where
  name : String
  description : String
  inputSchema : Json

namespace Model

structure Options where
  maxTokens : Option UInt32 := none
  temperature : Option Float32 := none
  structuredOutput : Option Json := none

structure Request where
  model : String
  messages : List Message
  tools : Option (List ToolDefinition) := none
  maxTokens : Option UInt32 := none
  temperature : Option Float32 := none

def defaultMaxTokens : UInt32 := 8192

def Request.default : Request :=
  { model := "claude-sonnet-4-5", messages := [], maxTokens := some defaultMaxTokens }

def Request.of (model : String) (messages : List Message) (options : Options) : Request :=
  { model, messages, maxTokens := options.maxTokens.or (some defaultMaxTokens)
    temperature := options.temperature }

/-- An empty list of tools is no list of tools. -/
def Request.withTools (r : Request) (tools : List ToolDefinition) : Request :=
  if tools.isEmpty then r else { r with tools := some tools }

inductive Delta where
  | text (text : String)
  | thinking (text : String)
  | callStart (id name : String)
  | callDelta (id arguments : String)
  | callEnd (id : String)
  | done (stopReason : Option String) (usage : Option Usage)
  | error (message : String)

inductive Step where
  /-- Delivered in any case; `cancels` requests the cancellation of the run meanwhile. -/
  | item (delta : Except ModelError Delta) (cancels : Bool)
  /-- Delivered unless cancellation was requested before; then the reply breaks off. -/
  | checked (delta : Delta)
  /-- A pause, or without a time one without end; cancellation breaks the reply off. -/
  | wait (time : Option Nat)

end Model

structure Model (σ : Type) where
  name : String
  /-- The model that requests are sent to. -/
  model : String
  options : Model.Options
  pricing : Option Pricing
  /-- Whether cancellation was requested already, the request, and the world before and after. -/
  complete : Bool → Model.Request → σ → Except ModelError (List Model.Step) × σ

namespace Model

def withOptions {σ : Type} (m : Model σ) (options : Options) : Model σ := { m with options }

def costOf {σ : Type} (m : Model σ) (u : Usage) : Float :=
  match m.pricing with
  | some p => p.cost u
  | none => 0

/-- All that a reply delivers to someone who takes everything, with the cancellation at its end. -/
def deliver (c : Cancellation) : List Step → List (Except ModelError Delta) × Cancellation
  | [] => ([], c)
  | .item delta cancels :: rest =>
    let (items, c) := deliver (c.request cancels) rest
    (delta :: items, c)
  | .checked delta :: rest =>
    if c.requested then ([.error .cancelled], c)
    else
      let (items, c) := deliver c rest
      (.ok delta :: items, c)
  | .wait time :: rest =>
    let c := c.wait time
    if c.requested then ([.error .cancelled], c) else deliver c rest

end Model

end Ensemble
