import Ensemble.Run.Basic

/-!
# Taking in a reply

The deltas of a reply are put together to a text and a list of calls. A fragment of arguments
belongs to the latest call with its identifier. Whoever takes a reply in for an agent looks for
cancellation before each step.
-/

namespace Ensemble

structure Assembly where
  text : String := ""
  calls : List ToolCall := []
  stopReason : Option String := none
  usage : Option Usage := none
deriving DecidableEq

inductive Interruption where
  | cancelled
  | failed (e : ModelError)
  /-- The provider reported an error as part of the reply. -/
  | reported (message : String)
deriving DecidableEq

namespace Assembly

/-- Appends a fragment to the latest call with this identifier. -/
def extendCall (id fragment : String) (calls : List ToolCall) : List ToolCall :=
  match calls with
  | [] => []
  | c :: rest =>
    if rest.any (·.id == id) then c :: extendCall id fragment rest
    else if c.id = id then { c with arguments := c.arguments ++ fragment } :: rest
    else c :: rest

def take (a : Assembly) : Model.Delta → Except Interruption Assembly
  | .text t => .ok { a with text := a.text ++ t }
  | .thinking _ => .ok a
  | .callStart id name => .ok { a with calls := a.calls ++ [⟨id, name, ""⟩] }
  | .callDelta id arguments => .ok { a with calls := extendCall id arguments a.calls }
  | .callEnd _ => .ok a
  | .done stopReason usage => .ok { a with stopReason, usage }
  | .error message => .error (.reported message)

/-- The reason to stop when the provider gives none. -/
def reason (a : Assembly) : String :=
  a.stopReason.getD (if a.calls.isEmpty then "end_turn" else "tool_use")

end Assembly

def Interruption.ofError : ModelError → Interruption
  | .cancelled => .cancelled
  | e => .failed e

def Interruption.outcome (provider : String) : Interruption → Outcome
  | .cancelled => .cancelled
  | .failed e => .failed (e.toError provider).message
  | .reported message => .failed (Error.modelFailed provider message).message

structure Intake where
  assembly : Assembly := {}
  cancel : Cancellation
  pieces : List String := []
  interruption : Option Interruption := none

namespace Intake

def stop (i : Intake) (why : Interruption) : Intake := { i with interruption := some why }

def textOf? : Model.Delta → Option String
  | .text t => some t
  | _ => none

/-- Takes in one delta, or stops at it. -/
def take (i : Intake) (d : Model.Delta) : Except Interruption Intake :=
  (i.assembly.take d).map fun a =>
    { i with assembly := a, pieces := i.pieces ++ (textOf? d).toList }

def look (i : Intake) : Intake := { i with cancel := i.cancel.look }

def read (i : Intake) : List Model.Step → Intake
  | [] =>
    let i := i.look
    if i.cancel.requested then i.stop .cancelled else i
  | step :: rest =>
    let i := i.look
    if i.cancel.requested then i.stop .cancelled
    else
      match step with
      | .item (.ok d) cancels =>
        match i.take d with
        | .ok i => read { i with cancel := i.cancel.request cancels } rest
        | .error why => i.stop why
      | .item (.error e) _ => i.stop (.ofError e)
      | .checked d =>
        match i.take d with
        | .ok i => read i rest
        | .error why => i.stop why
      | .wait time => read { i with cancel := i.cancel.wait time } rest

end Intake

end Ensemble
