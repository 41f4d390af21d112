import Ensemble.Json.Printer
import Ensemble.Model.Basic
import Ensemble.Part

/-!
# Scripted models

A scripted model takes the next reply off a script. Every model with the same script, whatever
its options, takes from it and adds to its log of requests.
-/

namespace Ensemble

namespace Model

inductive Reply where
  | text (text : String)
  | calls (calls : List (String × Json))
  | textThenCalls (text : String) (calls : List (String × Json))
  /-- A call whose argument text is passed on as it is. -/
  | rawCall (name arguments : String)
  /-- The request is refused. -/
  | error (message : String)
  /-- The reply breaks off after its text. -/
  | failAfter (text error : String)
  | delayed (time : Nat) (text : String)
  /-- No reply until it is cancelled. -/
  | hang

structure Script where
  replies : List Reply
  requests : List Request := []
  /-- Number of calls that have got an identifier. -/
  issued : Nat := 0

namespace Script

/-- Pieces of `size + 1` elements, the last one perhaps shorter. -/
def pieces (size : Nat) (xs : List α) : List (List α) :=
  match xs with
  | [] => []
  | x :: rest => (x :: rest.take size) :: pieces size (rest.drop size)
termination_by xs.length
decreasing_by simp only [List.length_cons, List.length_drop]; omega

/-- Texts are streamed sixteen characters at a time. -/
def textSteps (text : String) : List Step :=
  (pieces 15 text.toList).map fun cs => .checked (.text (String.ofList cs))

def callSteps (issued : Nat) : List (String × String) → List Step
  | [] => []
  | (name, arguments) :: rest =>
    let id := s!"call_{issued + 1}"
    .checked (.callStart id name) :: .checked (.callDelta id arguments) :: .checked (.callEnd id)
      :: callSteps (issued + 1) rest

def written (calls : List (String × Json)) : List (String × String) :=
  calls.map fun (name, arguments) => (name, arguments.render)

def finished (reason : String) (usage : Usage) : Step :=
  .item (.ok (.done (some reason) (some usage))) false

def exhausted : Reply := .text "(script exhausted)"

/-- The steps of a reply and the number of identifiers it takes. -/
def play (usage : Usage) (issued : Nat) : Reply → Except ModelError (List Step × Nat)
  | .text text => .ok (textSteps text ++ [finished "end_turn" usage], 0)
  | .calls calls => .ok (callSteps issued (written calls) ++ [finished "tool_use" usage], calls.length)
  | .textThenCalls text calls =>
    .ok (.checked (.text text) :: callSteps issued (written calls) ++ [finished "tool_use" usage],
      calls.length)
  | .rawCall name arguments =>
    .ok (callSteps issued [(name, arguments)] ++ [finished "tool_use" usage], 1)
  | .error message => .error (.requestFailed message)
  | .failAfter text error => .ok ([.checked (.text text), .item (.error (.stream error)) false], 0)
  | .delayed time text =>
    .ok ([.wait (some time), .checked (.text text), finished "end_turn" usage], 0)
  | .hang => .ok ([.wait none], 0)

def push (s : Script) (reply : Reply) : Script := { s with replies := s.replies ++ [reply] }

/-- The request is logged, and the next reply is played. -/
def answer (usage : Usage) (request : Request) (s : Script) : Except ModelError (List Step) × Script :=
  let logged := { s with requests := s.requests ++ [request], replies := s.replies.tail }
  match play usage s.issued (s.replies.head?.getD exhausted) with
  | .ok (steps, taken) => (.ok steps, { logged with issued := s.issued + taken })
  | .error e => (.error e, logged)

end Script

structure ScriptedSettings where
  model : String := "scripted"
  options : Options := {}
  usage : Usage := ⟨10, 5, 0, 0⟩
  pricing : Option Pricing := none

def scripted {σ : Type} (settings : ScriptedSettings) (part : Part σ Script) : Model σ where
  name := "scripted"
  model := settings.model
  options := settings.options
  pricing := settings.pricing
  complete _ request world :=
    let (reply, script) := (part.get world).answer settings.usage request
    (reply, part.set script world)

end Model

end Ensemble
