import Ensemble.Event
import Ensemble.Run.Config
import Ensemble.View.Basic

/-!
# The state of a run

A run carries the session it works on, the agent that is asked next and the world of its models
and tools. Beside the events for the consumer it keeps a journal of what it did to models and
tools, so that both can be compared with the transcript.
-/

namespace Ensemble

open Time (Timestamp)

/-- What stays the same during a run. -/
structure Setup (σ : Type) where
  team : Team σ
  config : RunConfig := {}
  here : Surroundings
  now : Timestamp

/-- How a call came to its result. -/
inductive Settlement where
  /-- Its tool was executed; `approval` is what the session said of it then, and `accepted` marks
  the call the user had just accepted. -/
  | executed (approval : Approval) (accepted : Bool)
  /-- It was no call of a tool, but a transfer, which may have failed. -/
  | transfer
  | unknown
  | denied
  | declined
  | cancelled
deriving DecidableEq

inductive Activity where
  /-- A request of an agent went to its model. -/
  | asked (agent : String) (request : Model.Request)
  /-- The reply to it came to its end, with the calls it issued. -/
  | replied (agent : String) (calls : List ToolCall) (usage : Option Usage)
  /-- A call got its result. -/
  | settled (caller : String) (call : ToolCall) (how : Settlement)
  | summaryAsked (agent : String) (request : Model.Request)
  | summaryReplied (agent : String) (usage : Option Usage)

structure Run (σ : Type) where
  session : Session
  /-- The agent the next request comes from. -/
  agent : String
  cancel : Cancellation
  world : σ
  events : List Event := []
  journal : List Activity := []
  /-- The journal of the run that looked for suggestions. -/
  aside : List Activity := []

inductive Outcome where
  | done (stopReason : String)
  | suspended
  | cancelled
  | failed (message : String)
deriving DecidableEq

inductive Flow where
  | goOn
  | suspended
  | cancelled
deriving DecidableEq

namespace Run

variable {σ : Type}

def emit (r : Run σ) (e : Event) : Run σ := { r with events := r.events ++ [e] }

def note (r : Run σ) (a : Activity) : Run σ := { r with journal := r.journal ++ [a] }

/-- Looks whether the run was cancelled. -/
def look (r : Run σ) : Run σ := { r with cancel := r.cancel.look }

def say (r : Run σ) (setup : Setup σ) (author : String) (m : Message) : Run σ :=
  { r with session := r.session.add author m setup.now }

def recordResult (r : Run σ) (setup : Setup σ) (caller : String) (call : ToolCall)
    (how : Settlement) (content : String) (isError : Bool) : Run σ :=
  let noted := r.note (.settled caller call how)
  (noted.say setup caller (.toolResult call.id content)).emit (.resultOf caller call content isError)

def cancelledText : String := "The tool call was cancelled."

/-- Every outstanding call gets a result that says it was cancelled. -/
def recordCancelled (r : Run σ) (setup : Setup σ) (caller : String) (calls : List ToolCall) : Run σ :=
  calls.foldl (fun r call => r.recordResult setup caller call .cancelled cancelledText true) r

end Run

end Ensemble
