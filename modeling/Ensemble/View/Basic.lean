import Ensemble.Agent.Handoff
import Ensemble.Session.Basic
import Ensemble.View.Trim

/-!
# What an agent sees

The view of an agent is a list of messages in zones: what never changes (instructions), what the
surroundings say (date and directory), the summary of what lies back, and the conversation. What
other agents said is told as plain text, so that no model sees calls it did not make.
-/

namespace Ensemble

structure Surroundings where
  today : String
  directory : String
  platform : String := "linux"

namespace View

/-- Whose a message is in the eyes of a viewer. -/
inductive Authorship where
  | own
  | foreign (author : String)
deriving DecidableEq

/-- What the user says is everyone's own. -/
def Authorship.of (viewer author : String) : Authorship :=
  if author.isEmpty || author == viewer then .own else .foreign author

def toldCall (author : String) (c : ToolCall) : String :=
  "[" ++ author ++ "] called tool `" ++ c.name ++ "` with parameters: " ++ c.arguments

def toldAssistant (author : String) (m : Message) : List String :=
  (if m.content.isEmpty then [] else ["[" ++ author ++ "] said: " ++ m.content])
    ++ m.calls.map (toldCall author)

/-- How a message appears to a viewer; some do not appear at all. -/
def narrate (m : Message) : Authorship → Option Message
  | .own => some { m with checkpoint := false }
  | .foreign author =>
    match m.role with
    | .assistant =>
      match toldAssistant author m with
      | [] => none
      | parts => some (.user ("For context: " ++ "\n".intercalate parts))
    | .tool =>
      if m.content.isEmpty then none
      else some (.user ("For context: Tool returned result: " ++ m.content))
    | .user => some (.user m.content)
    | .system => some (.system m.content)

def narrateItem (viewer : String) : Session.Item → Option Message
  | .message m => narrate m.message (.of viewer m.author)
  | .summary _ _ => none

def environmentText (here : Surroundings) (workingDir : Option String) : String :=
  "Here is useful information about the environment you are running in:\n<env>\nWorking directory: "
    ++ workingDir.getD here.directory ++ "\nPlatform: " ++ here.platform ++ "\n</env>"

variable {σ : Type}

def invariantZone (a : Agent σ) (t : Team σ) : List Message :=
  let targets := t.handoffTargets a.name
  [Message.system a.instructions]
    ++ (if targets.isEmpty then [] else [.system (Handoff.instructions targets)])
    ++ a.toolsetInstructions.map .system

def contextZone (here : Surroundings) (s : Session) (a : Agent σ) : List Message :=
  (if a.addDate then [Message.system ("Today's date: " ++ here.today)] else [])
    ++ (if a.addEnvironment then [.system (environmentText here s.workingDir)] else [])

def summaryZone (s : Session) : List Message :=
  (s.latestSummary.map fun text => Message.system ("Session Summary: " ++ text)).toList

def conversation (s : Session) (a : Agent σ) : List Message :=
  let told := s.tail.filterMap (narrateItem a.name)
  match a.historyLimit with
  | some max => trim max told
  | none => told

/-- Marks the last message of a zone as the end of a stretch to cache. -/
def markLast : List Message → List Message
  | [] => []
  | [m] => [{ m with checkpoint := true }]
  | m :: rest => m :: markLast rest

/-- At most two messages are marked: the summary stands in for a zone that is empty. -/
def systemZones (invariant context summary : List Message) : List Message :=
  let summary := if invariant.isEmpty || context.isEmpty then markLast summary else summary
  markLast invariant ++ markLast context ++ summary

def of (here : Surroundings) (s : Session) (a : Agent σ) (t : Team σ) : List Message :=
  systemZones (invariantZone a t) (contextZone here s a) (summaryZone s) ++ conversation s a

end View

end Ensemble
