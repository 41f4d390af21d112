import Ensemble.Message
import Ensemble.Time.Calendar

/-!
# Sessions

A session is the transcript all agents of a team share, with the permissions given by the user
and the tokens used. The transcript only ever grows; of a suspended run it holds what is still to
be done.
-/

namespace Ensemble

open Time (Timestamp)

/-- A message with its author. The user's name is empty. -/
structure Authored where
  author : String
  message : Message
  createdAt : Timestamp

namespace Session

inductive Item where
  | message (m : Authored)
  /-- Stands for everything before it. -/
  | summary (text : String) (createdAt : Timestamp)

def Item.message? : Item → Option Authored
  | .message m => some m
  | .summary _ _ => none

/-- Patterns of tool names. -/
structure Permissions where
  allow : List String := []
  deny : List String := []
deriving DecidableEq

/-- A run suspended on its first call; the others of the same turn have not run yet either. -/
structure Pending where
  agent : String
  calls : List ToolCall
deriving DecidableEq

end Session

structure Session where
  id : String
  title : String := ""
  createdAt : Timestamp
  items : List Session.Item := []
  /-- Every tool may run without asking. -/
  toolsApproved : Bool := false
  permissions : Session.Permissions := {}
  inputTokens : UInt64 := 0
  outputTokens : UInt64 := 0
  cost : Float := 0
  workingDir : Option String := none
  /-- The agent the next run starts with, when it is not the root of the team. -/
  activeAgent : Option String := none
  pending : Option Session.Pending := none

inductive Approval where
  | approved
  | denied
  | ask
deriving DecidableEq

/-- The author of what the user says. -/
def userAuthor : String := ""

namespace Session

def add (s : Session) (author : String) (message : Message) (now : Timestamp) : Session :=
  { s with items := s.items ++ [.message ⟨author, message, now⟩] }

def addUser (s : Session) (content : String) (now : Timestamp) : Session :=
  s.add userAuthor (.user content) now

def addSummary (s : Session) (text : String) (now : Timestamp) : Session :=
  { s with items := s.items ++ [.summary text now] }

/-- The latest summary and the items after it. -/
def sinceSummary : List Item → Option String × List Item
  | [] => (none, [])
  | item :: rest =>
    match sinceSummary rest, item with
    | (some text, tail), _ => (some text, tail)
    | (none, tail), .summary text _ => (some text, tail)
    | (none, tail), item => (none, item :: tail)

def latestSummary (s : Session) : Option String := (sinceSummary s.items).1

def tail (s : Session) : List Item := (sinceSummary s.items).2

def messages (s : Session) : List Authored := s.items.filterMap Item.message?

/-- The content of the last message of a role, empty when there is none. -/
def lastContent (s : Session) (role : Role) : String :=
  ((s.messages.reverse.find? fun m => m.message.role == role).map (·.message.content)).getD ""

def isSpokenByUser (m : Authored) : Bool :=
  m.message.role == .user && !Text.isBlankText m.message.content

/-- The last `n` messages in the role of the user that are not blank, oldest first. -/
def lastUserMessages (s : Session) (n : Nat) : List String :=
  (((s.messages.filter isSpokenByUser).reverse.take n).reverse).map (·.message.content)

def isAssistant : Item → Bool
  | .message m => m.message.role == .assistant
  | .summary _ _ => false

def changeLast (p : Item → Bool) (f : Item → Item) (items : List Item) : List Item :=
  let after := items.reverse.takeWhile fun i => !p i
  match items.reverse.dropWhile fun i => !p i with
  | [] => items
  | item :: before => before.reverse ++ f item :: after.reverse

def Item.withUsage (usage : Usage) (cost : Float) (model : String) : Item → Item
  | .message m =>
    .message { m with message := { m.message with usage := some usage, cost := some cost, model := some model } }
  | item => item

def noteUsage (s : Session) (usage : Usage) (cost : Float) (model : String) : Session :=
  { s with items := changeLast isAssistant (Item.withUsage usage cost model) s.items }

def recordUsage (s : Session) (usage : Usage) (cost : Float) : Session :=
  { s with
    inputTokens := s.inputTokens + usage.input
    outputTokens := s.outputTokens + usage.output
    cost := s.cost + cost }

/-- A star at the end of a pattern stands for any ending. -/
def patternMatches (pattern name : String) : Bool :=
  match pattern.toList.reverse with
  | '*' :: start => start.reverse.isPrefixOf name.toList
  | _ => pattern == name

/-- Denial comes before every approval. -/
def approvalOf (s : Session) (tool : String) : Approval :=
  if s.permissions.deny.any (patternMatches · tool) then .denied
  else if s.toolsApproved || s.permissions.allow.any (patternMatches · tool) then .approved
  else .ask

end Session

end Ensemble
