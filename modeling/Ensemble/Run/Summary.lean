import Ensemble.Run.Basic

/-!
# Summaries

A summary is asked for in three steps: the request is made from what the agent sees now, the
reply is read, and what it says is added to the session. Between the first step and the last the
session may have grown.
-/

namespace Ensemble.Summary

def instructions : String :=
  "You are a helpful AI assistant that summarizes conversations. Write a concise summary of the " ++
  "conversation below. Keep every fact, decision, file name, command and open task that later " ++
  "turns may depend on. Leave out pleasantries. Return only the summary."

def calledText (c : ToolCall) : String :=
  "Assistant called `" ++ c.name ++ "` with " ++ c.arguments

def told (m : Message) : List String :=
  match m.role with
  | .user => ["User: " ++ m.content]
  | .assistant =>
    (if m.content.isEmpty then [] else ["Assistant: " ++ m.content]) ++ m.calls.map calledText
  | .tool => ["Tool result: " ++ m.content]
  | .system => []

def transcript (previous : Option String) (conversation : List Message) : String :=
  (match previous with
    | some text => "Previous summary: " ++ text ++ "\n\n"
    | none => "") ++ "\n\n".intercalate (conversation.flatMap told)

variable {σ : Type}

/-- What is left of a view without its instructions. -/
def spoken (here : Surroundings) (s : Session) (a : Agent σ) (t : Team σ) : List Message :=
  (View.of here s a t).filter fun m => m.role ≠ .system

/-- Nothing when there is nothing to summarise. -/
def request? (here : Surroundings) (s : Session) (a : Agent σ) (t : Team σ) : Option Model.Request :=
  match spoken here s a t with
  | [] => none
  | conversation =>
    some (.of a.model.model
      [.system instructions, .user (transcript s.latestSummary conversation)] a.model.options)

structure Reading where
  text : String := ""
  usage : Option Usage := none
deriving DecidableEq

def Reading.take (r : Reading) : Model.Delta → Except String Reading
  | .text t => .ok { r with text := r.text ++ t }
  | .done _ usage => .ok { r with usage }
  | .error message => .error message
  | _ => .ok r

/-- Reads a reply to its end; nobody looks for cancellation but the provider. -/
def read (c : Cancellation) (acc : Reading) :
    List Model.Step → Except (ModelError ⊕ String) Reading × Cancellation
  | [] => (.ok acc, c)
  | .wait time :: rest =>
    let c := c.look.wait time
    if c.requested then (.error (.inl .cancelled), c) else read c acc rest
  | .checked d :: rest =>
    let c := c.look
    if c.requested then (.error (.inl .cancelled), c)
    else
      match acc.take d with
      | .ok acc => read c acc rest
      | .error message => (.error (.inr message), c)
  | .item (.ok d) cancels :: rest =>
    match acc.take d with
    | .ok acc => read (c.request cancels) acc rest
    | .error message => (.error (.inr message), c.request cancels)
  | .item (.error e) cancels :: _ => (.error (.inl e), c.request cancels)

def errorOf (provider : String) : ModelError ⊕ String → Error
  | .inl e => e.toError provider
  | .inr message => .modelFailed provider message

/-- Adds what the reply says to the session; a blank reply leaves it as it is. -/
def commit (m : Model σ) (reading : Reading) (s : Session) (now : Time.Timestamp) :
    Option String × Session :=
  let text := Text.trim reading.text
  if text.isEmpty then (none, s)
  else
    let counted := match reading.usage with
      | some usage => s.recordUsage usage (m.costOf usage)
      | none => s
    (some text, counted.addSummary text now)

end Summary

variable {σ : Type}

structure Summary.Result (σ : Type) where
  outcome : Except Error (Option String)
  session : Session
  cancel : Cancellation
  world : σ
  journal : List Activity := []

/-- Summarises what an agent sees. A failure changes nothing in the session. -/
def Setup.summarize (setup : Setup σ) (s : Session) (agent : String) (c : Cancellation) (world : σ) :
    Summary.Result σ :=
  match setup.team.agent agent with
  | .error e => ⟨.error e, s, c, world, []⟩
  | .ok a =>
    match Summary.request? setup.here s a setup.team with
    | none => ⟨.ok none, s, c, world, []⟩
    | some request =>
      let asked := Activity.summaryAsked agent request
      let c := c.look
      let (reply, world) := a.model.complete c.requested request world
      match reply with
      | .error e => ⟨.error (e.toError a.model.name), s, c, world, [asked]⟩
      | .ok steps =>
        let (reading, c) := Summary.read c {} steps
        match reading with
        | .error e => ⟨.error (Summary.errorOf a.model.name e), s, c, world, [asked]⟩
        | .ok reading =>
          let (text, s) := Summary.commit a.model reading s setup.now
          ⟨.ok text, s, c, world, [asked, .summaryReplied agent reading.usage]⟩

end Ensemble
