import Ensemble.Run.Calls
import Ensemble.Run.Reply
import Ensemble.Run.Summary
import Ensemble.Tokens

/-!
# Driving a run

A run asks its agent, runs the calls of the reply and asks again, until a reply makes no calls,
the limit is reached, the user is needed, or the run fails or is cancelled. Then it ends with its
one terminal event. What is done between the last reply and a final `done` beyond compaction is
left to `followUp`.
-/

namespace Ensemble.Run

variable {σ : Type}

def offeredTools (setup : Setup σ) (a : Agent σ) : List ToolDefinition :=
  let targets := setup.team.handoffTargets a.name
  a.tools.definitions ++ (if targets.isEmpty then [] else [Handoff.definition targets])

def requestOf (setup : Setup σ) (s : Session) (a : Agent σ) : Model.Request :=
  (Model.Request.of a.model.model (View.of setup.here s a setup.team) a.model.options).withTools
    (offeredTools setup a)

structure Turn where
  calls : List ToolCall
  stopReason : String
deriving DecidableEq

def send (r : Run σ) (request : Model.Request) (world : σ) : Run σ :=
  { r with world }.note (.asked r.agent request)

/-- Reports what came in of a reply, as far as it is text. -/
def takeIn (r : Run σ) (i : Intake) : Run σ :=
  { r with
    cancel := i.cancel
    events := r.events ++ i.pieces.map (Event.tokenDelta r.agent) }

def recordTurn (r : Run σ) (setup : Setup σ) (m : Model σ) (a : Assembly) : Run σ :=
  let noted := r.note (.replied r.agent a.calls a.usage)
  let said := noted.say setup r.agent (.assistant a.text a.calls)
  match a.usage with
  | none => said
  | some usage =>
    let cost := m.costOf usage
    { said with session := (said.session.noteUsage usage cost m.model).recordUsage usage cost }

/-- What is left of a reply that was not taken in to its end: the text of a cancelled one. -/
def recordInterrupted (r : Run σ) (setup : Setup σ) (why : Interruption) (a : Assembly) : Run σ :=
  if why = .cancelled ∧ a.text ≠ "" then r.say setup r.agent (.assistant a.text) else r

def hear (setup : Setup σ) (m : Model σ) (r : Run σ) :
    Except ModelError (List Model.Step) → Run σ × Except Outcome Turn
  | .error e => (r, .error ((Interruption.ofError e).outcome m.name))
  | .ok steps =>
    let intake := Intake.read { cancel := r.cancel } steps
    let r := r.takeIn intake
    match intake.interruption with
    | some why => (r.recordInterrupted setup why intake.assembly, .error (why.outcome m.name))
    | none =>
      (r.recordTurn setup m intake.assembly, .ok ⟨intake.assembly.calls, intake.assembly.reason⟩)

def callModel (setup : Setup σ) (r : Run σ) : Run σ × Except Outcome Turn :=
  match setup.team.agent r.agent with
  | .error e => (r, .error (.failed e.message))
  | .ok a =>
    let request := requestOf setup r.session a
    let r := r.look
    if r.cancel.requested then (r, .error .cancelled)
    else
      let (reply, world) := a.model.complete r.cancel.requested request r.world
      hear setup a.model (r.send request world) reply

def Flow.outcome : Flow → Outcome
  | .suspended => .suspended
  | _ => .cancelled

def loop (setup : Setup σ) (left : Nat) (r : Run σ) : Run σ × Outcome :=
  let r := r.look
  if r.cancel.requested then (r, .cancelled)
  else
    match left with
    | 0 => (r, .done "max_iterations")
    | left + 1 =>
      match callModel setup r with
      | (r, .error outcome) => (r, outcome)
      | (r, .ok turn) =>
        match turn.calls with
        | [] => (r, .done turn.stopReason)
        | calls =>
          match processCalls setup r.agent calls r with
          | (r, .goOn) => loop setup left r
          | (r, flow) => (r, Flow.outcome flow)

/-- Works on a session until the run ends; a resumed run first goes on with its suspended turn. -/
def work (setup : Setup σ) (resumed : Option (Session.Pending × Answer)) (r : Run σ) :
    Run σ × Outcome :=
  match resumed with
  | none => loop setup setup.config.maxIterations r
  | some (pending, answer) =>
    match resumeCalls setup pending answer r with
    | (r, .goOn) => loop setup setup.config.maxIterations r
    | (r, flow) => (r, Flow.outcome flow)

def needsCompaction (setup : Setup σ) (r : Run σ) : Bool :=
  setup.config.compaction.enabled &&
    match setup.team.get? r.agent with
    | some a =>
      Tokens.exceeds setup.config.compaction.thresholdTokens (View.of setup.here r.session a setup.team)
    | none => false

/-- Replaces the conversation by a summary when it has grown too large. A failure is passed over. -/
def compact (setup : Setup σ) (r : Run σ) : Run σ :=
  if needsCompaction setup r then
    let result := setup.summarize r.session r.agent r.cancel r.world
    let r := { r with
      session := result.session, cancel := result.cancel, world := result.world
      journal := r.journal ++ result.journal }
    match result.outcome with
    | .ok (some text) => r.emit (.sessionCompacted r.agent text)
    | _ => r
  else r

def doneEvent (r : Run σ) (stopReason : String) : Event :=
  .done r.agent stopReason { input := r.session.inputTokens, output := r.session.outputTokens }
    r.session.cost

/-- Ends a run with its terminal event. A suspended one has reported its elicitation already. -/
def finish (setup : Setup σ) (followUp : Run σ → Run σ) (outcome : Outcome) (r : Run σ) : Run σ :=
  match outcome with
  | .done stopReason =>
    let r := followUp (compact setup r)
    r.emit (r.doneEvent stopReason)
  | .suspended => r
  | .cancelled => r.emit .cancelled
  | .failed message => r.emit (.error message)

def drive (setup : Setup σ) (followUp : Run σ → Run σ)
    (resumed : Option (Session.Pending × Answer)) (r : Run σ) : Run σ :=
  let (r, outcome) := work setup resumed r
  finish setup followUp outcome r

end Run

namespace Setup

variable {σ : Type}

def waitingText (s : Session) : String :=
  s!"session {s.id} is waiting for an elicitation response"

def firstAgent (setup : Setup σ) (s : Session) : String :=
  s.activeAgent.getD setup.team.root.name

/-- The beginning of a run; a suspended session cannot be run. -/
def start (setup : Setup σ) (s : Session) (c : Cancellation) (world : σ) : Except Error (Run σ) :=
  if s.pending.isSome then .error (.invalidRequest (waitingText s))
  else
    let agent := setup.firstAgent s
    match setup.team.agent agent with
    | .error e => .error e
    | .ok _ => .ok { session := s, agent, cancel := c, world }

/-- The beginning of a resumed run, with what the session was waiting for. -/
def startResumed (s : Session) (c : Cancellation) (world : σ) :
    Except Error (Run σ × Session.Pending) :=
  match s.pending with
  | none => .error (.noPendingElicitation s.id)
  | some pending =>
    .ok ({ session := { s with pending := none }, agent := s.activeAgent.getD pending.agent
           cancel := c, world }, pending)

end Setup

end Ensemble
