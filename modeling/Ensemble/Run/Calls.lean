import Ensemble.Run.Basic

/-!
# The calls of a turn

The calls of an assistant message run one after the other. Each ends with exactly one result,
except where the run is suspended: then the call that needs consent and those behind it wait in
the session.
-/

namespace Ensemble.Run

variable {σ : Type}

def toolsOf (setup : Setup σ) (caller : String) : Registry σ :=
  match setup.team.get? caller with
  | some a => a.tools
  | none => .empty

def callReply (r : Run σ) (setup : Setup σ) (caller : String) (call : ToolCall) :
    Registry.CallReply × σ :=
  match setup.team.agent caller with
  | .ok a => a.tools.executeCall call r.cancel.requested r.world
  | .error e => (⟨.error e, false⟩, r.world)

def execute (r : Run σ) (setup : Setup σ) (caller : String) (call : ToolCall) (accepted : Bool) :
    Run σ :=
  let r := r.look
  let (reply, world) := r.callReply setup caller call
  let (content, isError) := match reply.result with
    | .ok result => (result.content, result.isError)
    | .error e => (e.message, true)
  ({ r with world, cancel := r.cancel.request reply.cancels }).recordResult setup caller call
    (.executed (r.session.approvalOf call.name) accepted) content isError

def invalidArgumentsText (e : Json.Error) : String :=
  "Invalid arguments for " ++ Handoff.toolName ++ ": " ++ e.message

def invalidTargetText (target caller : String) (valid : List String) : String :=
  s!"Agent {target} is not a valid handoff target for {caller}. Valid targets: " ++
    (if valid.isEmpty then "none" else ", ".intercalate valid)

def transferredText (target : String) : String := s!"Task transferred to {target}."

def transferArguments (call : ToolCall) : Except Json.Error Handoff.Arguments := do
  Json.Decode.ofValue Handoff.Arguments.decode (← call.parseArguments)

/-- The target takes over: it starts from the briefing. -/
def switchTo (r : Run σ) (setup : Setup σ) (caller : String) (args : Handoff.Arguments) : Run σ :=
  let briefed := r.say setup args.agent (.user (args.briefing caller))
  { briefed.emit (.agentSwitched caller args.agent) with
    session := { briefed.session with activeAgent := some args.agent }
    agent := args.agent }

/-- A transfer happens completely, or leaves nothing but an error result. -/
def handoff (r : Run σ) (setup : Setup σ) (caller : String) (call : ToolCall) : Run σ :=
  match transferArguments call with
  | .error e => r.recordResult setup caller call .transfer (invalidArgumentsText e) true
  | .ok args =>
    let valid := (setup.team.handoffTargets caller).map (·.name)
    if args.agent ∈ valid then
      (r.recordResult setup caller call .transfer (transferredText args.agent) false).switchTo setup
        caller args
    else r.recordResult setup caller call .transfer (invalidTargetText args.agent caller valid) true

def deniedText (tool : String) : String :=
  "Tool call to `" ++ tool ++ "` was denied by the session permissions."

def consentText (caller tool : String) : String := s!"Allow {caller} to run the `{tool}` tool?"

/-- Leaves the call and those behind it to the user. -/
def suspend (r : Run σ) (caller : String) (call : ToolCall) (rest : List ToolCall) : Run σ :=
  { r.emit (.elicitationRequest caller (consentText caller call.name) call) with
    session := { r.session with pending := some ⟨caller, call :: rest⟩ } }

def announce (r : Run σ) (caller : String) (call : ToolCall) : Run σ :=
  r.emit (.toolCallStarted caller call)

def processCalls (setup : Setup σ) (caller : String) : List ToolCall → Run σ → Run σ × Flow
  | [], r => (r, .goOn)
  | call :: rest, r =>
    let r := r.look
    if r.cancel.requested then (r.recordCancelled setup caller (call :: rest), .cancelled)
    else
      let r := r.announce caller call
      if call.name = Handoff.toolName then processCalls setup caller rest (r.handoff setup caller call)
      else
        match (toolsOf setup caller).get? call.name with
        | none =>
          processCalls setup caller rest
            (r.recordResult setup caller call .unknown (Registry.notFound call.name).content true)
        | some tool =>
          match r.session.approvalOf call.name, tool.requiresApproval with
          | .denied, _ =>
            processCalls setup caller rest
              (r.recordResult setup caller call .denied (deniedText call.name) true)
          | .ask, true => (r.suspend caller call rest, .suspended)
          | _, _ => processCalls setup caller rest (r.execute setup caller call false)

def declinedText (tool : String) : String := s!"The user declined to run the `{tool}` tool."

def approveAll (r : Run σ) : Run σ := { r with session := { r.session with toolsApproved := true } }

def resumeCalls (setup : Setup σ) (pending : Session.Pending) (answer : Answer) (r : Run σ) :
    Run σ × Flow :=
  match pending.calls with
  | [] => (r, .goOn)
  | call :: rest =>
    let caller := pending.agent
    match answer.action with
    | .accept =>
      let r := if answer.approvesSession then r.approveAll else r
      processCalls setup caller rest (r.execute setup caller call true)
    | .decline =>
      processCalls setup caller rest
        (r.recordResult setup caller call .declined (declinedText call.name) true)
    | .cancel => (r.recordCancelled setup caller (call :: rest), .cancelled)

end Ensemble.Run
