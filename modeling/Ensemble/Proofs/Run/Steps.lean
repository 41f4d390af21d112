import Mathlib.Logic.Relation
import Ensemble.Run.Drive

/-!
# A run, step by step

A run is a machine: it heeds the user's answer, it is about to ask, it is part way through the
calls of a turn, or its outcome is fixed. `Step` has one rule for each thing it can do, with the
condition under which it does it. The functions that drive a run only take such steps
(`work_steps`), so whatever every step keeps holds at the end of the work (`Steps.keep`).

The terminal event and what comes before it are not part of the work.
-/

namespace Ensemble.Run

variable {σ : Type}

inductive Stage where
  /-- The user has answered what a suspended run asked for. -/
  | answering (left : Nat) (pending : Session.Pending) (answer : Answer)
  /-- The agent is asked next, with that many requests left. -/
  | asking (left : Nat)
  /-- The calls of `caller` that have no result yet. -/
  | calling (left : Nat) (caller : String) (queue : List ToolCall)
  | closed (outcome : Outcome)

/-- Everything a run can do while it works. -/
inductive Step (setup : Setup σ) : Stage × Run σ → Stage × Run σ → Prop where
  | idle {left : Nat} {caller : String} {answer : Answer} {r : Run σ} :
      Step setup (.answering left ⟨caller, []⟩ answer, r) (.asking left, r)
  | accepted {left : Nat} {caller : String} {call : ToolCall} {rest : List ToolCall}
      {answer : Answer} {r : Run σ} (yes : answer.action = .accept) :
      Step setup (.answering left ⟨caller, call :: rest⟩ answer, r)
        (.calling left caller rest,
          (if answer.approvesSession then r.approveAll else r).execute setup caller call true)
  | declined {left : Nat} {caller : String} {call : ToolCall} {rest : List ToolCall}
      {answer : Answer} {r : Run σ} (no : answer.action = .decline) :
      Step setup (.answering left ⟨caller, call :: rest⟩ answer, r)
        (.calling left caller rest,
          r.recordResult setup caller call .declined (declinedText call.name) true)
  | abandoned {left : Nat} {caller : String} {call : ToolCall} {rest : List ToolCall}
      {answer : Answer} {r : Run σ} (off : answer.action = .cancel) :
      Step setup (.answering left ⟨caller, call :: rest⟩ answer, r)
        (.closed .cancelled, r.recordCancelled setup caller (call :: rest))
  | stopped {left : Nat} {r : Run σ} (cancelled : r.look.cancel.requested = true) :
      Step setup (.asking left, r) (.closed .cancelled, r.look)
  | exhausted {r : Run σ} (going : r.look.cancel.requested = false) :
      Step setup (.asking 0, r) (.closed (.done "max_iterations"), r.look)
  | lost {left : Nat} {r : Run σ} {e : Error} (going : r.look.cancel.requested = false)
      (missing : setup.team.agent r.agent = .error e) :
      Step setup (.asking (left + 1), r) (.closed (.failed e.message), r.look)
  | withdrawn {left : Nat} {r : Run σ} {a : Agent σ} (going : r.look.cancel.requested = false)
      (found : setup.team.agent r.agent = .ok a) (cancelled : r.look.look.cancel.requested = true) :
      Step setup (.asking (left + 1), r) (.closed .cancelled, r.look.look)
  | refused {left : Nat} {r : Run σ} {a : Agent σ} {e : ModelError} {world : σ}
      (found : setup.team.agent r.agent = .ok a)
      (reply : a.model.complete r.look.look.cancel.requested (requestOf setup r.session a) r.world =
        (.error e, world))
      (going : r.look.look.cancel.requested = false) :
      Step setup (.asking (left + 1), r)
        (.closed ((Interruption.ofError e).outcome a.model.name),
          r.look.look.send (requestOf setup r.session a) world)
  | interrupted {left : Nat} {r : Run σ} {a : Agent σ} {steps : List Model.Step} {world : σ}
      {intake : Intake} {why : Interruption} (found : setup.team.agent r.agent = .ok a)
      (reply : a.model.complete r.look.look.cancel.requested (requestOf setup r.session a) r.world =
        (.ok steps, world))
      (read : Intake.read { cancel := r.look.look.cancel } steps = intake)
      (broken : intake.interruption = some why) (going : r.look.look.cancel.requested = false) :
      Step setup (.asking (left + 1), r)
        (.closed (why.outcome a.model.name),
          ((r.look.look.send (requestOf setup r.session a) world).takeIn intake).recordInterrupted
            setup why intake.assembly)
  | answered {left : Nat} {r : Run σ} {a : Agent σ} {steps : List Model.Step} {world : σ}
      {intake : Intake} (found : setup.team.agent r.agent = .ok a)
      (reply : a.model.complete r.look.look.cancel.requested (requestOf setup r.session a) r.world =
        (.ok steps, world))
      (read : Intake.read { cancel := r.look.look.cancel } steps = intake)
      (whole : intake.interruption = none) (final : intake.assembly.calls = [])
      (going : r.look.look.cancel.requested = false) :
      Step setup (.asking (left + 1), r)
        (.closed (.done intake.assembly.reason),
          ((r.look.look.send (requestOf setup r.session a) world).takeIn intake).recordTurn setup
            a.model intake.assembly)
  | called {left : Nat} {r : Run σ} {a : Agent σ} {steps : List Model.Step} {world : σ}
      {intake : Intake} (found : setup.team.agent r.agent = .ok a)
      (reply : a.model.complete r.look.look.cancel.requested (requestOf setup r.session a) r.world =
        (.ok steps, world))
      (read : Intake.read { cancel := r.look.look.cancel } steps = intake)
      (whole : intake.interruption = none) (more : intake.assembly.calls ≠ [])
      (going : r.look.look.cancel.requested = false) :
      Step setup (.asking (left + 1), r)
        (.calling left r.agent intake.assembly.calls,
          ((r.look.look.send (requestOf setup r.session a) world).takeIn intake).recordTurn setup
            a.model intake.assembly)
  | finished {left : Nat} {caller : String} {r : Run σ} :
      Step setup (.calling left caller [], r) (.asking left, r)
  | dropped {left : Nat} {caller : String} {call : ToolCall} {rest : List ToolCall} {r : Run σ}
      (cancelled : r.look.cancel.requested = true) :
      Step setup (.calling left caller (call :: rest), r)
        (.closed .cancelled, r.look.recordCancelled setup caller (call :: rest))
  | transferred {left : Nat} {caller : String} {call : ToolCall} {rest : List ToolCall} {r : Run σ}
      (transfer : call.name = Handoff.toolName) :
      Step setup (.calling left caller (call :: rest), r)
        (.calling left caller rest, (r.look.announce caller call).handoff setup caller call)
  | unknown {left : Nat} {caller : String} {call : ToolCall} {rest : List ToolCall} {r : Run σ}
      (tool : call.name ≠ Handoff.toolName)
      (missing : (toolsOf setup caller).get? call.name = none) :
      Step setup (.calling left caller (call :: rest), r)
        (.calling left caller rest, (r.look.announce caller call).recordResult setup caller call
          .unknown (Registry.notFound call.name).content true)
  | denied {left : Nat} {caller : String} {call : ToolCall} {rest : List ToolCall} {r : Run σ}
      (forbidden : r.session.approvalOf call.name = .denied) :
      Step setup (.calling left caller (call :: rest), r)
        (.calling left caller rest, (r.look.announce caller call).recordResult setup caller call
          .denied (deniedText call.name) true)
  | suspended {left : Nat} {caller : String} {call : ToolCall} {rest : List ToolCall} {r : Run σ}
      {tool : Tool σ} (found : (toolsOf setup caller).get? call.name = some tool)
      (asks : r.session.approvalOf call.name = .ask) (careful : tool.requiresApproval = true) :
      Step setup (.calling left caller (call :: rest), r)
        (.closed .suspended, (r.look.announce caller call).suspend caller call rest)
  | executed {left : Nat} {caller : String} {call : ToolCall} {rest : List ToolCall} {r : Run σ}
      {tool : Tool σ} (going : r.look.cancel.requested = false)
      (found : (toolsOf setup caller).get? call.name = some tool)
      (allowed : r.session.approvalOf call.name = .approved ∨
        r.session.approvalOf call.name = .ask ∧ tool.requiresApproval = false) :
      Step setup (.calling left caller (call :: rest), r)
        (.calling left caller rest, (r.look.announce caller call).execute setup caller call false)

def Steps (setup : Setup σ) : Stage × Run σ → Stage × Run σ → Prop :=
  Relation.ReflTransGen (Step setup)

theorem Steps.keep {setup : Setup σ} {P : Stage × Run σ → Prop}
    (step : ∀ {x y}, Step setup x y → P x → P y) {x y : Stage × Run σ} (h : Steps setup x y)
    (hx : P x) : P y := by
  induction h with
  | refl => exact hx
  | tail _ last ih => exact step last ih

def Flow.stage (left : Nat) : Flow → Stage
  | .goOn => .asking left
  | .suspended => .closed .suspended
  | .cancelled => .closed .cancelled

theorem processCalls_steps (setup : Setup σ) (left : Nat) (caller : String) (queue : List ToolCall)
    (r : Run σ) :
    Steps setup (.calling left caller queue, r)
      (Flow.stage left (processCalls setup caller queue r).2,
        (processCalls setup caller queue r).1) := by
  induction queue generalizing r with
  | nil => exact .single .finished
  | cons call rest ih =>
    have onward {r' : Run σ}
        (h : Step setup (.calling left caller (call :: rest), r) (.calling left caller rest, r')) :
        Steps setup (.calling left caller (call :: rest), r)
          (Flow.stage left (processCalls setup caller rest r').2,
            (processCalls setup caller rest r').1) := .head h (ih r')
    simp only [processCalls]
    split
    · rename_i cancelled
      exact .single (.dropped cancelled)
    rename_i going
    have going : r.look.cancel.requested = false := by simpa using going
    split
    · rename_i transfer
      exact onward (.transferred transfer)
    rename_i tool
    split
    · rename_i missing
      exact onward (.unknown tool missing)
    rename_i tool found
    split
    · rename_i forbidden
      exact onward (.denied forbidden)
    · rename_i asks careful
      exact .single (.suspended found asks careful)
    · rename_i notDenied notAsked
      refine onward (.executed going found ?_)
      cases h : r.session.approvalOf call.name with
      | approved => exact .inl rfl
      | denied => exact (notDenied h).elim
      | ask => exact .inr ⟨rfl, by simpa using notAsked h⟩

theorem recordTurn_agent (r : Run σ) (setup : Setup σ) (m : Model σ) (a : Assembly) :
    (r.recordTurn setup m a).agent = r.agent := by
  unfold recordTurn
  cases a.usage <;> rfl

theorem callModel_eq_hear {setup : Setup σ} {r : Run σ} {a : Agent σ}
    {answer : Except ModelError (List Model.Step)} {world : σ}
    (found : setup.team.agent r.agent = .ok a) (going : r.look.cancel.requested = false)
    (reply : a.model.complete r.look.cancel.requested (requestOf setup r.session a) r.world =
      (answer, world)) :
    callModel setup r =
      hear setup a.model (r.look.send (requestOf setup r.session a) world) answer := by
  rw [going] at reply
  simp only [callModel, found, going, Bool.false_eq_true, if_false]
  exact congrArg (fun p => hear setup a.model (r.look.send _ p.2) p.1) reply

theorem callModel_step (setup : Setup σ) (left : Nat) {r : Run σ}
    (going : r.look.cancel.requested = false) :
    match callModel setup r.look with
    | (r', .error outcome) => Step setup (.asking (left + 1), r) (.closed outcome, r')
    | (r', .ok turn) =>
      r'.agent = r.agent ∧
        (turn.calls = [] →
          Step setup (.asking (left + 1), r) (.closed (.done turn.stopReason), r')) ∧
        (turn.calls ≠ [] →
          Step setup (.asking (left + 1), r) (.calling left r.agent turn.calls, r')) := by
  cases found : setup.team.agent r.look.agent with
  | error e =>
    simp only [callModel, found]
    exact .lost going found
  | ok a =>
    cases cancelled : r.look.look.cancel.requested with
    | true =>
      simp only [callModel, found, cancelled, if_true]
      exact .withdrawn going found cancelled
    | false =>
      obtain ⟨answer, world, reply⟩ : ∃ answer world,
          a.model.complete r.look.look.cancel.requested (requestOf setup r.look.session a)
            r.look.world = (answer, world) := ⟨_, _, rfl⟩
      rw [callModel_eq_hear found cancelled reply]
      cases answer with
      | error e => exact .refused found reply cancelled
      | ok steps =>
        cases whole : (Intake.read { cancel := r.look.look.cancel } steps).interruption with
        | some why =>
          simp only [hear, send, note, whole]
          exact .interrupted (r := r) found reply rfl whole cancelled
        | none =>
          simp only [hear, send, note, whole]
          refine ⟨recordTurn_agent _ _ _ _, ?_, ?_⟩
          · intro final
            exact .answered (r := r) found reply rfl whole final cancelled
          · intro more
            exact .called (r := r) found reply rfl whole more cancelled

theorem loop_steps (setup : Setup σ) (left : Nat) (r : Run σ) :
    Steps setup (.asking left, r) (.closed (loop setup left r).2, (loop setup left r).1) := by
  induction left generalizing r with
  | zero =>
    simp only [loop]
    split
    · rename_i cancelled
      exact .single (.stopped cancelled)
    · rename_i going
      exact .single (.exhausted (by simpa using going))
  | succ left ih =>
    simp only [loop]
    split
    · rename_i cancelled
      exact .single (.stopped cancelled)
    rename_i going
    have step := callModel_step setup left (r := r) (by simpa using going)
    split
    · rename_i r' outcome asked
      rw [asked] at step
      exact .single step
    · rename_i r' turn asked
      rw [asked] at step
      obtain ⟨same, final, more⟩ := step
      split
      · rename_i noCalls
        exact .single (final noCalls)
      · rename_i makesCalls
        have turned := processCalls_steps setup left r.agent turn.calls r'
        rw [same]
        split
        · rename_i r'' done
          rw [done] at turned
          exact .head (more makesCalls) (turned.trans (ih r''))
        · rename_i r'' flow stays done
          rw [done] at turned
          refine .head (more makesCalls) ?_
          cases flow with
          | goOn => exact (stays rfl).elim
          | suspended => exact turned
          | cancelled => exact turned

def opening (setup : Setup σ) : Option (Session.Pending × Answer) → Stage
  | none => .asking setup.config.maxIterations
  | some (pending, answer) => .answering setup.config.maxIterations pending answer

theorem resumed_steps (setup : Setup σ) (caller : String) (queue : List ToolCall) (r : Run σ) :
    let left := setup.config.maxIterations
    let ended : Run σ × Outcome := match processCalls setup caller queue r with
      | (r, .goOn) => loop setup left r
      | (r, flow) => (r, Flow.outcome flow)
    Steps setup (.calling left caller queue, r) (.closed ended.2, ended.1) := by
  have turned := processCalls_steps setup setup.config.maxIterations caller queue r
  cases done : processCalls setup caller queue r with
  | mk r' flow =>
    rw [done] at turned
    cases flow with
    | goOn => exact turned.trans (loop_steps setup _ r')
    | suspended => exact turned
    | cancelled => exact turned

theorem work_steps (setup : Setup σ) (resumed : Option (Session.Pending × Answer)) (r : Run σ) :
    Steps setup (opening setup resumed, r)
      (.closed (work setup resumed r).2, (work setup resumed r).1) := by
  cases resumed with
  | none => exact loop_steps setup _ r
  | some both =>
    obtain ⟨⟨caller, calls⟩, answer⟩ := both
    cases calls with
    | nil => exact .head .idle (loop_steps setup _ r)
    | cons call rest =>
      cases action : answer.action with
      | accept =>
        simp only [work, resumeCalls, action]
        exact .head (.accepted action) (resumed_steps setup caller rest _)
      | decline =>
        simp only [work, resumeCalls, action]
        exact .head (.declined action) (resumed_steps setup caller rest _)
      | cancel =>
        simp only [work, resumeCalls, action]
        exact .single (.abandoned action)

end Ensemble.Run
