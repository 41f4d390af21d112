import Ensemble.Proofs.Run.Ready
import Ensemble.Proofs.Run.Twins

/-!
# Matching drivers

Where twins work, the one without consent may be suspended when the other one goes on. When it is
resumed with a plain accept, it begins as a twin again, with what it has told and sent so far as the
past of the other (`Twin.reopened`). So one loop is matched by a chain of loops (`Matches`): round by
round, call by call, and at every question by the answer (`calls_match`, `loop_matches`).

The search for suggestions at the end of a run is a run as well, on a session made at its time, and
the same holds of it with no consent on either side.
-/

namespace Ensemble

open Session Time

variable {σ : Type}

namespace Run

def reopened (r : Run σ) (caller : String) : Run σ where
  session := { r.session with pending := none }
  agent := r.session.activeAgent.getD caller
  cancel := .never
  world := r.world

theorem Ready.reopened {t : Team σ} {caller : String} {r : Run σ} (h : Ready t caller r) :
    Ready t caller (r.reopened caller) where
  calm := .inl rfl
  known := by
    have agent : (r.reopened caller).agent = r.agent := h.seated
    rw [agent]
    exact h.known
  seated := rfl
  idle := rfl
  alone := rfl

/-- To its twin a run that is resumed is the one that was suspended. -/
theorem Twin.reopened {consent : Bool} {told : List Event} {sent : List (String × Model.Request)}
    {t : Team σ} {caller : String} {r r' : Run σ} (h : Twin consent told sent r r')
    (ready : Ready t caller r') (going : r'.cancel.requested = false) :
    Twin consent (told ++ r'.events) (sent ++ requestsIn r'.journal) r (r'.reopened caller) :=
  have session : (r'.reopened caller).session = r'.session := by
    simp only [Run.reopened, ← ready.idle]
  { h with
    session := h.session.trans (congrArg Session.bare session.symm)
    unasked := (congrArg Session.toolsApproved session).trans h.unasked
    agent := h.agent.trans ready.seated.symm
    cancel := h.cancel.trans (ready.calm.eq_never going)
    events := by rw [h.events]; exact (List.append_nil _).symm
    requests := by rw [h.requests]; exact (List.append_nil _).symm
    aside := by rw [h.aside, ready.alone]; rfl }

/-- How the work of a run goes when the user is asked only in the second case, at any times, and
always accepts: it ends in the same way, or it is suspended, and is matched when it is resumed. -/
inductive Matches (setup : Setup σ) (consent : Bool) :
    List Event → List (String × Model.Request) → Run σ × Outcome → Run σ × Outcome → Prop where
  | same {told : List Event} {sent : List (String × Model.Request)} {r r' : Run σ}
      {outcome : Outcome} (twin : Twin consent told sent r r')
      (idle : consent = true → r'.session.pending = none) :
      Matches setup consent told sent (r, outcome) (r', outcome)
  | asked {told : List Event} {sent : List (String × Model.Request)} {x : Run σ × Outcome}
      {r' : Run σ} {caller : String} {call : ToolCall} {rest : List ToolCall}
      (given : consent = true) (alone : r'.aside = [])
      (later : ∀ now, Matches setup consent (told ++ r'.events) (sent ++ requestsIn r'.journal) x
        (work (setup.atTime now) (some (⟨caller, call :: rest⟩, .accept)) (r'.reopened caller))) :
      Matches setup consent told sent x (r'.suspend caller call rest, .suspended)

/-- The limits of two loops: a run that may be suspended has a fresh one each time. -/
structure Room (setup : Setup σ) (consent : Bool) (left left' : Nat) : Prop where
  le : left ≤ left'
  same : consent = false → left' = left
  most : consent = true → left ≤ setup.config.maxIterations

section

variable {setup : Setup σ} {consent : Bool}

theorem work_accept (caller : String) (call : ToolCall) (rest : List ToolCall) (r : Run σ) :
    work setup (some (⟨caller, call :: rest⟩, .accept)) r =
      proceed setup setup.config.maxIterations
        (processCalls setup caller rest (r.execute setup caller call true)) := by
  have accepts : Answer.accept.approvesSession = false := rfl
  simp only [work, resumeCalls, Answer.accept] at accepts ⊢
  simp only [accepts, Bool.false_eq_true, if_false]
  cases processCalls setup caller rest (r.execute setup caller call true) with
  | mk q flow => cases flow <;> rfl

/-- The calls of a turn are matched if the loop behind them is. -/
theorem calls_match {left : Nat}
    (onward : ∀ {now told sent left'} {r r' : Run σ}, Room setup consent left left' →
      Twin consent told sent r r' → (consent = true → Ready setup.team r'.agent r') →
      (consent = true → Enough setup left r) →
      Matches setup consent told sent (loop setup left r) (loop (setup.atTime now) left' r'))
    (caller : String) (calls : List ToolCall) {now : Timestamp} {told : List Event}
    {sent : List (String × Model.Request)} {left' : Nat} {r r' : Run σ}
    (room : Room setup consent left left') (twin : Twin consent told sent r r')
    (ready : consent = true → Ready setup.team caller r')
    (enough : consent = true → ∀ q, processCalls setup caller calls r = (q, .goOn) →
      Enough setup left q) :
    Matches setup consent told sent (proceed setup left (processCalls setup caller calls r))
      (proceed (setup.atTime now) left' (processCalls (setup.atTime now) caller calls r')) := by
  -- The induction goes through suspensions, so it is about any time, past and limit of the second run.
  induction calls generalizing now told sent left' r r' with
  | nil => exact onward room twin (fun given => (ready given).next) fun given => enough given r rfl
  | cons call rest ih =>
    have looked := twin.look
    have readyLook (given : consent = true) : Ready setup.team caller r'.look := (ready given).look
    simp only [processCalls, looked.cancel] at enough ⊢
    by_cases stopped : r'.look.cancel.requested = true
    · simp only [if_pos stopped]
      exact .same (looked.recordCancelled setup now caller (call :: rest)) fun given =>
        ((readyLook given).recordCancelled (setup.atTime now) (call :: rest)).idle
    simp only [if_neg stopped] at enough ⊢
    have announced : Twin consent told sent (r.look.announce caller call)
        (r'.look.announce caller call) := looked.emit _
    have readyCall (given : consent = true) :
        Ready setup.team caller (r'.look.announce caller call) := (readyLook given).announce call
    by_cases transfer : call.name = Handoff.toolName
    · simp only [if_pos transfer] at enough ⊢
      exact ih room (announced.handoff setup now caller call)
        (fun given => (readyCall given).handoff (setup.atTime now) call) enough
    simp only [if_neg transfer] at enough ⊢
    have tools : toolsOf (setup.atTime now) caller = toolsOf setup caller := rfl
    rw [tools]
    cases found : (toolsOf setup caller).get? call.name with
    | none =>
      simp only [found] at enough ⊢
      exact ih room (announced.recordResult setup now caller call _ _ _ _)
        (fun given => (readyCall given).recordResult (setup.atTime now) call _ _ _) enough
    | some tool =>
      simp only [found] at enough ⊢
      have executed := @ih now told sent left' _ _ room
        (announced.execute setup now caller call false false)
        fun given => (readyCall given).execute (setup.atTime now) call false
      rcases announced.approvalOf call.name with ⟨same, never⟩ | ⟨given, approved, asks⟩
      · rw [same] at enough never ⊢
        cases approval : (r'.look.announce caller call).session.approvalOf call.name with
        | approved =>
          simp only [approval] at enough ⊢
          exact executed enough
        | denied =>
          simp only [approval] at enough ⊢
          exact ih room (announced.recordResult setup now caller call _ _ _ _)
            (fun given => (readyCall given).recordResult (setup.atTime now) call _ _ _) enough
        | ask =>
          cases needs : tool.requiresApproval with
          | false =>
            simp only [approval, needs] at enough ⊢
            exact executed enough
          | true =>
            simp only [approval, needs] at enough ⊢
            exact .same (announced.suspend caller call rest) fun given =>
              absurd approval (never given)
      · -- Only here the two differ: one goes on with the call, the other asks and is suspended.
        simp only [approved, asks] at enough ⊢
        cases needs : tool.requiresApproval with
        | false => exact executed enough
        | true =>
          have again := announced.reopened (readyCall given) (Bool.eq_false_iff.mpr stopped)
          have fresh : Room setup consent left setup.config.maxIterations :=
            ⟨room.most given, fun refused => by simp [given] at refused, room.most⟩
          refine .asked given (readyCall given).alone fun later => ?_
          rw [work_accept]
          exact ih fresh (again.execute setup later caller call false true)
            (fun _ => (readyCall given).reopened.execute (setup.atTime later) call true) enough

theorem loop_matches_of_stopped {left left' : Nat} {now : Timestamp} {told : List Event}
    {sent : List (String × Model.Request)} {r r' : Run σ} (twin : Twin consent told sent r r')
    (idle : consent = true → r'.session.pending = none)
    (stopped : r.look.cancel.requested = true) :
    Matches setup consent told sent (loop setup left r) (loop (setup.atTime now) left' r') := by
  have stopped' : r'.look.cancel.requested = true := by
    rw [← twin.look.cancel]
    exact stopped
  rw [loop_of_stopped stopped, loop_of_stopped stopped']
  exact .same twin.look idle

theorem loop_matches (left : Nat) : ∀ {now : Timestamp} {told : List Event}
    {sent : List (String × Model.Request)} {left' : Nat} {r r' : Run σ},
    Room setup consent left left' → Twin consent told sent r r' →
    (consent = true → Ready setup.team r'.agent r') → (consent = true → Enough setup left r) →
    Matches setup consent told sent (loop setup left r) (loop (setup.atTime now) left' r') := by
  induction left with
  | zero =>
    intro now told sent left' r r' room twin ready enough
    by_cases stopped : r.look.cancel.requested = true
    · exact loop_matches_of_stopped twin (fun given => (ready given).idle) stopped
    · -- With a limit that is enough, a run that goes on is not at its end.
      cases consent with
      | true => exact absurd (enough rfl) stopped
      | false =>
        have going : ¬ r'.look.cancel.requested = true := by
          rw [← twin.look.cancel]
          exact stopped
        obtain rfl := room.same rfl
        simp only [loop, if_neg stopped, if_neg going]
        exact .same twin.look (by simp)
  | succ left ih =>
    intro now told sent left' r r' room twin ready enough
    -- The second run was given at least as many turns, so it has one more, too.
    obtain ⟨left', rfl⟩ : ∃ n, left' = n + 1 := ⟨left' - 1, by have := room.le; omega⟩
    have less : Room setup consent left left' :=
      ⟨by have := room.le; omega, fun no => by have := room.same no; omega,
        fun given => by have := room.most given; omega⟩
    by_cases stopped : r.look.cancel.requested = true
    · exact loop_matches_of_stopped twin (fun given => (ready given).idle) stopped
    have stopped' : ¬ r'.look.cancel.requested = true := by
      rw [← twin.look.cancel]
      exact stopped
    obtain ⟨asked, same⟩ := twin.look.callModel setup now
    have readyAsked (given : consent = true) :=
      ((ready given).look.callModel (setup.atTime now)).next
    simp only [Enough] at enough
    cases called : Run.callModel setup r.look with
    | mk q x =>
      cases called' : Run.callModel (setup.atTime now) r'.look with
      | mk q' x' =>
        simp only [called, called'] at asked same readyAsked enough
        subst same
        cases x with
        | error outcome =>
          rw [loop_of_failed stopped called, loop_of_failed stopped' called']
          exact .same asked fun given => (readyAsked given).idle
        | ok turn =>
          cases calls : turn.calls with
          | nil =>
            rw [loop_of_answered stopped called calls, loop_of_answered stopped' called' calls]
            exact .same asked fun given => (readyAsked given).idle
          | cons call rest =>
            rw [loop_of_called stopped called calls, loop_of_called stopped' called' calls,
              asked.agent]
            refine calls_match ih q'.agent (call :: rest) less asked readyAsked ?_
            intro given q₁ went
            refine enough given (by simpa using stopped) turn q₁ rfl ?_ ?_
            · rw [calls]; simp
            · rw [calls, asked.agent]; exact went

/-- Without consent on either side there is nothing to tell twins apart. -/
theorem Matches.twins {told : List Event} {sent : List (String × Model.Request)}
    {x x' : Run σ × Outcome} (h : Matches setup false told sent x x') :
    Twin false told sent x.1 x'.1 ∧ x.2 = x'.2 := by
  cases h with
  | same twin => exact ⟨twin, rfl⟩
  | asked given => cases given

end

end Run

/-! ## Suggestions -/

namespace Suggestions

open Run

theorem sessionOf_bare (config : SuggestionsConfig) (lastUser lastAssistant : String)
    (now now' : Timestamp) : (sessionOf config lastUser lastAssistant now).bare =
      (sessionOf config lastUser lastAssistant now').bare := rfl

theorem drive_atTime (setup : Setup σ) (now : Timestamp) {r r' : Run σ}
    (twin : Twin false [] [] r r') :
    Twin false [] [] (drive setup id none r) (drive (setup.atTime now) id none r') := by
  have room : Room setup false setup.config.maxIterations setup.config.maxIterations :=
    ⟨Nat.le_refl _, fun _ => rfl, by simp⟩
  have matched : Matches setup false [] [] (work setup none r) (work (setup.atTime now) none r') :=
    loop_matches _ room twin (by simp) (by simp)
  obtain ⟨worked, same⟩ := matched.twins
  have ended := worked.finish setup now id id (fun h => h) (work setup none r).2
  simpa only [drive, ← same] using ended

theorem generate_atTime (m : Model σ) (lastUser lastAssistant : String) (config : SuggestionsConfig)
    (here : Surroundings) (now now' : Timestamp) (c : Cancellation) (world : σ) :
    let x := generate m lastUser lastAssistant config here now c world
    let y := generate m lastUser lastAssistant config here now' c world
    x.suggestions = y.suggestions ∧ x.world = y.world ∧ x.expired = y.expired ∧
      requestsIn x.journal = requestsIn y.journal := by
  intro x y
  simp only [x, y, generate]
  split
  · exact ⟨rfl, rfl, rfl, rfl⟩
  split
  · exact ⟨rfl, rfl, rfl, rfl⟩
  rename_i team _
  have begun : Twin false [] []
      ({ session := sessionOf config lastUser lastAssistant now
         agent := team.root.name, cancel := c, world } : Run σ)
      { session := sessionOf config lastUser lastAssistant now'
        agent := team.root.name, cancel := c, world } :=
    ⟨sessionOf_bare _ _ _ now now', rfl, rfl, rfl, rfl, rfl, rfl, rfl, rfl⟩
  have start (now : Timestamp) :
      (⟨team, runConfig, here, now⟩ : Setup σ).start
        (sessionOf config lastUser lastAssistant now) c world =
      (team.agent team.root.name).map fun _ =>
        { session := sessionOf config lastUser lastAssistant now
          agent := team.root.name, cancel := c, world } := by
    have idle : (sessionOf config lastUser lastAssistant now).pending.isSome = false := rfl
    have first : (⟨team, runConfig, here, now⟩ : Setup σ).firstAgent
        (sessionOf config lastUser lastAssistant now) = team.root.name := rfl
    simp only [Setup.start, idle, first, Bool.false_eq_true, if_false]
    cases team.agent team.root.name <;> rfl
  rw [start, start]
  cases team.agent team.root.name with
  | error e => exact ⟨rfl, rfl, rfl, rfl⟩
  | ok a =>
    have ended := drive_atTime ⟨team, runConfig, here, now⟩ now' begun
    have atTime : (⟨team, runConfig, here, now⟩ : Setup σ).atTime now' =
      ⟨team, runConfig, here, now'⟩ := rfl
    rw [atTime] at ended
    have events := ended.events
    rw [List.nil_append] at events
    have asked := ended.requests
    rw [List.nil_append] at asked
    simp only [Except.map]
    refine ⟨?_, ended.world, congrArg (·.expired) ended.cancel, asked⟩
    simp only [events, ended.lastContent]

end Suggestions

theorem Run.Twin.followUp (setup : Setup σ) (now : Timestamp) {consent : Bool} {told : List Event}
    {sent : List (String × Model.Request)} {r r' : Run σ} (h : Run.Twin consent told sent r r') :
    Run.Twin consent told sent (Run.followUp setup r) (Run.followUp (setup.atTime now) r') := by
  have team : (setup.atTime now).team = setup.team := rfl
  have config : (setup.atTime now).config = setup.config := rfl
  have here : (setup.atTime now).here = setup.here := rfl
  have moment : (setup.atTime now).now = now := rfl
  unfold Run.followUp
  simp only [team, config, here, moment, h.agent, h.cancel, h.world, h.lastContent]
  split
  · split
    · exact h
    · rename_i a _
      obtain ⟨suggestions, world, expired, asked⟩ := Suggestions.generate_atTime a.model
        (r'.session.lastContent .user) (r'.session.lastContent .assistant)
        setup.config.suggestions setup.here setup.now now
        { r'.cancel with deadline := some setup.config.suggestions.timeout } r'.world
      simp only [suggestions, world, expired]
      split
      · exact { h with agent := rfl, cancel := rfl, world := rfl, aside := asked }
      · refine emit ?_ _
        exact { h with agent := rfl, cancel := rfl, world := rfl, aside := asked }
  · exact h

end Ensemble
