import Ensemble.Proofs.Run.Effects
import Ensemble.Proofs.Session.Bare

/-!
# Twins

Two runs are twins if no model and no tool can tell them apart: their worlds are the same, and their
sessions up to times and the user's consent (`Twin`). Each operation of a run takes twins to twins,
whatever the time is. Only what is to be done with a call can differ, and that in one way: a run with
consent goes on where its twin has to ask (`Twin.approvalOf`).

One of the twins may have a past that the other one does not have: the events it has told and the
requests it has sent.
-/

namespace Ensemble

open Session Time

variable {σ : Type}

def Setup.atTime (setup : Setup σ) (now : Timestamp) : Setup σ := { setup with now }

def Activity.request? : Activity → Option (String × Model.Request)
  | .asked agent request | .summaryAsked agent request => some (agent, request)
  | _ => none

def requestsIn (j : List Activity) : List (String × Model.Request) := j.filterMap Activity.request?

theorem requestsIn_append (j k : List Activity) :
    requestsIn (j ++ k) = requestsIn j ++ requestsIn k := List.filterMap_append

theorem Setup.summarize_atTime (setup : Setup σ) (now : Timestamp) {s s' : Session}
    (h : s.bare = s'.bare) (agent : String) (c : Cancellation) (world : σ) :
    let x := setup.summarize s agent c world
    let y := (setup.atTime now).summarize s' agent c world
    x.outcome = y.outcome ∧ x.session.bare = y.session.bare ∧ x.cancel = y.cancel ∧
      x.world = y.world ∧ x.journal = y.journal := by
  have asked (a : Agent σ) : Summary.request? setup.here s a setup.team =
      Summary.request? setup.here s' a setup.team := by
    rw [← Summary.request?_bare, h, Summary.request?_bare]
  have team : (setup.atTime now).team = setup.team := rfl
  have here : (setup.atTime now).here = setup.here := rfl
  intro x y
  simp only [x, y, summarize, team, here, asked]
  split
  · exact ⟨rfl, h, rfl, rfl, rfl⟩
  rename_i a _
  split
  · exact ⟨rfl, h, rfl, rfl, rfl⟩
  split
  · exact ⟨rfl, h, rfl, rfl, rfl⟩
  split
  · exact ⟨rfl, h, rfl, rfl, rfl⟩
  rename_i reading _
  obtain ⟨said, left⟩ := Summary.commit_bare s a.model reading setup.now
  obtain ⟨said', left'⟩ := Summary.commit_bare s' a.model reading now
  rw [h] at said left
  exact ⟨congrArg Except.ok (said.trans said'.symm), left.trans left'.symm, rfl, rfl, rfl⟩

namespace Run

/-- The run `r` goes on like `r'`, after it has told and sent something more. The user has given
consent in `r`, if anywhere. -/
structure Twin (consent : Bool) (told : List Event) (sent : List (String × Model.Request))
    (r r' : Run σ) : Prop where
  session : r.session.bare = r'.session.bare
  agent : r.agent = r'.agent
  cancel : r.cancel = r'.cancel
  world : r.world = r'.world
  events : r.events = told ++ r'.events
  requests : requestsIn r.journal = sent ++ requestsIn r'.journal
  aside : requestsIn r.aside = requestsIn r'.aside
  consented : r.session.toolsApproved = consent
  unasked : r'.session.toolsApproved = false

namespace Twin

variable {consent : Bool} {told : List Event} {sent : List (String × Model.Request)} {r r' : Run σ}

theorem look (h : Twin consent told sent r r') : Twin consent told sent r.look r'.look :=
  { h with cancel := congrArg Cancellation.look h.cancel }

theorem emit (h : Twin consent told sent r r') (e : Event) :
    Twin consent told sent (r.emit e) (r'.emit e) :=
  { h with events := by simp [Run.emit, h.events] }

theorem note (h : Twin consent told sent r r') {a a' : Activity} (same : a.request? = a'.request?) :
    Twin consent told sent (r.note a) (r'.note a') :=
  { h with
    requests := by
      have one : requestsIn [a] = requestsIn [a'] := by simp only [requestsIn, List.filterMap, same]
      simp only [Run.note, requestsIn_append, h.requests, one, List.append_assoc] }

variable (setup : Setup σ) (now : Timestamp)

theorem say (h : Twin consent told sent r r') (author : String) (m : Message) :
    Twin consent told sent (r.say setup author m) (r'.say (setup.atTime now) author m) :=
  { h with session := by simp only [Run.say, bare_add, h.session] }

theorem recordResult (h : Twin consent told sent r r') (caller : String) (call : ToolCall)
    (how how' : Settlement) (content : String) (isError : Bool) :
    Twin consent told sent (r.recordResult setup caller call how content isError)
      (r'.recordResult (setup.atTime now) caller call how' content isError) := by
  have noted : Twin consent told sent (r.note (.settled caller call how))
      (r'.note (.settled caller call how')) := h.note rfl
  exact (noted.say setup now caller (.toolResult call.id content)).emit _

theorem recordCancelled (h : Twin consent told sent r r') (caller : String)
    (queue : List ToolCall) :
    Twin consent told sent (r.recordCancelled setup caller queue)
      (r'.recordCancelled (setup.atTime now) caller queue) := by
  induction queue generalizing r r' with
  | nil => exact h
  | cons call rest ih => exact ih (h.recordResult setup now caller call _ _ cancelledText true)

theorem execute (h : Twin consent told sent r r') (caller : String) (call : ToolCall)
    (accepted accepted' : Bool) :
    Twin consent told sent (r.execute setup caller call accepted)
      (r'.execute (setup.atTime now) caller call accepted') := by
  have reply : r.look.callReply setup caller call =
      r'.look.callReply (setup.atTime now) caller call := by
    simp only [callReply, h.look.cancel, h.look.world]
    rfl
  unfold Run.execute
  simp only [reply]
  refine recordResult setup now ?_ caller call _ _ _ _
  exact { h with world := rfl, cancel := by rw [h.look.cancel] }

theorem switchTo (h : Twin consent told sent r r') (caller : String) (args : Handoff.Arguments) :
    Twin consent told sent (r.switchTo setup caller args)
      (r'.switchTo (setup.atTime now) caller args) := by
  have switched := (h.say setup now args.agent (.user (args.briefing caller))).emit
    (.agentSwitched caller args.agent)
  have moved := congrArg (fun s : Session => { s with activeAgent := some args.agent })
    switched.session
  exact { switched with session := moved, agent := rfl }

theorem handoff (h : Twin consent told sent r r') (caller : String) (call : ToolCall) :
    Twin consent told sent (r.handoff setup caller call)
      (r'.handoff (setup.atTime now) caller call) := by
  have team : (setup.atTime now).team = setup.team := rfl
  unfold Run.handoff
  cases transferArguments call with
  | error e => exact h.recordResult setup now caller call _ _ _ _
  | ok args =>
    simp only [team]
    split
    · exact (h.recordResult setup now caller call _ _ _ _).switchTo setup now caller args
    · exact h.recordResult setup now caller call _ _ _ _

theorem takeIn (h : Twin consent told sent r r') (i : Intake) :
    Twin consent told sent (r.takeIn i) (r'.takeIn i) :=
  { h with cancel := rfl, events := by simp [Run.takeIn, h.events, h.agent] }

theorem recordTurn (h : Twin consent told sent r r') (m : Model σ) (a : Assembly) :
    Twin consent told sent (r.recordTurn setup m a) (r'.recordTurn (setup.atTime now) m a) := by
  have noted : Twin consent told sent (r.note (.replied r.agent a.calls a.usage))
      (r'.note (.replied r'.agent a.calls a.usage)) := h.note rfl
  have said := noted.say setup now r.agent (.assistant a.text a.calls)
  unfold Run.recordTurn
  rw [h.agent] at said ⊢
  cases used : a.usage with
  | none =>
    rw [used] at said
    exact said
  | some usage =>
    rw [used] at said
    refine { said with session := ?_ }
    simp only [bare_recordUsage, bare_noteUsage, said.session]

theorem recordInterrupted (h : Twin consent told sent r r') (why : Interruption) (a : Assembly) :
    Twin consent told sent (r.recordInterrupted setup why a)
      (r'.recordInterrupted (setup.atTime now) why a) := by
  unfold Run.recordInterrupted
  split
  · rw [h.agent]
    exact h.say setup now r'.agent (.assistant a.text)
  · exact h

theorem view (h : Twin consent told sent r r') (here : Surroundings) (a : Agent σ) (t : Team σ) :
    View.of here r.session a t = View.of here r'.session a t := by
  rw [← View.of_bare, h.session, View.of_bare]

theorem lastContent (h : Twin consent told sent r r') (role : Role) :
    r.session.lastContent role = r'.session.lastContent role := by
  rw [← lastContent_bare, h.session, lastContent_bare]

theorem requestOf (h : Twin consent told sent r r') (a : Agent σ) :
    Run.requestOf setup r.session a = Run.requestOf (setup.atTime now) r'.session a := by
  unfold Run.requestOf
  rw [h.view]
  rfl

theorem send (h : Twin consent told sent r r') (request : Model.Request) (world : σ) :
    Twin consent told sent (r.send request world) (r'.send request world) := by
  have moved : Twin consent told sent { r with world } { r' with world } := { h with world := rfl }
  have same : (Activity.asked r.agent request).request? =
      (Activity.asked r'.agent request).request? := by rw [h.agent]
  exact moved.note same

theorem hear (h : Twin consent told sent r r') (m : Model σ)
    (reply : Except ModelError (List Model.Step)) :
    Twin consent told sent (Run.hear setup m r reply).1 (Run.hear (setup.atTime now) m r' reply).1 ∧
      (Run.hear setup m r reply).2 = (Run.hear (setup.atTime now) m r' reply).2 := by
  cases reply with
  | error e => exact ⟨h, rfl⟩
  | ok steps =>
    simp only [Run.hear, h.cancel]
    have taken := h.takeIn (Intake.read { cancel := r'.cancel } steps)
    cases (Intake.read { cancel := r'.cancel } steps).interruption with
    | some why => exact ⟨taken.recordInterrupted setup now why _, rfl⟩
    | none => exact ⟨taken.recordTurn setup now m _, rfl⟩

theorem callModel (h : Twin consent told sent r r') :
    Twin consent told sent (Run.callModel setup r).1 (Run.callModel (setup.atTime now) r').1 ∧
      (Run.callModel setup r).2 = (Run.callModel (setup.atTime now) r').2 := by
  have team : (setup.atTime now).team = setup.team := rfl
  unfold Run.callModel
  rw [team, h.agent]
  cases setup.team.agent r'.agent with
  | error e => exact ⟨h, rfl⟩
  | ok a =>
    simp only [h.requestOf setup now a, h.look.cancel, h.look.world]
    split
    · exact ⟨h.look, rfl⟩
    · exact (h.look.send _ _).hear setup now a.model _

theorem suspend (h : Twin consent told sent r r') (caller : String) (call : ToolCall)
    (rest : List ToolCall) :
    Twin consent told sent (r.suspend caller call rest) (r'.suspend caller call rest) := by
  have asked := h.emit (.elicitationRequest caller (consentText caller call.name) call)
  have waits := congrArg (fun s : Session => { s with pending := some ⟨caller, call :: rest⟩ })
    asked.session
  exact { asked with session := waits }

/-- Only where the user has given consent to one of the twins, what is to be done with a call
differs: the other one has to ask. -/
theorem approvalOf (h : Twin consent told sent r r') (name : String) :
    (r.session.approvalOf name = r'.session.approvalOf name ∧
        (consent = true → r.session.approvalOf name ≠ .ask)) ∨
      consent = true ∧ r.session.approvalOf name = .approved ∧
        r'.session.approvalOf name = .ask := by
  have same : r.session.permissions = r'.session.permissions := congrArg (·.permissions) h.session
  unfold Session.approvalOf
  rw [same, h.consented, h.unasked]
  cases consent <;> cases r'.session.permissions.deny.any (Session.patternMatches · name) <;>
    cases r'.session.permissions.allow.any (Session.patternMatches · name) <;> simp

/-! ## The end of a run -/

theorem needsCompaction (h : Twin consent told sent r r') :
    Run.needsCompaction setup r = Run.needsCompaction (setup.atTime now) r' := by
  unfold Run.needsCompaction
  simp only [h.agent, h.view]
  rfl

theorem compact (h : Twin consent told sent r r') :
    Twin consent told sent (Run.compact setup r) (Run.compact (setup.atTime now) r') := by
  unfold Run.compact
  rw [h.needsCompaction setup now]
  split
  · simp only [h.agent, h.cancel, h.world]
    obtain ⟨outcome, session, cancel, world, journal⟩ :=
      setup.summarize_atTime now h.session r'.agent r'.cancel r'.world
    have kept := (setup.summarize_summarises r.session r'.agent r'.cancel r'.world []).approved
    have kept' :=
      ((setup.atTime now).summarize_summarises r'.session r'.agent r'.cancel r'.world []).approved
    generalize setup.summarize r.session r'.agent r'.cancel r'.world = x at *
    generalize (setup.atTime now).summarize r'.session r'.agent r'.cancel r'.world = y at *
    have summarised : Twin consent told sent
        { r with session := x.session, cancel := x.cancel, world := x.world
                 journal := r.journal ++ x.journal, agent := r'.agent }
        { r' with session := y.session, cancel := y.cancel, world := y.world
                  journal := r'.journal ++ y.journal } :=
      { session, agent := rfl, cancel, world, events := h.events
        requests := by
          simp only [requestsIn_append, h.requests, journal, List.append_assoc]
        aside := h.aside
        consented := kept.trans h.consented
        unasked := kept'.trans h.unasked }
    rw [outcome]
    split
    · exact summarised.emit _
    · exact summarised
  · exact h

theorem doneEvent (h : Twin consent told sent r r') (reason : String) :
    r.doneEvent reason = r'.doneEvent reason := by
  have input : r.session.inputTokens = r'.session.inputTokens := congrArg (·.inputTokens) h.session
  have output : r.session.outputTokens = r'.session.outputTokens :=
    congrArg (·.outputTokens) h.session
  have cost : r.session.cost = r'.session.cost := congrArg (·.cost) h.session
  simp only [Run.doneEvent, h.agent, input, output, cost]

/-- Twins end alike if what they do between the summary and `done` keeps them twins. -/
theorem finish (h : Twin consent told sent r r') (followUp followUp' : Run σ → Run σ)
    (follows : ∀ {q q'}, Twin consent told sent q q' →
      Twin consent told sent (followUp q) (followUp' q')) (outcome : Outcome) :
    Twin consent told sent (Run.finish setup followUp outcome r)
      (Run.finish (setup.atTime now) followUp' outcome r') := by
  cases outcome with
  | suspended => exact h
  | cancelled => exact h.emit _
  | failed message => exact h.emit _
  | done reason =>
    have followed := follows (h.compact setup now)
    unfold Run.finish
    dsimp only
    rw [followed.doneEvent]
    exact followed.emit _

end Twin

end Run

end Ensemble
