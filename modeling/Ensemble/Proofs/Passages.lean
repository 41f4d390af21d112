import Ensemble.Proofs.Accounts
import Ensemble.Proofs.Endings
import Ensemble.Proofs.Growth
import Ensemble.Proofs.Handoffs

/-!
# What a run tells

A run speaks twice: it reports events while it works, and it adds items to the transcript. Both
come in passages, such as a reply, a result or a transfer, and a `Passage` says of each kind what is
reported, what is added, and what is noted in the journal. Whatever a run does is a list of
passages, and it announces no call twice (`Run.drive_told`).
-/

namespace Ensemble

open Time (Timestamp)

/-- What is left behind by a run, or by part of it. -/
@[ext] structure Trace where
  events : List Event := []
  items : List Session.Item := []
  journal : List Activity := []

namespace Trace

instance : Append Trace := ⟨fun a b =>
  ⟨a.events ++ b.events, a.items ++ b.items, a.journal ++ b.journal⟩⟩

variable (a b c : Trace)

@[simp] theorem events_append : (a ++ b).events = a.events ++ b.events := rfl

@[simp] theorem items_append : (a ++ b).items = a.items ++ b.items := rfl

@[simp] theorem journal_append : (a ++ b).journal = a.journal ++ b.journal := rfl

theorem append_assoc : a ++ b ++ c = a ++ (b ++ c) := by
  ext1 <;> simp

@[simp] theorem append_nil : a ++ ({} : Trace) = a := by
  ext1 <;> simp

end Trace

/-- Reported, but no part of the conversation. -/
def Event.isRemark : Event → Bool
  | .elicitationRequest .. | .followUpSuggestions .. | .error .. | .cancelled | .done .. => true
  | _ => false

def Message.billed (m : Message) : Option (Usage × Float × String) → Message
  | none => m
  | some (usage, cost, model) =>
    { m with usage := some usage, cost := some cost, model := some model }

inductive Passage where
  /-- A reply that came to its end. -/
  | answered (agent : String) (request : Model.Request) (pieces : List String)
      (calls : List ToolCall) (bill : Option (Usage × Float × String))
  /-- A request that was cancelled while the reply came in. -/
  | interrupted (agent : String) (request : Model.Request) (pieces : List String)
  | failed (agent : String) (request : Model.Request) (pieces : List String) (message : String)
  | started (caller : String) (call : ToolCall)
  | settled (caller : String) (call : ToolCall) (how : Settlement) (content : String)
      (isError : Bool)
  | switched (source target briefing : String)
  | compacted (agent : String) (request : Model.Request) (usage : Option Usage) (text : String)
  /-- A summary was asked for, but none came, or nothing was in it. -/
  | uncompacted (agent : String) (request : Model.Request) (reply : Option (Option Usage))
  | remarked (e : Event) (remark : e.isRemark = true)

namespace Passage

def trace (now : Timestamp) : Passage → Trace
  | .answered agent request pieces calls bill =>
    { events := pieces.map (.tokenDelta agent)
      items := [.message ⟨agent, (Message.assistant (String.join pieces) calls).billed bill, now⟩]
      journal := [.asked agent request, .replied agent calls (bill.map Prod.fst)] }
  | .interrupted agent request pieces =>
    { events := pieces.map (.tokenDelta agent) ++ [.cancelled]
      items := if String.join pieces = "" then []
        else [.message ⟨agent, .assistant (String.join pieces), now⟩]
      journal := [.asked agent request] }
  | .failed agent request pieces message =>
    { events := pieces.map (.tokenDelta agent) ++ [.error message]
      journal := [.asked agent request] }
  | .started caller call => { events := [.toolCallStarted caller call] }
  | .settled caller call how content isError =>
    { events := [.resultOf caller call content isError]
      items := [.message ⟨caller, .toolResult call.id content, now⟩]
      journal := [.settled caller call how] }
  | .switched source target briefing =>
    { events := [.agentSwitched source target]
      items := [.message ⟨target, .user briefing, now⟩] }
  | .compacted agent request usage text =>
    { events := [.sessionCompacted agent text]
      items := [.summary text now]
      journal := [.summaryAsked agent request, .summaryReplied agent usage] }
  | .uncompacted agent request reply =>
    { journal := .summaryAsked agent request :: (reply.map (Activity.summaryReplied agent)).toList }
  | .remarked e _ => { events := [e] }

def traces (now : Timestamp) (ps : List Passage) : Trace :=
  ps.foldr (fun p t => p.trace now ++ t) {}

variable {now : Timestamp}

@[simp] theorem traces_nil : traces now [] = {} := rfl

@[simp] theorem traces_cons (p : Passage) (ps : List Passage) :
    traces now (p :: ps) = p.trace now ++ traces now ps := rfl

@[simp] theorem traces_append (ps qs : List Passage) :
    traces now (ps ++ qs) = traces now ps ++ traces now qs := by
  induction ps with
  | nil => rfl
  | cons p ps ih => simp only [List.cons_append, traces_cons, ih, Trace.append_assoc]

end Passage

namespace Run

variable {σ : Type} {setup : Setup σ}

def trace (r : Run σ) : Trace := ⟨r.events, r.session.items, r.journal⟩

/-- What the run does from here to there is told by these passages. -/
def Told (setup : Setup σ) (ps : List Passage) (r r' : Run σ) : Prop :=
  r'.trace = r.trace ++ Passage.traces setup.now ps

namespace Told

theorem nil (r : Run σ) : Told setup [] r r := by
  simp [Told]

theorem append {ps qs : List Passage} {r r' r'' : Run σ} (h : Told setup ps r r')
    (h' : Told setup qs r' r'') : Told setup (ps ++ qs) r r'' := by
  unfold Told at h h' ⊢
  rw [h', h, Passage.traces_append, Trace.append_assoc]

end Told

variable (setup)

theorem told_remark {e : Event} (remark : e.isRemark = true) (r : Run σ) :
    Told setup [.remarked e remark] r (r.emit e) := by
  ext1 <;> simp [trace, emit, Passage.trace]

theorem told_announce (caller : String) (call : ToolCall) (r : Run σ) :
    Told setup [.started caller call] r (r.announce caller call) := by
  ext1 <;> simp [trace, announce, emit, Passage.trace]

theorem told_recordResult (caller : String) (call : ToolCall) (how : Settlement)
    (content : String) (isError : Bool) (r : Run σ) :
    Told setup [.settled caller call how content isError] r
      (r.recordResult setup caller call how content isError) := by
  ext1 <;> simp [trace, recordResult, note, say, emit, Passage.trace]

theorem told_execute (caller : String) (call : ToolCall) (accepted : Bool) (r : Run σ) :
    ∃ content isError, Told setup
      [.settled caller call (.executed (r.session.approvalOf call.name) accepted) content isError]
      r (r.execute setup caller call accepted) := by
  obtain ⟨world, cancel, content, isError, same⟩ :=
    execute_eq_recordResult setup caller call r accepted
  rw [same]
  exact ⟨content, isError, told_recordResult setup _ _ _ _ _ { r with world, cancel }⟩

def givenUp (caller : String) (call : ToolCall) : Passage :=
  .settled caller call .cancelled cancelledText true

theorem told_recordCancelled (caller : String) (queue : List ToolCall) (r : Run σ) :
    Told setup (queue.map (givenUp caller)) r (r.recordCancelled setup caller queue) := by
  induction queue generalizing r with
  | nil => exact .nil r
  | cons call rest ih =>
    have first := told_recordResult setup caller call .cancelled cancelledText true r
    exact first.append (ih _)

theorem told_handoff (caller : String) (call : ToolCall) (r : Run σ) :
    ∃ text isError switch, Told setup
      (.settled caller call .transfer text isError :: switch) r (r.handoff setup caller call) ∧
        (switch = [] ∨ ∃ target briefing, switch = [.switched caller target briefing]) := by
  rcases handoff_cases setup caller call r with ⟨text, same⟩ | ⟨args, -, same⟩
  · rw [same]
    exact ⟨text, true, [], told_recordResult setup _ _ _ _ _ r, .inl rfl⟩
  · rw [same]
    refine ⟨transferredText args.agent, false,
      [.switched caller args.agent (args.briefing caller)], ?_, .inr ⟨_, _, rfl⟩⟩
    ext1 <;> simp [trace, switchTo, recordResult, note, say, emit, Passage.trace]

theorem told_suspend (caller : String) (call : ToolCall) (rest : List ToolCall) (r : Run σ) :
    Told setup [.remarked (.elicitationRequest caller (consentText caller call.name) call) rfl] r
      (r.suspend caller call rest) :=
  told_remark setup rfl r

/-! ## Requests -/

theorem recordTurn_trace (m : Model σ) (a : Assembly) (r : Run σ) :
    ∃ bill : Option (Usage × Float × String), (r.recordTurn setup m a).trace = r.trace ++
      { items := [.message ⟨r.agent, (Message.assistant a.text a.calls).billed bill, setup.now⟩]
        journal := [.replied r.agent a.calls (bill.map Prod.fst)] } := by
  cases used : a.usage with
  | none =>
    refine ⟨none, ?_⟩
    ext1 <;> simp [trace, recordTurn, used, note, say, Message.billed]
  | some usage =>
    refine ⟨some (usage, m.costOf usage, m.model), ?_⟩
    let reply : Session.Item := .message ⟨r.agent, .assistant a.text a.calls, setup.now⟩
    have isReply : Session.isAssistant reply = true := rfl
    have noted := Session.changeLast_concat r.session.items isReply
      (f := Session.Item.withUsage usage (m.costOf usage) m.model)
    ext1
    · simp [trace, recordTurn, used, note, say]
    · simp only [trace, recordTurn, used]
      exact noted
    · simp [trace, recordTurn, used, note, say]

theorem told_answered (m : Model σ) (request : Model.Request) (world : σ) {intake : Intake}
    (joined : intake.Joined) (r : Run σ) :
    ∃ bill, Told setup [.answered r.agent request intake.pieces intake.assembly.calls bill] r
      (((r.look.look.send request world).takeIn intake).recordTurn setup m intake.assembly) := by
  obtain ⟨bill, turn⟩ := recordTurn_trace setup m intake.assembly
    ((r.look.look.send request world).takeIn intake)
  refine ⟨bill, turn.trans ?_⟩
  rw [joined]
  ext1 <;> simp [trace, takeIn, send, note, look, Passage.trace]

/-- The event a run ends with if it did not come to its end. -/
def Stage.lastWord : Stage → List Event
  | .closed .cancelled => [.cancelled]
  | .closed (.failed message) => [.error message]
  | _ => []

def traceAt (x : Stage × Run σ) : Trace := x.2.trace ++ { events := x.1.lastWord }

theorem traceAt_of_silent {x : Stage} (silent : x.lastWord = []) (r : Run σ) :
    traceAt (x, r) = r.trace := by
  unfold traceAt
  rw [silent]
  exact Trace.append_nil _

theorem traceAt_broken (why : Interruption) (provider : String) (request : Model.Request)
    (world : σ) {intake : Intake} (joined : intake.Joined) (r : Run σ) :
    ∃ p : Passage, (p = .interrupted r.agent request intake.pieces ∨
        ∃ message, p = .failed r.agent request intake.pieces message) ∧
      traceAt (.closed (why.outcome provider),
        ((r.look.look.send request world).takeIn intake).recordInterrupted setup why
          intake.assembly) = r.trace ++ p.trace setup.now := by
  by_cases cancelled : why = .cancelled
  · subst cancelled
    refine ⟨_, .inl rfl, ?_⟩
    unfold recordInterrupted
    rw [joined]
    by_cases silent : String.join intake.pieces = ""
    · ext1 <;> simp [silent, traceAt, Stage.lastWord, Interruption.outcome, trace, takeIn, send,
        note, look, Passage.trace]
    · ext1 <;> simp [silent, traceAt, Stage.lastWord, Interruption.outcome, trace, takeIn, send,
        note, look, say, Passage.trace]
  · obtain ⟨message, failed⟩ : ∃ message, why.outcome provider = .failed message := by
      cases why with
      | cancelled => exact absurd rfl cancelled
      | failed e => exact ⟨_, rfl⟩
      | reported message => exact ⟨_, rfl⟩
    refine ⟨_, .inr ⟨message, rfl⟩, ?_⟩
    rw [recordInterrupted_eq_self (.inl cancelled), failed]
    ext1 <;> simp [traceAt, Stage.lastWord, trace, takeIn, send, note, look, Passage.trace]

end Run

/-! ## Calls on their way -/

def Event.started? : Event → Option (String × ToolCall)
  | .toolCallStarted caller call => some (caller, call)
  | _ => none

def startedIn (events : List Event) : List (String × ToolCall) := events.filterMap Event.started?

@[simp] theorem startedIn_append (es fs : List Event) :
    startedIn (es ++ fs) = startedIn es ++ startedIn fs := List.filterMap_append

@[simp] theorem startedIn_pieces (agent : String) (pieces : List String) :
    startedIn (pieces.map (Event.tokenDelta agent)) = [] := by
  simp [startedIn, Event.started?]

namespace Run

variable {σ : Type} {setup : Setup σ}

def unstarted : Stage × Run σ → List (String × ToolCall)
  | (.answering _ pending _, _) => pending.calls.tail.map (pending.agent, ·)
  | (.calling _ caller queue, _) => queue.map (caller, ·)
  | (.closed .suspended, r) => r.session.outstanding.tail
  | _ => []

/-- What the run does between two stages is told by these passages, and announces of the calls
that are issued only such as were not announced before. -/
structure Tells (setup : Setup σ) (ps : List Passage) (x y : Stage × Run σ) : Prop where
  trace : traceAt y = traceAt x ++ Passage.traces setup.now ps
  calls : (startedIn (Passage.traces setup.now ps).events ++ unstarted y).Sublist
    (unstarted x ++ issuedIn (Passage.traces setup.now ps).journal)

namespace Tells

variable {ps qs : List Passage} {x y z : Stage × Run σ}

theorem nil (x : Stage × Run σ) : Tells setup [] x x := by
  constructor
  · simp
  · simp [startedIn, issuedIn]

theorem append (h : Tells setup ps x y) (h' : Tells setup qs y z) : Tells setup (ps ++ qs) x z := by
  constructor
  · rw [h'.trace, h.trace, Passage.traces_append, Trace.append_assoc]
  · simp only [Passage.traces_append, Trace.events_append, Trace.journal_append, startedIn_append,
      issuedIn_append]
    have first := h.calls.append_right (issuedIn (Passage.traces setup.now qs).journal)
    have second := h'.calls.append_left (startedIn (Passage.traces setup.now ps).events)
    simp only [List.append_assoc] at first second ⊢
    exact second.trans first

theorem of_told {x y : Stage} {r r' : Run σ} (told : Told setup ps r r')
    (before : x.lastWord = []) (after : y.lastWord = [])
    (calls : (startedIn (Passage.traces setup.now ps).events ++ unstarted (y, r')).Sublist
      (unstarted (x, r) ++ issuedIn (Passage.traces setup.now ps).journal)) :
    Tells setup ps (x, r) (y, r') := by
  refine ⟨?_, calls⟩
  rw [traceAt_of_silent before, traceAt_of_silent after, told]

/-- Where a run ends, unless it is suspended, nothing is left to be announced. -/
theorem of_closed {x : Stage} {outcome : Outcome} {r r' : Run σ} (silent : x.lastWord = [])
    (ends : outcome ≠ .suspended)
    (trace : traceAt (.closed outcome, r') = r.trace ++ Passage.traces setup.now ps)
    (starts : startedIn (Passage.traces setup.now ps).events = []) :
    Tells setup ps (x, r) (.closed outcome, r') := by
  constructor
  · rw [trace, traceAt_of_silent silent]
  · have nothing : unstarted (.closed outcome, r') = [] := by
      cases outcome with
      | suspended => exact absurd rfl ends
      | done | cancelled | failed => rfl
    rw [starts, nothing]
    exact List.nil_sublist _

end Tells

theorem givenUp_quiet (now : Timestamp) (caller : String) (queue : List ToolCall) :
    startedIn (Passage.traces now (queue.map (givenUp caller))).events = [] := by
  induction queue with
  | nil => rfl
  | cons call rest ih =>
    simp only [List.map_cons, Passage.traces_cons, Trace.events_append, startedIn_append, ih]
    rfl

theorem tells_givenUp {x : Stage} (silent : x.lastWord = []) {caller : String}
    {queue : List ToolCall} {r r' : Run σ} (same : r'.trace = r.trace) :
    Tells setup (queue.map (givenUp caller) ++ [.remarked .cancelled rfl]) (x, r)
      (.closed .cancelled, r'.recordCancelled setup caller queue) := by
  refine .of_closed silent (by simp) ?_ ?_
  · rw [← same, Passage.traces_append, ← Trace.append_assoc, ← told_recordCancelled]
    rfl
  · rw [Passage.traces_append, Trace.events_append, startedIn_append, givenUp_quiet]
    rfl

theorem tells_broken {x : Stage} (silent : x.lastWord = []) (why : Interruption)
    (provider : String) (request : Model.Request) (world : σ) {intake : Intake}
    (joined : intake.Joined) {r r' : Run σ}
    (same : r'.trace = (((r.look.look.send request world).takeIn intake).recordInterrupted setup
      why intake.assembly).trace) :
    ∃ ps, Tells setup ps (x, r) (.closed (why.outcome provider), r') := by
  obtain ⟨p, kind, trace⟩ := traceAt_broken setup why provider request world joined r
  unfold traceAt at trace
  rw [← same] at trace
  refine ⟨[p], .of_closed silent ?_ ?_ ?_⟩
  · cases why <;> simp [Interruption.outcome]
  · rw [Passage.traces_cons, Passage.traces_nil, Trace.append_nil]
    exact trace
  · rcases kind with rfl | ⟨message, rfl⟩ <;> simp [Passage.trace, startedIn, Event.started?]

theorem tells_settled {left : Nat} {caller : String} {call : ToolCall} {rest : List ToolCall}
    {how : Settlement} {content : String} {isError : Bool} {switch : List Passage} {r r' : Run σ}
    (switched : switch = [] ∨ ∃ target briefing, switch = [.switched caller target briefing])
    (told : Told setup (.settled caller call how content isError :: switch)
      (r.look.announce caller call) r') :
    Tells setup (.started caller call :: .settled caller call how content isError :: switch)
      (.calling left caller (call :: rest), r) (.calling left caller rest, r') := by
  have announced : Told setup [.started caller call] r (r.look.announce caller call) :=
    told_announce setup caller call r.look
  refine .of_told (announced.append told) rfl rfl ?_
  rcases switched with rfl | ⟨target, briefing, rfl⟩ <;>
    simp [Passage.trace, startedIn, Event.started?, Event.resultOf, issuedIn, Activity.issued,
      unstarted]

theorem Step.tells {x y : Stage × Run σ} (h : Step setup x y) : ∃ ps, Tells setup ps x y := by
  -- The call that the user was asked about was announced before, so only later ones are announced.
  cases h with
  | idle => exact ⟨[], .of_told (.nil _) rfl rfl (List.nil_sublist _)⟩
  | @accepted left caller call rest answer r yes =>
    obtain ⟨r', same, told⟩ : ∃ r', (if answer.approvesSession then r.approveAll else r) = r' ∧
        r'.trace = r.trace := by
      split <;> exact ⟨_, rfl, rfl⟩
    obtain ⟨content, isError, executed⟩ := told_execute setup caller call true r'
    rw [same]
    rw [Told, told] at executed
    refine ⟨_, .of_told (r := r) executed rfl rfl ?_⟩
    simp [Passage.trace, startedIn, Event.started?, Event.resultOf, unstarted]
  | @declined left caller call rest answer r no =>
    refine ⟨_, .of_told (told_recordResult setup _ _ _ _ _ r) rfl rfl ?_⟩
    simp [Passage.trace, startedIn, Event.started?, Event.resultOf, unstarted]
  | abandoned off => exact ⟨_, tells_givenUp rfl rfl⟩
  | stopped => exact ⟨[.remarked .cancelled rfl], .of_closed rfl (by simp) rfl rfl⟩
  | exhausted => exact ⟨[], .of_closed rfl (by simp) rfl rfl⟩
  | @lost left r e => exact ⟨[.remarked (.error e.message) rfl], .of_closed rfl (by simp) rfl rfl⟩
  | withdrawn => exact ⟨[.remarked .cancelled rfl], .of_closed rfl (by simp) rfl rfl⟩
  | @refused left r a e world found reply =>
    -- Nothing was taken in before the error.
    have nothing : Intake.Joined { cancel := r.look.look.cancel } := rfl
    refine tells_broken rfl (.ofError e) a.model.name (requestOf setup r.session a) world nothing ?_
    rw [recordInterrupted_eq_self (.inr rfl)]
    ext1 <;> simp [trace, takeIn]
  | @interrupted left r a steps world intake why found reply read broken =>
    subst read
    exact tells_broken rfl why _ _ _ (Intake.read_joined _ _) rfl
  | @answered left r a steps world intake found reply read whole final =>
    subst read
    obtain ⟨bill, told⟩ := told_answered setup a.model (requestOf setup r.session a)
      world (Intake.read_joined r.look.look.cancel steps) r
    refine ⟨_, .of_told told rfl rfl ?_⟩
    simp [Passage.trace, unstarted]
  | @called left r a steps world intake found reply read whole more =>
    subst read
    obtain ⟨bill, told⟩ := told_answered setup a.model (requestOf setup r.session a)
      world (Intake.read_joined r.look.look.cancel steps) r
    refine ⟨_, .of_told told rfl rfl ?_⟩
    simp [Passage.trace, unstarted, issuedIn, Activity.issued]
  | finished => exact ⟨[], .of_told (.nil _) rfl rfl (List.nil_sublist _)⟩
  | @dropped left caller call rest r cancelled => exact ⟨_, tells_givenUp rfl rfl⟩
  | transferred =>
    obtain ⟨text, isError, switch, told, switched⟩ := told_handoff setup _ _ _
    exact ⟨_, tells_settled switched told⟩
  | unknown => exact ⟨_, tells_settled (.inl rfl) (told_recordResult setup _ _ _ _ _ _)⟩
  | denied => exact ⟨_, tells_settled (.inl rfl) (told_recordResult setup _ _ _ _ _ _)⟩
  | @suspended left caller call rest r tool found asks careful =>
    have announced : Told setup [.started caller call] r (r.look.announce caller call) :=
      told_announce setup caller call r.look
    refine ⟨_, .of_told (announced.append (told_suspend setup caller call rest _)) rfl rfl ?_⟩
    simp [Passage.trace, startedIn, Event.started?, unstarted, suspend, Session.outstanding]
  | executed =>
    obtain ⟨content, isError, told⟩ := told_execute setup _ _ false _
    exact ⟨_, tells_settled (.inl rfl) told⟩

theorem Steps.tells {x y : Stage × Run σ} (h : Steps setup x y) : ∃ ps, Tells setup ps x y := by
  induction h with
  | refl => exact ⟨[], .nil x⟩
  | tail _ last ih =>
    obtain ⟨ps, before⟩ := ih
    obtain ⟨qs, step⟩ := last.tells
    exact ⟨ps ++ qs, before.append step⟩

end Run

/-! ## The end of a run -/

theorem Setup.summarize_told {σ : Type} (setup : Setup σ) (s : Session) (agent : String)
    (c : Cancellation) (world : σ) :
    (∃ request usage text, (setup.summarize s agent c world).outcome = .ok (some text) ∧
      (setup.summarize s agent c world).session.items = s.items ++ [.summary text setup.now] ∧
      (setup.summarize s agent c world).journal =
        [.summaryAsked agent request, .summaryReplied agent usage]) ∨
    ((∀ text, (setup.summarize s agent c world).outcome ≠ .ok (some text)) ∧
      (setup.summarize s agent c world).session.items = s.items ∧
      ∃ ps : List Passage, Passage.traces setup.now ps =
        { journal := (setup.summarize s agent c world).journal }) := by
  rcases setup.summarize_cases s agent c world with
    ⟨same, journal, other⟩ | ⟨request, e, same, journal, failed⟩ |
      ⟨m, request, reading, journal, whole, committed⟩
  · refine .inr ⟨other, congrArg Session.items same, [], ?_⟩
    rw [journal]
    rfl
  · refine .inr ⟨by simp [failed], congrArg Session.items same, [.uncompacted agent request none], ?_⟩
    rw [journal]
    rfl
  rcases Summary.commit_cases m reading s setup.now with blank | ⟨text, s', added, counted⟩
  · rw [blank] at whole committed
    refine .inr ⟨by simp [whole], congrArg Session.items committed,
      [.uncompacted agent request (some reading.usage)], ?_⟩
    rw [journal]
    rfl
  · rw [added] at whole committed
    refine .inl ⟨request, reading.usage, text, whole, ?_, journal⟩
    rw [committed]
    rcases counted with rfl | ⟨usage, rfl⟩
    · rfl
    · rfl

namespace Run

variable {σ : Type} {setup : Setup σ}

theorem told_compact (setup : Setup σ) (r : Run σ) :
    ∃ ps, Told setup ps r (compact setup r) ∧
      startedIn (Passage.traces setup.now ps).events = [] := by
  unfold compact
  split
  · rcases setup.summarize_told r.session r.agent r.cancel r.world with
      ⟨request, usage, text, outcome, items, journal⟩ | ⟨other, items, ps, journal⟩
    · refine ⟨[.compacted r.agent request usage text], ?_, rfl⟩
      simp only [outcome]
      ext1 <;> simp [trace, emit, items, journal, Passage.trace]
    · refine ⟨ps, ?_, by rw [journal]; rfl⟩
      dsimp only
      split
      · rename_i text outcome
        exact absurd outcome (other text)
      · unfold Told
        rw [journal]
        ext1 <;> simp [trace, items]
  · exact ⟨[], .nil r, rfl⟩

theorem told_followUp (setup : Setup σ) (r : Run σ) :
    ∃ ps, Told setup ps r (followUp setup r) ∧
      startedIn (Passage.traces setup.now ps).events = [] := by
  obtain ⟨session, journal⟩ := quiet_followUp setup r
  obtain ⟨suggested, events, kind⟩ := followUp_events setup r
  cases suggested with
  | none =>
    refine ⟨[], ?_, rfl⟩
    ext1 <;> simp [trace, session, journal, events]
  | some e =>
    have suggestion := kind e rfl
    have remark : e.isRemark = true := by
      cases e <;> simp_all [Event.kind, Event.isRemark]
    refine ⟨[.remarked e remark], ?_, ?_⟩
    · ext1 <;> simp [trace, session, journal, events, Passage.trace]
    · cases e <;> simp_all [Event.kind, Passage.trace, startedIn, Event.started?]

theorem finish_told (setup : Setup σ) (outcome : Outcome) (r : Run σ) :
    ∃ ps, (finish setup (followUp setup) outcome r).trace =
        traceAt (.closed outcome, r) ++ Passage.traces setup.now ps ∧
      startedIn (Passage.traces setup.now ps).events = [] := by
  cases outcome with
  | done reason =>
    obtain ⟨ps, compacted, first⟩ := told_compact setup r
    obtain ⟨qs, followed, second⟩ := told_followUp setup (compact setup r)
    let last := (followUp setup (compact setup r)).doneEvent reason
    have told := (compacted.append followed).append (told_remark setup (e := last) rfl _)
    refine ⟨ps ++ qs ++ [.remarked last rfl], ?_, ?_⟩
    · rw [traceAt_of_silent rfl]
      exact told
    · simp only [Passage.traces_append, Trace.events_append, startedIn_append, first, second]
      rfl
  | suspended => exact ⟨[], by simp [finish, traceAt, Stage.lastWord], rfl⟩
  | cancelled => exact ⟨[], by ext1 <;> simp [finish, traceAt, Stage.lastWord, trace, emit], rfl⟩
  | failed message =>
    exact ⟨[], by ext1 <;> simp [finish, traceAt, Stage.lastWord, trace, emit], rfl⟩

theorem unstarted_of_reports {outcome : Outcome} {r : Run σ}
    (h : Reports (.closed outcome, r)) :
    unstarted (.closed outcome, r) = r.session.outstanding.tail := by
  have idle (busy : Busy r) : r.session.outstanding.tail = [] := by
    rw [Session.outstanding_of_none busy.idle, List.tail_nil]
  cases outcome with
  | suspended => rfl
  | done | cancelled | failed => exact (idle h).symm

/-- Passages tell all that a run does. -/
theorem drive_told (setup : Setup σ) (resumed : Option (Session.Pending × Answer)) {r : Run σ}
    (new : r.events = []) (idle : r.session.pending = none) :
    ∃ ps, Told setup ps r (drive setup (followUp setup) resumed r) ∧
      (startedIn (Passage.traces setup.now ps).events ++
        (drive setup (followUp setup) resumed r).session.outstanding.tail).Sublist
      (unstarted (opening setup resumed, r) ++
        issuedIn (Passage.traces setup.now ps).journal) := by
  have silent : (opening setup resumed).lastWord = [] := by cases resumed <;> rfl
  have opened : Reports (opening setup resumed, r) := by
    have busy : Busy r := ⟨by simp [new], idle⟩
    cases resumed <;> exact busy
  have steps := work_steps setup resumed r
  have ended := steps.keep Step.reports opened
  obtain ⟨ps, worked⟩ := steps.tells
  obtain ⟨qs, finished, quiet⟩ :=
    finish_told setup (work setup resumed r).2 (work setup resumed r).1
  have pending := (finish_summarises setup (quiet_followUp setup) (work setup resumed r).2
    (work setup resumed r).1).pending
  refine ⟨ps ++ qs, ?_, ?_⟩
  · have told := worked.trace
    rw [traceAt_of_silent silent] at told
    unfold Told
    rw [Passage.traces_append, ← Trace.append_assoc, ← told]
    exact finished
  · have calls := worked.calls
    rw [unstarted_of_reports ended, ← Session.outstanding_congr pending] at calls
    simp only [Passage.traces_append, Trace.events_append, Trace.journal_append, startedIn_append,
      issuedIn_append, quiet, List.append_nil, ← List.append_assoc]
    exact calls.trans (List.sublist_append_left _ _)

end Run

end Ensemble
