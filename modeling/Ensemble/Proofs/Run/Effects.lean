import Ensemble.Proofs.Run.Steps
import Ensemble.Run.Suggestions

/-!
# What a run does to its session and its journal

A call is settled by one result of its caller and one entry of the journal (`Settles`), whichever
way it goes; a summary adds nothing but itself (`Summarises`). Of the steps of a run only the
kinds of `Effect` can be told apart by what they leave behind, so an invariant of sessions and
journals has these cases to go through (`Step.effect`).
-/

namespace Ensemble

namespace Session

@[simp] theorem items_add (s : Session) (author : String) (m : Message) (now : Time.Timestamp) :
    (s.add author m now).items = s.items ++ [.message ⟨author, m, now⟩] := rfl

theorem changeLast_concat {p : Item → Bool} {f : Item → Item} {item : Item} (items : List Item)
    (h : p item = true) : changeLast p f (items ++ [item]) = items ++ [f item] := by
  simp [changeLast, h]

end Session

def Settlement.isExecuted : Settlement → Bool
  | .executed .. => true
  | _ => false

def Settlement.isAccepted : Settlement → Bool
  | .executed _ accepted => accepted
  | _ => false

theorem Settlement.isAccepted_of_plain {how : Settlement} (plain : how.isExecuted = false) :
    how.isAccepted = false := by
  cases how with
  | executed => cases plain
  | _ => rfl

def Activity.asked? : Activity → Option String
  | .asked agent _ => some agent
  | .replied .. | .settled .. | .summaryAsked .. | .summaryReplied .. => none

def askedIn (j : List Activity) : List String := j.filterMap Activity.asked?

namespace Run

variable {σ : Type} {setup : Setup σ} {caller : String} {call : ToolCall} {how : Settlement}

/-- What settling a call of `caller` does to a session and a journal. -/
structure Settles (setup : Setup σ) (caller : String) (call : ToolCall) (how : Settlement)
    (s : Session) (j : List Activity) (s' : Session) (j' : List Activity) : Prop where
  journal : j' = j ++ [.settled caller call how]
  /-- Behind the result only a briefing may follow, when the call was a transfer. -/
  items : ∃ content later, s'.items =
      s.items ++ .message ⟨caller, .toolResult call.id content, setup.now⟩ :: later ∧
    ∀ item ∈ later, ∃ target text, item = .message ⟨target, .user text, setup.now⟩
  pending : s'.pending = s.pending
  permissions : s'.permissions = s.permissions
  /-- With one call the user may have accepted all of a session. -/
  approved : how.isAccepted = false → s'.toolsApproved = s.toolsApproved

theorem recordResult_settles (r : Run σ) (content : String) (isError : Bool) :
    Settles setup caller call how r.session r.journal
      (r.recordResult setup caller call how content isError).session
      (r.recordResult setup caller call how content isError).journal :=
  ⟨rfl, ⟨content, [], rfl, by simp⟩, rfl, rfl, fun _ => rfl⟩

theorem execute_eq_recordResult (setup : Setup σ) (caller : String) (call : ToolCall) (r : Run σ)
    (accepted : Bool) :
    ∃ world cancel content isError, r.execute setup caller call accepted =
      { r with world, cancel }.recordResult setup caller call
        (.executed (r.session.approvalOf call.name) accepted) content isError :=
  ⟨_, _, _, _, rfl⟩

theorem execute_settles (r : Run σ) (accepted : Bool) :
    Settles setup caller call (.executed (r.session.approvalOf call.name) accepted) r.session
      r.journal (r.execute setup caller call accepted).session
      (r.execute setup caller call accepted).journal := by
  obtain ⟨world, cancel, content, isError, h⟩ :=
    execute_eq_recordResult setup caller call r accepted
  rw [h]
  exact recordResult_settles { r with world, cancel } content isError

/-- A transfer succeeds as a whole, or leaves nothing but an error result. -/
theorem handoff_cases (setup : Setup σ) (caller : String) (call : ToolCall) (r : Run σ) :
    (∃ text, r.handoff setup caller call = r.recordResult setup caller call .transfer text true) ∨
      ∃ args, args.agent ∈ (setup.team.handoffTargets caller).map (·.name) ∧
        r.handoff setup caller call =
          (r.recordResult setup caller call .transfer (transferredText args.agent) false).switchTo
            setup caller args := by
  unfold handoff
  split
  · exact .inl ⟨_, rfl⟩
  · rename_i args _
    by_cases valid : args.agent ∈ (setup.team.handoffTargets caller).map (·.name)
    · rw [if_pos valid]
      exact .inr ⟨args, valid, rfl⟩
    · rw [if_neg valid]
      exact .inl ⟨_, rfl⟩

theorem handoff_settles (r : Run σ) :
    Settles setup caller call .transfer r.session r.journal (r.handoff setup caller call).session
      (r.handoff setup caller call).journal := by
  rcases handoff_cases setup caller call r with ⟨text, h⟩ | ⟨args, _, h⟩
  · rw [h]
    exact recordResult_settles r text true
  · rw [h]
    refine ⟨rfl, ⟨transferredText args.agent,
      [.message ⟨args.agent, .user (args.briefing caller), setup.now⟩], ?_, ?_⟩, rfl, rfl,
      fun _ => rfl⟩
    · simp [switchTo, emit, say, recordResult, note]
    · rintro item (_ | ⟨_, ⟨⟩⟩)
      exact ⟨_, _, rfl⟩

/-! ## Asking -/

/-- A whole reply becomes one assistant message with its text and its calls. -/
theorem recordTurn_items (setup : Setup σ) (m : Model σ) (a : Assembly) (r : Run σ) :
    ∃ message : Message, message.role = .assistant ∧ message.content = a.text ∧
      message.calls = a.calls ∧
      (r.recordTurn setup m a).session.items =
        r.session.items ++ [.message ⟨r.agent, message, setup.now⟩] := by
  have calls (text : String) : (Message.assistant text a.calls).calls = a.calls := by
    unfold Message.assistant Message.calls
    cases a.calls <;> rfl
  unfold recordTurn
  cases a.usage with
  | none => exact ⟨.assistant a.text a.calls, rfl, rfl, calls a.text, rfl⟩
  | some usage =>
    refine ⟨{ Message.assistant a.text a.calls with
      usage := some usage, cost := some (m.costOf usage), model := some m.model },
      rfl, rfl, calls a.text, ?_⟩
    exact Session.changeLast_concat r.session.items rfl

theorem recordTurn_frame (setup : Setup σ) (m : Model σ) (a : Assembly) (r : Run σ) :
    (r.recordTurn setup m a).journal = r.journal ++ [.replied r.agent a.calls a.usage] ∧
      (r.recordTurn setup m a).session.pending = r.session.pending ∧
      (r.recordTurn setup m a).session.permissions = r.session.permissions ∧
      (r.recordTurn setup m a).session.toolsApproved = r.session.toolsApproved := by
  unfold recordTurn
  cases a.usage <;> exact ⟨rfl, rfl, rfl, rfl⟩

/-- Of an interrupted reply at most the text is kept. -/
theorem recordInterrupted_items (setup : Setup σ) (why : Interruption) (a : Assembly) (r : Run σ) :
    (r.recordInterrupted setup why a).session = r.session ∨
      (r.recordInterrupted setup why a).session =
        r.session.add r.agent (.assistant a.text) setup.now := by
  unfold recordInterrupted
  split
  · exact .inr rfl
  · exact .inl rfl

theorem recordInterrupted_journal (setup : Setup σ) (why : Interruption) (a : Assembly)
    (r : Run σ) : (r.recordInterrupted setup why a).journal = r.journal := by
  unfold recordInterrupted
  split <;> rfl

end Run

/-! ## Summaries -/

def Activity.isSummary : Activity → Bool
  | .summaryAsked .. | .summaryReplied .. => true
  | _ => false

theorem Activity.eq_of_isSummary {entry : Activity} (h : entry.isSummary = true) :
    (∃ agent request, entry = .summaryAsked agent request) ∨
      ∃ agent usage, entry = .summaryReplied agent usage := by
  cases entry with
  | summaryAsked agent request => exact .inl ⟨agent, request, rfl⟩
  | summaryReplied agent usage => exact .inr ⟨agent, usage, rfl⟩
  | _ => cases h

theorem filterMap_summaries {α : Type} {f : Activity → Option α} {j : List Activity}
    (asked : ∀ agent request, f (.summaryAsked agent request) = none)
    (replied : ∀ agent usage, f (.summaryReplied agent usage) = none)
    (h : ∀ entry ∈ j, entry.isSummary = true) : j.filterMap f = [] := by
  apply List.filterMap_eq_nil_iff.mpr
  intro entry among
  rcases Activity.eq_of_isSummary (h entry among) with ⟨agent, request, rfl⟩ | ⟨agent, usage, rfl⟩
  · exact asked agent request
  · exact replied agent usage

theorem Summary.commit_cases {σ : Type} (m : Model σ) (reading : Reading) (s : Session)
    (now : Time.Timestamp) :
    commit m reading s now = (none, s) ∨
      ∃ text counted, commit m reading s now = (some text, counted.addSummary text now) ∧
        (counted = s ∨ ∃ usage, counted = s.recordUsage usage (m.costOf usage)) := by
  unfold commit
  dsimp only
  split
  · exact .inl rfl
  · refine .inr ⟨_, _, rfl, ?_⟩
    cases reading.usage with
    | none => exact .inl rfl
    | some usage => exact .inr ⟨usage, rfl⟩

/-- A summary is not asked for, its reply cannot be read, or the reply is read to its end. -/
theorem Setup.summarize_cases {σ : Type} (setup : Setup σ) (s : Session) (agent : String)
    (c : Cancellation) (world : σ) :
    let sum := setup.summarize s agent c world
    (sum.session = s ∧ sum.journal = [] ∧ ∀ text, sum.outcome ≠ .ok (some text)) ∨
    (∃ request e, sum.session = s ∧ sum.journal = [.summaryAsked agent request] ∧
      sum.outcome = .error e) ∨
    ∃ (m : Model σ) (request : Model.Request) (reading : Summary.Reading),
      sum.journal = [.summaryAsked agent request, .summaryReplied agent reading.usage] ∧
      sum.outcome = .ok (Summary.commit m reading s setup.now).1 ∧
      sum.session = (Summary.commit m reading s setup.now).2 := by
  unfold Setup.summarize
  dsimp only
  split
  · exact .inl ⟨rfl, rfl, by simp⟩
  rename_i a _
  split
  · exact .inl ⟨rfl, rfl, by simp⟩
  rename_i request _
  split
  · exact .inr (.inl ⟨request, _, rfl, rfl, rfl⟩)
  split
  · exact .inr (.inl ⟨request, _, rfl, rfl, rfl⟩)
  · rename_i reading _
    exact .inr (.inr ⟨a.model, request, reading, rfl, rfl, rfl⟩)

/-- A summary changes nothing of a session that neither it nor the count of its tokens changes. -/
theorem Setup.summarize_keep {σ α : Type} (f : Session → α)
    (counted : ∀ s usage cost, f (s.recordUsage usage cost) = f s)
    (added : ∀ s text now, f (s.addSummary text now) = f s) (setup : Setup σ) (s : Session)
    (agent : String) (c : Cancellation) (world : σ) :
    f (setup.summarize s agent c world).session = f s := by
  rcases setup.summarize_cases s agent c world with
    ⟨same, -⟩ | ⟨request, e, same, -⟩ | ⟨m, request, reading, -, -, committed⟩
  · rw [same]
  · rw [same]
  · rw [committed]
    rcases Summary.commit_cases m reading s setup.now with blank | ⟨text, s', whole, rfl | ⟨usage, rfl⟩⟩
    · rw [blank]
    · rw [whole, added]
    · rw [whole, added, counted]

/-- What a summary does to a session and a journal: it adds itself, or nothing. -/
structure Summarises (s : Session) (j : List Activity) (s' : Session) (j' : List Activity) :
    Prop where
  journal : ∃ more, j' = j ++ more ∧ ∀ entry ∈ more, entry.isSummary = true
  items : s'.items = s.items ∨ ∃ text now, s'.items = s.items ++ [.summary text now]
  pending : s'.pending = s.pending
  permissions : s'.permissions = s.permissions
  approved : s'.toolsApproved = s.toolsApproved

namespace Summarises

variable {s s' : Session} {j j' : List Activity}

theorem refl (s : Session) (j : List Activity) : Summarises s j s j :=
  ⟨⟨[], by simp⟩, .inl rfl, rfl, rfl, rfl⟩

end Summarises

theorem Setup.summarize_summarises {σ : Type} (setup : Setup σ) (s : Session) (agent : String)
    (c : Cancellation) (world : σ) (j : List Activity) :
    Summarises s j (setup.summarize s agent c world).session
      (j ++ (setup.summarize s agent c world).journal) where
  journal := by
    rcases setup.summarize_cases s agent c world with
      ⟨-, journal, -⟩ | ⟨request, e, -, journal, -⟩ | ⟨m, request, reading, journal, -⟩
    all_goals
      rw [journal]
      exact ⟨_, rfl, by simp [Activity.isSummary]⟩
  items := by
    rcases setup.summarize_cases s agent c world with
      ⟨same, -⟩ | ⟨request, e, same, -⟩ | ⟨m, request, reading, -, -, committed⟩
    · exact .inl (congrArg Session.items same)
    · exact .inl (congrArg Session.items same)
    · rw [committed]
      rcases Summary.commit_cases m reading s setup.now with
        blank | ⟨text, s', whole, rfl | ⟨usage, rfl⟩⟩
      · exact .inl (by rw [blank])
      · exact .inr ⟨text, setup.now, by rw [whole]; rfl⟩
      · exact .inr ⟨text, setup.now, by rw [whole]; rfl⟩
  pending := setup.summarize_keep (·.pending) (fun _ _ _ => rfl) (fun _ _ _ => rfl) s agent c world
  permissions :=
    setup.summarize_keep (·.permissions) (fun _ _ _ => rfl) (fun _ _ _ => rfl) s agent c world
  approved :=
    setup.summarize_keep (·.toolsApproved) (fun _ _ _ => rfl) (fun _ _ _ => rfl) s agent c world

namespace Run

variable {σ : Type}

/-- What may be done between the last reply and the end of a run without touching its session or
its books. -/
def Quiet (followUp : Run σ → Run σ) : Prop :=
  ∀ r, (followUp r).session = r.session ∧ (followUp r).journal = r.journal

theorem quiet_id : Quiet (id : Run σ → Run σ) := fun _ => ⟨rfl, rfl⟩

theorem quiet_followUp (setup : Setup σ) : Quiet (followUp setup) := by
  intro r
  unfold followUp
  dsimp only
  split
  · split
    · exact ⟨rfl, rfl⟩
    · split <;> exact ⟨rfl, rfl⟩
  · exact ⟨rfl, rfl⟩

theorem compact_summarises (setup : Setup σ) (r : Run σ) :
    Summarises r.session r.journal (compact setup r).session (compact setup r).journal := by
  have h := setup.summarize_summarises r.session r.agent r.cancel r.world r.journal
  unfold compact
  split
  · dsimp only
    split <;> exact h
  · exact .refl r.session r.journal

/-- The end of a run adds a summary to its session, if anything, and that only when it is done. -/
theorem finish_summarises (setup : Setup σ) {followUp : Run σ → Run σ} (quiet : Quiet followUp)
    (outcome : Outcome) (r : Run σ) :
    Summarises r.session r.journal (finish setup followUp outcome r).session
      (finish setup followUp outcome r).journal := by
  cases outcome with
  | done reason =>
    obtain ⟨session, journal⟩ := quiet (compact setup r)
    have h := compact_summarises setup r
    simp only [finish, emit]
    rwa [session, journal]
  | suspended => exact .refl r.session r.journal
  | cancelled => exact .refl r.session r.journal
  | failed message => exact .refl r.session r.journal

/-! ## Steps -/

/-- The calls without a result that a stage keeps, with who made them. -/
def Stage.waiting : Stage → List (String × ToolCall)
  | .answering _ pending _ => pending.calls.map (pending.agent, ·)
  | .calling _ caller queue => queue.map (caller, ·)
  | .asking _ | .closed _ => []

def Stage.isClosed : Stage → Bool
  | .closed _ => true
  | _ => false

theorem Stage.working_of_waiting {x : Stage} {made : String × ToolCall}
    {rest : List (String × ToolCall)} (h : x.waiting = made :: rest) : x.isClosed = false := by
  cases x with
  | closed outcome => cases h
  | _ => rfl

def Stage.isAnswering : Stage → Bool
  | .answering .. => true
  | _ => false

/-- What a step leaves behind in the session and the journal. -/
inductive Effect (setup : Setup σ) : Stage × Run σ → Stage × Run σ → Prop where
  | idled {x y : Stage} {r r' : Run σ} (working : x.isClosed = false) (before : x.waiting = [])
      (onward : y.isAnswering = false) (after : y.waiting = [])
      (session : r'.session = r.session) (journal : r'.journal = r.journal) :
      Effect setup (x, r) (y, r')
  | unanswered {left : Nat} {outcome : Outcome} {a : Agent σ} {r r' : Run σ}
      (found : setup.team.get? r.agent = some a)
      (journal : r'.journal = r.journal ++ [.asked r.agent (requestOf setup r.session a)])
      (session : r'.session = r.session ∨
        ∃ text, r'.session = r.session.add r.agent (.assistant text) setup.now) :
      Effect setup (.asking (left + 1), r) (.closed outcome, r')
  | replied {left : Nat} {y : Stage} {a : Agent σ} {message : Message} {usage : Option Usage}
      {r r' : Run σ} (found : setup.team.get? r.agent = some a)
      (journal : r'.journal = r.journal ++
        [.asked r.agent (requestOf setup r.session a), .replied r.agent message.calls usage])
      (role : message.role = .assistant)
      (items : r'.session.items = r.session.items ++ [.message ⟨r.agent, message, setup.now⟩])
      (pending : r'.session.pending = r.session.pending)
      (permissions : r'.session.permissions = r.session.permissions)
      (approved : r'.session.toolsApproved = r.session.toolsApproved)
      (onward : y.isAnswering = false) (after : y.waiting = message.calls.map (r.agent, ·)) :
      Effect setup (.asking (left + 1), r) (y, r')
  | accepted {left : Nat} {caller : String} {call : ToolCall} {rest : List ToolCall}
      {answer : Answer} {approval : Approval} {r r' : Run σ} (yes : answer.action = .accept)
      (settles : Settles setup caller call (.executed approval true) r.session r.journal r'.session
        r'.journal)
      (approved : r'.session.toolsApproved = (r.session.toolsApproved || answer.approvesSession)) :
      Effect setup (.answering left ⟨caller, call :: rest⟩ answer, r)
        (.calling left caller rest, r')
  | executed {left : Nat} {caller : String} {call : ToolCall} {rest : List ToolCall} {tool : Tool σ}
      {r r' : Run σ} (found : (toolsOf setup caller).get? call.name = some tool)
      (allowed : r.session.approvalOf call.name = .approved ∨
        r.session.approvalOf call.name = .ask ∧ tool.requiresApproval = false)
      (settles : Settles setup caller call (.executed (r.session.approvalOf call.name) false)
        r.session r.journal r'.session r'.journal) :
      Effect setup (.calling left caller (call :: rest), r) (.calling left caller rest, r')
  /-- Whatever else brings a result runs no tool. -/
  | settled {x : Stage} {left : Nat} {caller : String} {call : ToolCall} {rest : List ToolCall}
      {how : Settlement} {r r' : Run σ} (before : x.waiting = (call :: rest).map (caller, ·))
      (plain : how.isExecuted = false)
      (settles : Settles setup caller call how r.session r.journal r'.session r'.journal) :
      Effect setup (x, r) (.calling left caller rest, r')
  | cancelled {x : Stage} {caller : String} {queue : List ToolCall} {r r' : Run σ}
      (before : x.waiting = queue.map (caller, ·)) (working : x.isClosed = false)
      (session : r'.session = r.session) (journal : r'.journal = r.journal) :
      Effect setup (x, r) (.closed .cancelled, r'.recordCancelled setup caller queue)
  | suspended {left : Nat} {caller : String} {call : ToolCall} {rest : List ToolCall}
      {tool : Tool σ} {r r' : Run σ} (found : (toolsOf setup caller).get? call.name = some tool)
      (asks : r.session.approvalOf call.name = .ask)
      (session : r'.session = { r.session with pending := some ⟨caller, call :: rest⟩ })
      (journal : r'.journal = r.journal) :
      Effect setup (.calling left caller (call :: rest), r) (.closed .suspended, r')

theorem get?_of_agent {t : Team σ} {name : String} {a : Agent σ} (h : t.agent name = .ok a) :
    t.get? name = some a := by
  unfold Team.agent at h
  split at h
  · rename_i found
    cases h
    exact found
  · cases h

theorem reply_effect {setup : Setup σ} {left : Nat} {y : Stage} {a : Agent σ} {world : σ}
    {r : Run σ} (found : setup.team.agent r.agent = .ok a) (intake : Intake)
    (onward : y.isAnswering = false)
    (after : y.waiting = intake.assembly.calls.map (r.agent, ·)) :
    Effect setup (.asking (left + 1), r)
      (y, ((r.look.look.send (requestOf setup r.session a) world).takeIn intake).recordTurn setup
        a.model intake.assembly) := by
  obtain ⟨message, role, -, calls, items⟩ := recordTurn_items setup a.model intake.assembly
    ((r.look.look.send (requestOf setup r.session a) world).takeIn intake)
  obtain ⟨noted, pending, permissions, approved⟩ := recordTurn_frame setup a.model intake.assembly
    ((r.look.look.send (requestOf setup r.session a) world).takeIn intake)
  have journal : (((r.look.look.send (requestOf setup r.session a) world).takeIn
      intake).recordTurn setup a.model intake.assembly).journal = r.journal ++
        [.asked r.agent (requestOf setup r.session a),
          .replied r.agent message.calls intake.assembly.usage] := by
    rw [noted, calls]
    simp [takeIn, send, note, look]
  rw [← calls] at after
  exact .replied (get?_of_agent found) journal role items pending permissions
    approved onward after

theorem Step.effect {setup : Setup σ} {x y : Stage × Run σ} (h : Step setup x y) :
    Effect setup x y := by
  cases h with
  | idle => exact .idled rfl rfl rfl rfl rfl rfl
  | @accepted left caller call rest answer r yes =>
    -- The answer may approve every tool of the session before the call is executed.
    cases session : answer.approvesSession with
    | true =>
      obtain ⟨journal, items, pending, permissions, -⟩ :=
        @execute_settles σ setup caller call r.approveAll true
      refine .accepted yes ⟨journal, items, pending, permissions, ?_⟩ ?_
      · intro other
        cases other
      · rw [session, Bool.or_true]
        rfl
    | false =>
      refine .accepted yes (execute_settles r true) ?_
      rw [session, Bool.or_false]
      rfl
  | declined no => exact .settled rfl rfl (recordResult_settles _ _ _)
  | abandoned off => exact .cancelled rfl rfl rfl rfl
  | stopped => exact .idled rfl rfl rfl rfl rfl rfl
  | exhausted => exact .idled rfl rfl rfl rfl rfl rfl
  | lost => exact .idled rfl rfl rfl rfl rfl rfl
  | withdrawn => exact .idled rfl rfl rfl rfl rfl rfl
  | refused found => exact .unanswered (get?_of_agent found) rfl (.inl rfl)
  | interrupted found =>
    refine .unanswered (get?_of_agent found) ?_ ?_
    · rw [recordInterrupted_journal]
      rfl
    · rcases recordInterrupted_items setup _ _ _ with same | said
      · exact .inl same
      · exact .inr ⟨_, said⟩
  | @answered left r a steps world intake found reply read whole final =>
    exact reply_effect found intake rfl (by rw [final]; rfl)
  | @called left r a steps world intake found reply read whole more =>
    exact reply_effect found intake rfl rfl
  | finished => exact .idled rfl rfl rfl rfl rfl rfl
  | dropped => exact .cancelled rfl rfl rfl rfl
  | @transferred left caller call rest r =>
    have h : Settles setup caller call .transfer r.session r.journal _ _ :=
      handoff_settles (r.look.announce caller call)
    exact .settled rfl rfl h
  | @unknown left caller call rest r tool missing =>
    have h : Settles setup caller call .unknown r.session r.journal _ _ :=
      recordResult_settles (r.look.announce caller call) (Registry.notFound call.name).content true
    exact .settled rfl rfl h
  | @denied left caller call rest r forbidden =>
    have h : Settles setup caller call .denied r.session r.journal _ _ :=
      recordResult_settles (r.look.announce caller call) (deniedText call.name) true
    exact .settled rfl rfl h
  | suspended found asks => exact .suspended found asks rfl rfl
  | @executed left caller call rest r tool going found allowed =>
    exact .executed found allowed (execute_settles (r.look.announce caller call) false)

theorem recordCancelled_keep {Q : List ToolCall → Session → List Activity → Prop}
    (step : ∀ {call rest s j s' j'}, Settles setup caller call .cancelled s j s' j' →
      Q (call :: rest) s j → Q rest s' j')
    {queue : List ToolCall} {r : Run σ} (h : Q queue r.session r.journal) :
    Q [] (r.recordCancelled setup caller queue).session
      (r.recordCancelled setup caller queue).journal := by
  induction queue generalizing r with
  | nil => exact h
  | cons call rest ih => exact ih (step (recordResult_settles r cancelledText true) h)

/-- A run is its work, and after it at most a summary. -/
theorem drive_ends (setup : Setup σ) {followUp : Run σ → Run σ} (quiet : Quiet followUp)
    (resumed : Option (Session.Pending × Answer)) (r : Run σ) :
    ∃ outcome r', Steps setup (opening setup resumed, r) (.closed outcome, r') ∧
      Summarises r'.session r'.journal (drive setup followUp resumed r).session
        (drive setup followUp resumed r).journal :=
  ⟨_, _, work_steps setup resumed r, finish_summarises setup quiet _ _⟩

/-! ## What a run keeps -/

theorem Effect.journal_prefix {x y : Stage × Run σ} (h : Effect setup x y) :
    x.2.journal <+: y.2.journal := by
  cases h with
  | idled working before onward after session journal =>
    exact ⟨[], by simp [journal]⟩
  | unanswered found journal session => exact ⟨_, journal.symm⟩
  | replied found journal => exact ⟨_, journal.symm⟩
  | accepted yes settles => exact ⟨_, settles.journal.symm⟩
  | executed found allowed settles => exact ⟨_, settles.journal.symm⟩
  | settled before plain settles => exact ⟨_, settles.journal.symm⟩
  | @cancelled x caller queue r r' before working session journal =>
    rw [← journal]
    exact @recordCancelled_keep σ setup caller (fun _ _ j => r'.journal <+: j)
      (fun settles before => before.trans ⟨_, settles.journal.symm⟩) queue r' List.prefix_rfl
  | suspended found asks session journal =>
    exact ⟨[], by simp [journal]⟩

theorem Steps.journal_prefix {x y : Stage × Run σ} (h : Steps setup x y) :
    x.2.journal <+: y.2.journal :=
  h.keep (P := fun z => x.2.journal <+: z.2.journal)
    (fun step before => before.trans step.effect.journal_prefix) List.prefix_rfl

theorem Settles.items_prefix {s s' : Session} {j j' : List Activity}
    (h : Settles setup caller call how s j s' j') : s.items <+: s'.items := by
  obtain ⟨content, later, items, -⟩ := h.items
  exact ⟨_, items.symm⟩

theorem Effect.items_prefix {x y : Stage × Run σ} (h : Effect setup x y) :
    x.2.session.items <+: y.2.session.items := by
  cases h with
  | idled working before onward after session journal =>
    exact ⟨[], by simp [session]⟩
  | unanswered found journal session =>
    rcases session with same | ⟨text, said⟩
    · exact ⟨[], by simp [same]⟩
    · rw [said]
      exact List.prefix_append _ _
  | replied found journal role items => exact ⟨_, items.symm⟩
  | accepted yes settles => exact settles.items_prefix
  | executed found allowed settles => exact settles.items_prefix
  | settled before plain settles => exact settles.items_prefix
  | @cancelled x caller queue r r' before working session journal =>
    rw [← session]
    exact @recordCancelled_keep σ setup caller (fun _ s _ => r'.session.items <+: s.items)
      (fun settles before => before.trans settles.items_prefix) queue r' List.prefix_rfl
  | suspended found asks session =>
    exact ⟨[], by simp [session]⟩

theorem drive_items_prefix (setup : Setup σ) {followUp : Run σ → Run σ} (quiet : Quiet followUp)
    (resumed : Option (Session.Pending × Answer)) {r : Run σ} {items : List Session.Item}
    (begun : r.session.items = items) :
    items <+: (drive setup followUp resumed r).session.items := by
  obtain ⟨outcome, r', steps, sum⟩ := drive_ends setup quiet resumed r
  rw [← begun]
  have worked : r.session.items <+: r'.session.items :=
    steps.keep (P := fun x => r.session.items <+: x.2.session.items)
      (fun step before => before.trans step.effect.items_prefix) List.prefix_rfl
  rcases sum.items with same | ⟨text, now, added⟩
  · rw [same]
    exact worked
  · rw [added]
    exact worked.trans (List.prefix_append _ _)

end Run

end Ensemble
