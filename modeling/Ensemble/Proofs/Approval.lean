import Ensemble.Proofs.Accounts

/-!
# Approval of executions

A tool is executed in two places: when its call comes up in a turn, and when the user has accepted
the call a session was suspended on. The second place does not look at the permissions again, so
what the first has checked before suspending is kept with the session (`Offers`), and carried
through every step (`Guarded`). The user's other answers are settled without an execution
(`declined_first`, `cancelled_all`); that nothing else is done about those calls is a matter of
accounts.

Executions are read off the journal; that nothing else goes through a tool is `Setup.run_accounted`.
What a tool does once it is executed is not covered here.
-/

namespace Ensemble

variable {σ : Type}

def Activity.isExecution : Activity → Bool
  | .settled _ _ how => how.isExecuted
  | _ => false

theorem Activity.not_execution {entry : Activity} (h : entry.isSummary = true) :
    entry.isExecution = false := by
  rcases eq_of_isSummary h with ⟨agent, request, rfl⟩ | ⟨agent, usage, rfl⟩
  · rfl
  · rfl

theorem Activity.eq_of_isExecution {entry : Activity} (h : entry.isExecution = true) :
    ∃ caller call approval accepted,
      entry = .settled caller call (.executed approval accepted) := by
  cases entry with
  | settled caller call how =>
    cases how with
    | executed approval accepted => exact ⟨caller, call, approval, accepted, rfl⟩
    | _ => cases h
  | _ => cases h

/-- No pattern denies the call, and the caller has a tool for it. -/
structure Offers (t : Team σ) (p : Session.Permissions) (caller : String) (call : ToolCall) :
    Prop where
  allowed : ∀ pattern ∈ p.deny, Session.patternMatches pattern call.name = false
  tool : ∃ a tool, t.get? caller = some a ∧ a.tools.get? call.name = some tool

/-- What the user has consented to while a run works. -/
structure Consent where
  /-- All tools, for the rest of the session. -/
  session : Bool
  /-- The call that the user has just accepted. -/
  call : Option (String × ToolCall)

/-- What an execution has been cleared by: no pattern denies it, and its tool needs no consent, or
the session is approved, or a pattern allows it, or it is the first thing done after the user
accepted it. -/
structure Cleared (t : Team σ) (p : Session.Permissions) (c : Consent) (i : Nat) (caller : String)
    (call : ToolCall) : Prop where
  allowed : ∀ pattern ∈ p.deny, Session.patternMatches pattern call.name = false
  consent : ∃ a tool, t.get? caller = some a ∧ a.tools.get? call.name = some tool ∧
    (tool.requiresApproval = false ∨
      (c.session = true ∨ ∃ pattern ∈ p.allow, Session.patternMatches pattern call.name = true) ∨
      i = 0 ∧ c.call = some (caller, call))

/-- `P` holds of every execution in the journal, with the position where it stands. -/
def AtExecutions (P : Nat → String → ToolCall → Prop) (j : List Activity) : Prop :=
  ∀ i caller call approval accepted,
    j[i]? = some (.settled caller call (.executed approval accepted)) → P i caller call

namespace AtExecutions

variable {P : Nat → String → ToolCall → Prop} {j more : List Activity}

theorem nil : AtExecutions P [] := by
  intro i caller call approval accepted found
  cases found

theorem append (h : AtExecutions P j) (later : AtExecutions (fun i => P (j.length + i)) more) :
    AtExecutions P (j ++ more) := by
  intro i caller call approval accepted found
  by_cases old : i < j.length
  · rw [List.getElem?_append_left old] at found
    exact h i caller call approval accepted found
  · have behind : j.length ≤ i := Nat.le_of_not_lt old
    rw [List.getElem?_append_right behind] at found
    have holds : P (j.length + (i - j.length)) caller call :=
      later (i - j.length) caller call approval accepted found
    rwa [Nat.add_sub_of_le behind] at holds

theorem append_quiet (h : AtExecutions P j)
    (quiet : ∀ entry ∈ more, entry.isExecution = false) : AtExecutions P (j ++ more) := by
  apply h.append
  intro i caller call approval accepted found
  cases quiet _ (List.mem_of_getElem? found)

theorem append_one (h : AtExecutions P j) {caller : String} {call : ToolCall} {approval : Approval}
    {accepted : Bool} (new : P j.length caller call) :
    AtExecutions P (j ++ [.settled caller call (.executed approval accepted)]) := by
  apply h.append
  intro i caller' call' approval' accepted' found
  cases i with
  | zero =>
    cases found
    exact new
  | succ i => cases found

end AtExecutions

theorem Session.not_denied {s : Session} {name : String} (h : s.approvalOf name ≠ .denied) :
    ∀ pattern ∈ s.permissions.deny, patternMatches pattern name = false := by
  intro pattern among
  cases denies : patternMatches pattern name with
  | false => rfl
  | true =>
    have denied : s.permissions.deny.any (patternMatches · name) = true :=
      List.any_eq_true.mpr ⟨pattern, among, denies⟩
    exact (h (by rw [approvalOf, denied]; rfl)).elim

theorem Session.of_approved {s : Session} {name : String} (h : s.approvalOf name = .approved) :
    s.toolsApproved = true ∨
      ∃ pattern ∈ s.permissions.allow, patternMatches pattern name = true := by
  unfold approvalOf at h
  split at h
  · cases h
  split at h
  · rename_i approves
    rcases Bool.or_eq_true_iff.mp approves with session | allows
    · exact .inl session
    · exact .inr (List.any_eq_true.mp allows)
  · cases h

/-- What the session permits: its patterns are `p`, and it is approved only with consent. -/
structure Permits (p : Session.Permissions) (c : Consent) (s : Session) : Prop where
  permissions : s.permissions = p
  approved : s.toolsApproved = true → c.session = true

theorem Permits.congr {p : Session.Permissions} {c : Consent} {s s' : Session} (h : Permits p c s)
    (permissions : s'.permissions = s.permissions)
    (approved : s'.toolsApproved = s.toolsApproved) : Permits p c s' := by
  constructor
  · rw [permissions]
    exact h.permissions
  · rw [approved]
    exact h.approved

namespace Run

variable {setup : Setup σ} {p : Session.Permissions} {c : Consent}

theorem agent_of_tool {caller name : String} {tool : Tool σ}
    (h : (toolsOf setup caller).get? name = some tool) :
    ∃ a, setup.team.get? caller = some a ∧ a.tools.get? name = some tool := by
  unfold toolsOf at h
  split at h
  · rename_i a found
    exact ⟨a, found, h⟩
  · cases h

/-- What the user has consented to when a run of `s` begins its work: an answer is about the first
of the calls that wait. -/
def consentTo (s : Session) : Option (Session.Pending × Answer) → Consent
  | some (⟨agent, call :: _⟩, answer) =>
    { session := s.toolsApproved || answer.approvesSession
      call := if answer.action = .accept then some (agent, call) else none }
  | _ => ⟨s.toolsApproved, none⟩

theorem consentTo_approved {s : Session} (h : s.toolsApproved = true)
    (resumed : Option (Session.Pending × Answer)) : (consentTo s resumed).session = true := by
  unfold consentTo
  split
  · rw [h, Bool.true_or]
  · exact h

/-- What is known of a run at any step, when `c` is what the user has consented to. -/
structure Guarded (setup : Setup σ) (p : Session.Permissions) (c : Consent) (x : Stage × Run σ) :
    Prop where
  permits : Permits p c x.2.session
  new : x.1.isAnswering = true → x.2.journal = []
  answered : ∀ left caller call rest answer, x.1 = .answering left ⟨caller, call :: rest⟩ answer →
    answer.action = .accept → (answer.approvesSession = true → c.session = true) ∧
      c.call = some (caller, call) ∧ Offers setup.team p caller call
  waits : ∀ caller call rest, x.2.session.pending = some ⟨caller, call :: rest⟩ →
    Offers setup.team p caller call
  cleared : AtExecutions (Cleared setup.team p c) x.2.journal

theorem Guarded.onward {x y : Stage} {r r' : Run σ} (h : Guarded setup p c (x, r))
    (onward : y.isAnswering = false) (permits : Permits p c r'.session)
    (pending : r'.session.pending = r.session.pending)
    (cleared : AtExecutions (Cleared setup.team p c) r'.journal) : Guarded setup p c (y, r') := by
  refine ⟨permits, ?_, ?_, ?_, cleared⟩
  · intro answering
    rw [onward] at answering
    cases answering
  · rintro left caller call rest answer rfl
    cases onward
  · rw [pending]
    exact h.waits

theorem Guarded.settle {x y : Stage} {caller : String} {call : ToolCall} {how : Settlement}
    {r r' : Run σ} (h : Guarded setup p c (x, r)) (onward : y.isAnswering = false)
    (plain : how.isExecuted = false)
    (settles : Settles setup caller call how r.session r.journal r'.session r'.journal) :
    Guarded setup p c (y, r') := by
  have approved := settles.approved (Settlement.isAccepted_of_plain plain)
  refine h.onward onward (h.permits.congr settles.permissions approved) settles.pending ?_
  rw [settles.journal]
  apply h.cleared.append_quiet
  intro entry among
  rw [List.mem_singleton.mp among]
  exact plain

theorem Guarded.execute {x y : Stage} {caller : String} {call : ToolCall} {approval : Approval}
    {user : Bool} {r r' : Run σ} (h : Guarded setup p c (x, r)) (onward : y.isAnswering = false)
    (settles : Settles setup caller call (.executed approval user) r.session r.journal r'.session
      r'.journal)
    (approved : r'.session.toolsApproved = true → c.session = true)
    (cleared : Cleared setup.team p c r.journal.length caller call) :
    Guarded setup p c (y, r') := by
  refine h.onward onward ⟨settles.permissions.trans h.permits.permissions, approved⟩
    settles.pending ?_
  rw [settles.journal]
  exact h.cleared.append_one cleared

theorem Effect.guarded {x y : Stage × Run σ} (h : Effect setup x y)
    (hx : Guarded setup p c x) : Guarded setup p c y := by
  cases h with
  | idled working before onward after session journal =>
    refine hx.onward onward (by rw [session]; exact hx.permits) (by rw [session]) ?_
    rw [journal]
    exact hx.cleared
  | @unanswered left outcome a r r' found journal session =>
    have cleared : AtExecutions (Cleared setup.team p c) r'.journal := by
      rw [journal]
      exact hx.cleared.append_quiet (by simp [Activity.isExecution])
    rcases session with same | ⟨text, said⟩
    · exact hx.onward rfl (by rw [same]; exact hx.permits) (by rw [same]) cleared
    · exact hx.onward rfl (by rw [said]; exact hx.permits.congr rfl rfl) (by rw [said]; rfl) cleared
  | replied found journal role items pending permissions approved onward after =>
    refine hx.onward onward (hx.permits.congr permissions approved) pending ?_
    rw [journal]
    exact hx.cleared.append_quiet (by simp [Activity.isExecution])
  | @accepted left caller call rest answer approval r r' yes settles approved =>
    obtain ⟨all, user, allowed, a, tool, found, has⟩ :=
      hx.answered left caller call rest answer rfl yes
    -- nothing has been done since the user accepted the call
    have first : r.journal.length = 0 := by rw [hx.new rfl, List.length_nil]
    refine hx.execute rfl settles ?_ ⟨allowed, a, tool, found, has, .inr (.inr ⟨first, user⟩)⟩
    intro now
    rw [approved] at now
    rcases Bool.or_eq_true_iff.mp now with before | answered
    · exact hx.permits.approved before
    · exact all answered
  | @executed left caller call rest tool r r' found allowed settles =>
    obtain ⟨a, agent, has⟩ := agent_of_tool found
    have same : r'.session.toolsApproved = r.session.toolsApproved := settles.approved rfl
    refine hx.execute rfl settles (by rw [same]; exact hx.permits.approved)
      ⟨?_, a, tool, agent, has, ?_⟩
    · rw [← hx.permits.permissions]
      apply Session.not_denied
      intro denied
      rcases allowed with approved | ⟨asks, -⟩
      · rw [denied] at approved
        cases approved
      · rw [denied] at asks
        cases asks
    -- Unasked, a tool runs as it was approved for the session, is allowed, or needs no approval.
    · rcases allowed with approved | ⟨-, free⟩
      · rcases Session.of_approved approved with session | allows
        · exact .inr (.inl (.inl (hx.permits.approved session)))
        · rw [hx.permits.permissions] at allows
          exact .inr (.inl (.inr allows))
      · exact .inl free
  | settled before plain settles => exact hx.settle rfl plain settles
  | @cancelled x caller queue r r' before working session journal =>
    have same : Guarded setup p c (.closed .cancelled, r') := by
      refine hx.onward rfl (by rw [session]; exact hx.permits) (by rw [session]) ?_
      rw [journal]
      exact hx.cleared
    -- Cancelled calls are settled one after the other, and none of them is executed.
    have ended := @recordCancelled_keep σ setup caller
      (fun _ s j => Guarded setup p c (.closed .cancelled, { r' with session := s, journal := j }))
      (fun settles before => before.settle rfl rfl settles) queue r' same
    exact ⟨ended.permits, by simp [Stage.isAnswering], by simp, ended.waits, ended.cleared⟩
  | @suspended left caller call rest tool r r' found asks session journal =>
    obtain ⟨a, agent, has⟩ := agent_of_tool found
    have offers : Offers setup.team p caller call := by
      refine ⟨?_, a, tool, agent, has⟩
      rw [← hx.permits.permissions]
      exact Session.not_denied (by simp [asks])
    refine ⟨?_, by simp [Stage.isAnswering], by simp, ?_, ?_⟩
    · rw [session]
      exact hx.permits.congr rfl rfl
    · rw [session]
      rintro caller call rest ⟨⟩
      exact offers
    · rw [journal]
      exact hx.cleared

theorem drive_guarded (setup : Setup σ) {followUp : Run σ → Run σ} (quiet : Quiet followUp)
    (resumed : Option (Session.Pending × Answer)) (r : Run σ) (new : r.journal = [])
    (idle : r.session.pending = none)
    (waited : ∀ caller call rest answer, resumed = some (⟨caller, call :: rest⟩, answer) →
      Offers setup.team r.session.permissions caller call) :
    Guarded setup r.session.permissions (consentTo r.session resumed)
      (.closed .cancelled, drive setup followUp resumed r) := by
  have opened : Guarded setup r.session.permissions (consentTo r.session resumed)
      (opening setup resumed, r) := by
    refine ⟨⟨rfl, ?_⟩, fun _ => new, ?_, ?_, by rw [new]; exact .nil⟩
    · intro before
      exact consentTo_approved before resumed
    · rintro left caller call rest answer begins yes
      cases resumed with
      | none => cases begins
      | some both =>
        obtain ⟨pending, said⟩ := both
        cases begins
        refine ⟨?_, if_pos yes, waited caller call rest answer rfl⟩
        intro all
        rw [consentTo, all, Bool.or_true]
    · rintro caller call rest waits
      rw [idle] at waits
      cases waits
  obtain ⟨outcome, r', steps, sum⟩ := drive_ends setup quiet resumed r
  have ended : Guarded setup r.session.permissions (consentTo r.session resumed)
      (.closed outcome, r') :=
    steps.keep (P := Guarded setup r.session.permissions (consentTo r.session resumed))
      (fun step => step.effect.guarded) opened
  obtain ⟨more, journal, summaries⟩ := sum.journal
  refine ended.onward rfl (ended.permits.congr sum.permissions sum.approved) sum.pending ?_
  rw [journal]
  exact ended.cleared.append_quiet fun entry among => Activity.not_execution (summaries entry among)

/-! ## Other answers -/

theorem declined_first {left : Nat} {caller : String} {call : ToolCall} {rest : List ToolCall}
    {answer : Answer} {r r' : Run σ} {outcome : Outcome} (no : answer.action = .decline)
    (h : Steps setup (.answering left ⟨caller, call :: rest⟩ answer, r) (.closed outcome, r')) :
    r.journal ++ [.settled caller call .declined] <+: r'.journal := by
  rcases h.cases_head with same | ⟨x, first, later⟩
  · cases same
  · cases first with
    | accepted yes => rw [no] at yes; cases yes
    | declined => exact Steps.journal_prefix later
    | abandoned off => rw [no] at off; cases off

theorem recordCancelled_journal (caller : String) (queue : List ToolCall) (r : Run σ) :
    (r.recordCancelled setup caller queue).journal =
      r.journal ++ queue.map (.settled caller · .cancelled) := by
  induction queue generalizing r with
  | nil => simp [recordCancelled]
  | cons call rest ih =>
    refine (ih _).trans ?_
    simp [recordResult, note, say, emit]

theorem cancelled_all {left : Nat} {caller : String} {call : ToolCall} {rest : List ToolCall}
    {answer : Answer} {r r' : Run σ} {outcome : Outcome} (off : answer.action = .cancel)
    (h : Steps setup (.answering left ⟨caller, call :: rest⟩ answer, r) (.closed outcome, r')) :
    r'.journal = r.journal ++ (call :: rest).map (.settled caller · .cancelled) := by
  rcases h.cases_head with same | ⟨x, first, later⟩
  · cases same
  · cases first with
    | accepted yes => rw [off] at yes; cases yes
    | declined no => rw [off] at no; cases no
    | abandoned =>
      rcases later.cases_head with same | ⟨y, next, -⟩
      · cases same
        exact recordCancelled_journal caller (call :: rest) r
      · cases next

theorem drive_declined (setup : Setup σ) {followUp : Run σ → Run σ} (quiet : Quiet followUp)
    {caller : String} {call : ToolCall} {rest : List ToolCall} {answer : Answer} {r : Run σ}
    (no : answer.action = .decline) (new : r.journal = []) :
    ∃ later, settledIn
      (drive setup followUp (some (⟨caller, call :: rest⟩, answer)) r).journal =
        ((caller, call), .declined) :: later := by
  obtain ⟨outcome, r', steps, sum⟩ :=
    drive_ends setup quiet (some (⟨caller, call :: rest⟩, answer)) r
  obtain ⟨later, split⟩ := declined_first no steps
  obtain ⟨more, journal, summaries⟩ := sum.journal
  refine ⟨settledIn later, ?_⟩
  rw [journal, settledIn_append, settledIn_summaries summaries, List.append_nil, ← split, new,
    settledIn_append]
  rfl

theorem drive_cancelled (setup : Setup σ) {followUp : Run σ → Run σ} (quiet : Quiet followUp)
    (caller : String) (call : ToolCall) (rest : List ToolCall) {answer : Answer} (r : Run σ)
    (off : answer.action = .cancel) (new : r.journal = []) :
    settledIn (drive setup followUp (some (⟨caller, call :: rest⟩, answer)) r).journal =
      ((call :: rest).map (caller, ·)).map (·, .cancelled) := by
  obtain ⟨outcome, r', steps, sum⟩ :=
    drive_ends setup quiet (some (⟨caller, call :: rest⟩, answer)) r
  obtain ⟨more, journal, summaries⟩ := sum.journal
  rw [journal, settledIn_append, settledIn_summaries summaries, List.append_nil,
    cancelled_all off steps, new, List.nil_append, settledIn, List.filterMap_map, List.map_map]
  exact congrFun List.filterMap_eq_map _

end Run

/-! ## Sessions -/

def Move.consent (m : Move σ) (s : Session) : Consent :=
  Run.consentTo s (s.pending.bind fun p => m.answer?.map (p, ·))

def Move.action? (m : Move σ) : Option ElicitationAction := m.answer?.map (·.action)

/-- The permissions are still `p`, and under them the first call that waits may run. -/
structure Guards (t : Team σ) (p : Session.Permissions) (s : Session) : Prop where
  permissions : s.permissions = p
  waits : ∀ caller call rest, s.pending = some ⟨caller, call :: rest⟩ → Offers t p caller call

namespace Team.Plays

variable {t : Team σ} {s : Session} {m : Move σ} {played : Played} {p : Session.Permissions}

theorem guards (h : t.Plays s m played) (hs : Guards t p s) :
    Guards t p played.session ∧ AtExecutions (Cleared t p (m.consent s)) played.journal := by
  obtain ⟨rfl, waits⟩ := hs
  cases h with
  | said text now => exact ⟨⟨rfl, waits⟩, .nil⟩
  | refused => exact ⟨⟨rfl, waits⟩, .nil⟩
  | ran on agent idle =>
    have guarded := Run.drive_guarded (on.setup t) (Run.quiet_followUp (on.setup t)) none
      { session := s, agent, cancel := on.cancel, world := on.world } rfl idle (by simp)
    have consent : Move.consent (.run on) s = Run.consentTo s none := by
      rw [Move.consent, idle]
      rfl
    rw [consent]
    exact ⟨⟨guarded.permits.permissions, guarded.waits⟩, guarded.cleared⟩
  | resumed on answer agent pending waiting =>
    have guarded := Run.drive_guarded (on.setup t) (Run.quiet_followUp (on.setup t))
      (some (pending, answer))
      { session := { s with pending := none }, agent, cancel := on.cancel, world := on.world } rfl
      rfl (by rintro caller call rest said ⟨⟩; exact waits caller call rest waiting)
    have consent :
        Move.consent (.resume on answer) s = Run.consentTo s (some (pending, answer)) := by
      rw [Move.consent, waiting]
      rfl
    rw [consent]
    exact ⟨⟨guarded.permits.permissions, guarded.waits⟩, guarded.cleared⟩
  | summarised on agent played sum =>
    obtain ⟨more, journal, summaries⟩ := sum.journal
    refine ⟨⟨sum.permissions, by rw [sum.pending]; exact waits⟩, ?_⟩
    rw [journal]
    exact AtExecutions.nil.append_quiet fun entry among =>
      Activity.not_execution (summaries entry among)

theorem answered (h : t.Plays s m played) {action : ElicitationAction}
    (said : m.action? = some action) {made : String × ToolCall} {others : List (String × ToolCall)}
    (waiting : s.outstanding = made :: others) :
    ∃ (on : Occasion σ) (answer : Answer) (agent caller : String) (call : ToolCall)
      (rest : List ToolCall), answer.action = action ∧ made = (caller, call) ∧
      others = rest.map (caller, ·) ∧
      played = .ofRun (Run.drive (on.setup t) (Run.followUp (on.setup t))
        (some (⟨caller, call :: rest⟩, answer))
        { session := { s with pending := none }, agent, cancel := on.cancel
          world := on.world }) := by
  cases h with
  | said text now => cases said
  | ran => cases said
  | summarised => cases said
  | refused m idle =>
    obtain ⟨answer, brings, -⟩ := Option.map_eq_some_iff.mp said
    rw [Session.outstanding_of_none (idle (by rw [brings]; rfl))] at waiting
    cases waiting
  | resumed on answer agent pending waits =>
    obtain ⟨caller, calls⟩ := pending
    rw [Session.outstanding_of_some waits] at waiting
    obtain ⟨call, rest, rfl, rfl, rfl⟩ := List.map_eq_cons_iff.mp waiting
    exact ⟨on, answer, agent, caller, call, rest, Option.some.inj said, rfl, rfl, rfl⟩

theorem declined (h : t.Plays s m played) (no : m.action? = some .decline)
    {made : String × ToolCall} {others : List (String × ToolCall)}
    (waiting : s.outstanding = made :: others) :
    ∃ later, settledIn played.journal = (made, .declined) :: later := by
  obtain ⟨on, answer, agent, caller, call, rest, action, rfl, -, rfl⟩ := h.answered no waiting
  exact Run.drive_declined _ (Run.quiet_followUp _) action rfl

theorem cancelled (h : t.Plays s m played) (off : m.action? = some .cancel) (k : Nat)
    {made : String × ToolCall} (waiting : s.outstanding[k]? = some made) :
    (settledIn played.journal)[k]? = some (made, .cancelled) := by
  cases outstanding : s.outstanding with
  | nil =>
    rw [outstanding] at waiting
    cases waiting
  | cons first others =>
    obtain ⟨on, answer, agent, caller, call, rest, action, rfl, rfl, rfl⟩ :=
      h.answered off outstanding
    have settled := Run.drive_cancelled (on.setup t) (Run.quiet_followUp (on.setup t)) caller call
      rest { session := { s with pending := none }, agent, cancel := on.cancel, world := on.world }
      action rfl
    rw [outstanding] at waiting
    refine (congrArg (·[k]?) settled).trans ?_
    rw [List.getElem?_map]
    exact congrArg (Option.map (·, Settlement.cancelled)) waiting

end Team.Plays

theorem Run.Suggested.not_execution {j : List Activity} (h : Run.Suggested σ j) :
    ∀ entry ∈ j, entry.isExecution = false := by
  intro entry among
  cases h with
  | nothing => cases among
  | @run m config lastUser lastAssistant setup r alone own new =>
    have guarded := Run.drive_guarded setup Run.quiet_id none r new (by rw [own]; rfl) (by simp)
    cases execution : entry.isExecution with
    | false => rfl
    | true =>
      obtain ⟨caller, call, approval, accepted, rfl⟩ := Activity.eq_of_isExecution execution
      obtain ⟨i, found⟩ := List.mem_iff_getElem?.mp among
      obtain ⟨-, a, tool, agent, has, -⟩ := guarded.cleared i caller call approval accepted found
      have member := List.mem_of_find?_eq_some agent
      rw [alone] at member
      rw [List.mem_singleton.mp member] at has
      cases has

/-- What users can rely on when they give or refuse consent, of a move between others. The calls of
the session are numbered as they are issued. -/
structure ApprovalSafe (t : Team σ) (s₀ : Session) (past : List (Move σ)) (m : Move σ)
    (future : List (Move σ)) : Prop where
  cleared : AtExecutions (Cleared t s₀.permissions (m.consent (t.after s₀ past)))
    (t.play (t.after s₀ past) m).journal
  aside : ∀ entry ∈ (t.play (t.after s₀ past) m).aside, entry.isExecution = false
  /-- The calls are settled by their numbers, each once; the rest waits in the end. -/
  once : issuedIn (t.journal s₀ (past ++ m :: future)) =
    (settledIn (t.journal s₀ (past ++ m :: future))).map Prod.fst ++
      (t.after s₀ (past ++ m :: future)).outstanding
  declined : m.action? = some .decline →
    ∀ made others, (t.after s₀ past).outstanding = made :: others →
      (settledIn (t.journal s₀ (past ++ m :: future)))[(settledIn (t.journal s₀ past)).length]? =
        some (made, .declined)
  cancelled : m.action? = some .cancel →
    ∀ k made, (t.after s₀ past).outstanding[k]? = some made →
      (settledIn (t.journal s₀ (past ++ m :: future)))[(settledIn (t.journal s₀ past)).length + k]?
        = some (made, .cancelled)

theorem settledIn_journal (t : Team σ) (s₀ : Session) (past : List (Move σ)) (m : Move σ)
    (future : List (Move σ)) :
    settledIn (t.journal s₀ (past ++ m :: future)) =
      settledIn (t.journal s₀ past) ++ (settledIn (t.play (t.after s₀ past) m).journal ++
        settledIn (t.journal (t.play (t.after s₀ past) m).session future)) := by
  rw [Team.journal_append, settledIn_append, Team.journal, settledIn_append]

/-- Approval holds for every move of every session that begins with no call waiting. -/
theorem approval_safe (t : Team σ) {s₀ : Session} (idle : s₀.pending = none)
    (past : List (Move σ)) (m : Move σ) (future : List (Move σ)) :
    ApprovalSafe t s₀ past m future := by
  have begins : Guards t s₀.permissions s₀ := by
    refine ⟨rfl, ?_⟩
    intro caller call rest waits
    rw [idle] at waits
    cases waits
  have guards : Guards t s₀.permissions (t.after s₀ past) :=
    t.after_keep (P := Guards t s₀.permissions) (fun s m h => ((t.play_plays s m).guards h).1)
      begins past
  have plays := t.play_plays (t.after s₀ past) m
  have balanced := t.journal_balanced s₀ (past ++ m :: future)
  refine ⟨(plays.guards guards).2, plays.suggested.not_execution, ?_, ?_, ?_⟩
  · rwa [Balanced, Session.outstanding_of_none idle, List.nil_append] at balanced
  · intro no made others waiting
    obtain ⟨later, settled⟩ := plays.declined no waiting
    rw [settledIn_journal, List.getElem?_append_right (Nat.le_refl _), Nat.sub_self, settled]
    rfl
  · intro off k made waiting
    have settled := plays.cancelled off k waiting
    have inside := (List.getElem?_eq_some_iff.mp settled).1
    rw [settledIn_journal, List.getElem?_append_right (Nat.le_add_right _ _),
      Nat.add_sub_cancel_left, List.getElem?_append_left inside, settled]

/-- The user accepts the first of two calls. -/
theorem approval_safe_sample :
    Cleared Sample.team Sample.session.permissions ⟨false, some ("root", Sample.call "1")⟩ 0 "root"
      (Sample.call "1") :=
  have idle : Sample.session.pending = none := rfl
  (approval_safe Sample.team idle Sample.suspended
    (.resume (Sample.occasion []) .accept) []).cleared 0 "root" (Sample.call "1") .ask true rfl

end Ensemble
