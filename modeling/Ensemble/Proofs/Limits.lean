import Ensemble.Proofs.Accounts
import Ensemble.Proofs.Billing
import Ensemble.Proofs.Growth
import Ensemble.Proofs.Worlds

/-!
# The limit of requests

A driver asks at most as often as its settings allow. If every reply made calls until then, it ends
as `done` with a reason of its own, and every call has its result. A driver that goes on after the
user's answer counts from the beginning again: over the life of a session the bound is that of each
driver, times their number.

Requests are counted in the journal, which leaves none out (`Setup.run_accounted`). Summaries and
suggestions are not requests of an agent and are not counted.
-/

namespace Ensemble

/-- The calls of a reply that came to its end. -/
def Activity.turn? : Activity → Option (List ToolCall)
  | .replied _ calls _ => some calls
  | _ => none

def turnsIn (j : List Activity) : List (List ToolCall) := j.filterMap Activity.turn?

@[simp] theorem askedIn_append (j k : List Activity) : askedIn (j ++ k) = askedIn j ++ askedIn k :=
  List.filterMap_append

@[simp] theorem turnsIn_append (j k : List Activity) : turnsIn (j ++ k) = turnsIn j ++ turnsIn k :=
  List.filterMap_append

def Event.outcome? : Event → Option Outcome
  | .done _ reason _ _ => some (.done reason)
  | .error message => some (.failed message)
  | .cancelled => some .cancelled
  | .elicitationRequest .. => some .suspended
  | _ => none

/-- With `left` requests to go, every reply so far has made calls. -/
structure Going (max left : Nat) (j : List Activity) : Prop where
  spent : (askedIn j).length + left = max
  replied : (turnsIn j).length = (askedIn j).length
  onward : [] ∉ turnsIn j

/-- What an outcome tells about the requests. -/
structure Spent (max : Nat) (outcome : Outcome) (j : List Activity) : Prop where
  asked : (askedIn j).length ≤ max
  /-- Without a last reply the work is done only at the limit. -/
  done : ∀ reason, outcome = .done reason → [] ∉ turnsIn j →
    reason = "max_iterations" ∧ (askedIn j).length = max
  failed : ∀ message, outcome = .failed message → (turnsIn j).length < max

namespace Going

variable {max left : Nat} {j k : List Activity}

theorem append (h : Going max left j) (quiet : askedIn k = []) (noTurn : turnsIn k = []) :
    Going max left (j ++ k) := by
  constructor
  · rw [askedIn_append, quiet, List.append_nil]
    exact h.spent
  · rw [askedIn_append, turnsIn_append, quiet, noTurn, List.append_nil, List.append_nil]
    exact h.replied
  · rw [turnsIn_append, noTurn, List.append_nil]
    exact h.onward

theorem settle (h : Going max left j) {caller : String} {call : ToolCall} {how : Settlement}
    (settled : k = j ++ [.settled caller call how]) : Going max left k := by
  rw [settled]
  exact h.append rfl rfl

theorem turn (h : Going max (left + 1) j) {agent : String} {request : Model.Request}
    {calls : List ToolCall} {usage : Option Usage} (more : calls ≠ [])
    (noted : k = j ++ [.asked agent request, .replied agent calls usage]) : Going max left k := by
  have asked : askedIn k = askedIn j ++ [agent] := by rw [noted, askedIn_append]; rfl
  have turns : turnsIn k = turnsIn j ++ [calls] := by rw [noted, turnsIn_append]; rfl
  have spent := h.spent
  have replied := h.replied
  constructor
  · rw [asked, List.length_append, List.length_singleton]
    omega
  · rw [asked, turns, List.length_append, List.length_append, replied]
    rfl
  · rw [turns, List.mem_append, List.mem_singleton]
    rintro (before | same)
    · exact h.onward before
    · exact more same.symm

theorem spent_of_cancelled (h : (askedIn j).length ≤ max) : Spent max .cancelled j :=
  ⟨h, by rintro reason ⟨⟩, by rintro message ⟨⟩⟩

theorem asked_le (h : Going max left j) : (askedIn j).length ≤ max := by
  have spent := h.spent
  omega

theorem unanswered (h : Going max (left + 1) j) {agent : String} {request : Model.Request}
    {outcome : Outcome} (noted : k = j ++ [.asked agent request])
    (broken : ∀ reason, outcome ≠ .done reason) : Spent max outcome k := by
  have asked : askedIn k = askedIn j ++ [agent] := by rw [noted, askedIn_append]; rfl
  have turns : turnsIn k = turnsIn j := by
    rw [noted, turnsIn_append, show turnsIn [.asked agent request] = [] from rfl, List.append_nil]
  have spent := h.spent
  have replied := h.replied
  constructor
  · rw [asked, List.length_append, List.length_singleton]
    omega
  · intro reason ends
    exact (broken reason ends).elim
  · intro message _
    rw [turns]
    omega

theorem answered (h : Going max (left + 1) j) {agent reason : String} {request : Model.Request}
    {usage : Option Usage} (noted : k = j ++ [.asked agent request, .replied agent [] usage]) :
    Spent max (.done reason) k := by
  have asked : askedIn k = askedIn j ++ [agent] := by rw [noted, askedIn_append]; rfl
  have turns : turnsIn k = turnsIn j ++ [[]] := by rw [noted, turnsIn_append]; rfl
  have spent := h.spent
  constructor
  · rw [asked, List.length_append, List.length_singleton]
    omega
  · intro _ _ unfinished
    exact (unfinished (by simp [turns])).elim
  · rintro message ⟨⟩

end Going

namespace Run

variable {σ : Type} {setup : Setup σ} {max : Nat}

/-- How many requests a run has made and has left at a stage of its work. -/
def Counts (max : Nat) : Stage × Run σ → Prop
  | (.answering left _ _, r) | (.asking left, r) | (.calling left _ _, r) =>
    Going max left r.journal
  | (.closed outcome, r) => Spent max outcome r.journal

theorem interruption_not_done (why : Interruption) (provider reason : String) :
    why.outcome provider ≠ .done reason := by
  cases why <;> simp [Interruption.outcome]

theorem recordCancelled_spent {j : List Activity} {r : Run σ} (h : Going max left j)
    (same : r.journal = j) (caller : String) (queue : List ToolCall) :
    Spent max .cancelled (r.recordCancelled setup caller queue).journal := by
  have kept := @recordCancelled_keep σ setup caller (fun _ _ k => (askedIn k).length ≤ max)
    (fun settles before => by
      rw [settles.journal, askedIn_append, List.length_append]
      exact before) queue r (by rw [same]; exact h.asked_le)
  exact Going.spent_of_cancelled kept

theorem recordTurn_noted (setup : Setup σ) (r : Run σ) (a : Agent σ) (request : Model.Request)
    (world : σ) (intake : Intake) :
    (((r.look.look.send request world).takeIn intake).recordTurn setup a.model
      intake.assembly).journal = r.journal ++
        [.asked r.agent request, .replied r.agent intake.assembly.calls intake.assembly.usage] := by
  rw [(recordTurn_frame setup a.model intake.assembly _).1]
  simp [takeIn, send, note, look]

theorem Step.counts {x y : Stage × Run σ} (h : Step setup x y) (hx : Counts max x) :
    Counts max y := by
  cases h with
  | idle | finished => exact hx
  | @accepted left caller call rest answer r yes =>
    have going : Going max left r.journal := hx
    split
    · exact going.settle (execute_settles r.approveAll true).journal
    · exact going.settle (execute_settles r true).journal
  | declined => exact Going.settle hx rfl
  | abandoned => exact recordCancelled_spent hx rfl _ _
  | stopped | withdrawn => exact Going.spent_of_cancelled (Going.asked_le hx)
  | @exhausted r going =>
    have spent : Going max 0 r.journal := hx
    refine ⟨spent.asked_le, ?_, by rintro message ⟨⟩⟩
    rintro reason ⟨⟩ -
    exact ⟨rfl, spent.spent⟩
  | @lost left r e going missing =>
    have before : Going max (left + 1) r.journal := hx
    -- Every request was replied to, and there is a turn left.
    have spent := before.spent
    refine ⟨before.asked_le, by rintro reason ⟨⟩, ?_⟩
    rintro message -
    have replied : (turnsIn r.journal).length = (askedIn r.journal).length := before.replied
    show (turnsIn r.journal).length < max
    omega
  | refused => exact Going.unanswered hx rfl (interruption_not_done _ _)
  | interrupted =>
    exact Going.unanswered hx (by rw [recordInterrupted_journal]; rfl) (interruption_not_done _ _)
  | @answered left r a steps world intake found reply read whole final =>
    have noted := recordTurn_noted setup r a (requestOf setup r.session a) world intake
    rw [final] at noted
    exact Going.answered hx noted
  | called found reply read whole more => exact Going.turn hx more (recordTurn_noted _ _ _ _ _ _)
  | @dropped left caller call rest r =>
    exact recordCancelled_spent (r := r.look) hx rfl caller (call :: rest)
  | @transferred left caller call rest r =>
    have settles : Settles setup caller call .transfer r.session r.journal _ _ :=
      handoff_settles (r.look.announce caller call)
    exact Going.settle hx settles.journal
  | unknown | denied => exact Going.settle hx rfl
  | @suspended left caller call rest r tool found asks careful =>
    exact ⟨Going.asked_le hx, by rintro reason ⟨⟩, by rintro message ⟨⟩⟩
  | @executed left caller call rest r tool going found allowed =>
    exact Going.settle hx (execute_settles (r.look.announce caller call) false).journal

theorem counts_opening {resumed : Option (Session.Pending × Answer)} {r : Run σ}
    (new : r.journal = []) : Counts setup.config.maxIterations (opening setup resumed, r) := by
  have going : Going setup.config.maxIterations setup.config.maxIterations r.journal := by
    rw [new]
    exact ⟨Nat.zero_add _, rfl, List.not_mem_nil⟩
  cases resumed <;> exact going

/-! ## The end of a driver -/

theorem finish_outcome (setup : Setup σ) {outcome : Outcome} {r : Run σ}
    (h : Reports (.closed outcome, r)) :
    (finish setup (followUp setup) outcome r).events.getLast?.bind Event.outcome? =
      some outcome := by
  cases outcome with
  | done reason => simp [finish, emit, doneEvent, Event.outcome?]
  | cancelled => simp [finish, emit, Event.outcome?]
  | failed message => simp [finish, emit, Event.outcome?]
  | suspended =>
    obtain ⟨work, caller, call, rest, asked, -⟩ := Suspended.asked h
    simp [finish, asked, Event.outcome?]

theorem silent_summaries {j : List Activity} (h : ∀ entry ∈ j, entry.isSummary = true) :
    askedIn j = [] ∧ turnsIn j = [] :=
  ⟨filterMap_summaries (fun _ _ => rfl) (fun _ _ => rfl) h,
    filterMap_summaries (fun _ _ => rfl) (fun _ _ => rfl) h⟩

theorem drive_spent (setup : Setup σ) (resumed : Option (Session.Pending × Answer)) {r : Run σ}
    (events : r.events = []) (journal : r.journal = []) (idle : r.session.pending = none) :
    ∃ outcome, (drive setup (followUp setup) resumed r).events.getLast?.bind Event.outcome? =
        some outcome ∧
      Spent setup.config.maxIterations outcome
        (drive setup (followUp setup) resumed r).journal := by
  have busy : Busy r := ⟨by simp [events], idle⟩
  have opened : Reports (opening setup resumed, r) := by
    cases resumed <;> exact busy
  have steps := work_steps setup resumed r
  have spent : Spent setup.config.maxIterations _ (work setup resumed r).1.journal :=
    steps.keep (P := Counts setup.config.maxIterations) Step.counts (counts_opening journal)
  refine ⟨_, finish_outcome setup (steps.keep Step.reports opened), ?_⟩
  obtain ⟨more, grown, summaries⟩ :=
    (finish_summarises setup (quiet_followUp setup) (work setup resumed r).2
      (work setup resumed r).1).journal
  obtain ⟨noRequest, noTurn⟩ := silent_summaries summaries
  have asked : askedIn (drive setup (followUp setup) resumed r).journal =
      askedIn (work setup resumed r).1.journal := by
    rw [drive, grown, askedIn_append, noRequest, List.append_nil]
  have turns : turnsIn (drive setup (followUp setup) resumed r).journal =
      turnsIn (work setup resumed r).1.journal := by
    rw [drive, grown, turnsIn_append, noTurn, List.append_nil]
  constructor
  · rw [asked]
    exact spent.asked
  · rw [asked, turns]
    exact spent.done
  · rw [turns]
    exact spent.failed

end Run

/-- What the limit of requests means for a driver; `owed` are the calls that waited before. -/
structure Limited (max : Nat) (owed : List (String × ToolCall)) {σ : Type} (r : Run σ) : Prop where
  asked : (askedIn r.journal).length ≤ max
  /-- When the limit ends the work it is `done`, for this reason. -/
  reached : (turnsIn r.journal).length = max → [] ∉ turnsIn r.journal →
    r.events.getLast?.bind Event.outcome? ∈
      [some (.done "max_iterations"), some .suspended, some .cancelled]
  /-- Nothing else makes it `done` without a last reply. -/
  unfinished : ∀ reason, r.events.getLast?.bind Event.outcome? = some (.done reason) →
    [] ∉ turnsIn r.journal → reason = "max_iterations" ∧ (askedIn r.journal).length = max
  settled : ∀ reason, r.events.getLast?.bind Event.outcome? = some (.done reason) →
    owed ++ issuedIn r.journal = (settledIn r.journal).map Prod.fst

variable {σ : Type}

theorem Run.drive_limited (setup : Setup σ) {resumed : Option (Session.Pending × Answer)}
    {r : Run σ} {owed : List (String × ToolCall)} (events : r.events = [])
    (journal : r.journal = []) (idle : r.session.pending = none)
    (waits : (opening setup resumed).waiting = owed) :
    Limited setup.config.maxIterations owed (drive setup (followUp setup) resumed r) := by
  obtain ⟨outcome, last, spent⟩ := drive_spent setup resumed events journal idle
  have accounts : Accounts owed (opening setup resumed, r) :=
    .of_idle idle (by rw [journal, waits]; exact .nil owed)
  have balanced := drive_balanced (quiet_followUp setup) accounts
  refine ⟨spent.asked, ?_, ?_, ?_⟩
  · intro full onward
    rw [last]
    cases outcome with
    | done reason => rw [(spent.done reason rfl onward).1]; simp
    | suspended | cancelled => simp
    | failed message =>
      have fewer := spent.failed message rfl
      omega
  · intro reason ends
    rw [last] at ends
    cases ends
    exact spent.done reason rfl
  · intro reason ends
    have free : (drive setup (followUp setup) resumed r).session.pending = none := by
      cases waits : (drive setup (followUp setup) resumed r).session.pending with
      | none => rfl
      | some p =>
        obtain ⟨call, rest, -, asks⟩ := (drive_ended setup resumed events idle).waits p waits
        rw [asks] at ends
        cases ends
    rw [Session.outstanding_of_none free] at balanced
    simpa [Balanced] using balanced

theorem Setup.run_limited {setup : Setup σ} {s : Session} {c : Cancellation} {world : σ} {r : Run σ}
    (ran : setup.run s c world = .ok r ∨ ∃ answer, setup.resume s answer c world = .ok r) :
    Limited setup.config.maxIterations s.outstanding r := by
  obtain ⟨resumed, agent, waits, rfl⟩ := Setup.started_eq_ok ran
  refine Run.drive_limited setup rfl rfl rfl ?_
  cases resumed with
  | none => exact (Session.outstanding_of_none waits).symm
  | some answered => exact (Session.outstanding_of_some waits).symm

/-! ## Sessions -/

def Move.occasion? : Move σ → Option (Occasion σ)
  | .run on | .resume on _ | .summarize on _ => some on
  | .say .. => none

theorem Run.Ended.one_terminal {r : Run σ} (h : r.Ended) :
    r.events.countP Event.isTerminal = 1 := by
  obtain ⟨before, last, events, terminal, plain⟩ := h.terminal
  have none : before.countP Event.isTerminal = 0 := List.countP_eq_zero.mpr fun e among => by
    simp [plain e among]
  rw [events, List.countP_append, none, List.countP_singleton, if_pos terminal]

namespace Team

/-- The bound for a move is that of its driver, if it starts one. -/
theorem play_asked (t : Team σ) (s : Session) {m : Move σ} {max : Nat}
    (limit : ∀ on ∈ m.occasion?, on.config.maxIterations ≤ max) :
    (askedIn (t.play s m).journal).length ≤
      max * (t.play s m).events.countP Event.isTerminal := by
  have driven {setup : Setup σ} {c : Cancellation} {world : σ} {r : Run σ}
      (within : setup.config.maxIterations ≤ max)
      (ran : setup.run s c world = .ok r ∨ ∃ answer, setup.resume s answer c world = .ok r) :
      (askedIn r.journal).length ≤ max * r.events.countP Event.isTerminal := by
    have ended : r.Ended := by
      rcases ran with ran | ⟨answer, resumed⟩
      · exact (driver_ended setup s c world).1 r ran
      · exact (driver_ended setup s c world).2 answer r resumed
    rw [ended.one_terminal, Nat.mul_one]
    exact Nat.le_trans (Setup.run_limited ran).asked within
  cases m with
  | say text now => exact Nat.zero_le _
  | run on =>
    simp only [play]
    split
    · rename_i r ran
      exact driven (limit on rfl) (.inl ran)
    · exact Nat.zero_le _
  | resume on answer =>
    simp only [play]
    split
    · rename_i r resumed
      exact driven (limit on rfl) (.inr ⟨answer, resumed⟩)
    · exact Nat.zero_le _
  | summarize on agent =>
    have sum := (on.setup t).summarize_summarises s agent on.cancel on.world []
    obtain ⟨more, journal, summaries⟩ := sum.journal
    rw [List.nil_append, List.nil_append] at journal
    simp only [play, journal, (Run.silent_summaries summaries).1]
    exact Nat.zero_le _

theorem journal_asked (t : Team σ) (s : Session) {moves : List (Move σ)} {max : Nat}
    (limit : ∀ m ∈ moves, ∀ on ∈ m.occasion?, on.config.maxIterations ≤ max) :
    (askedIn (t.journal s moves)).length ≤ max * (t.events s moves).countP Event.isTerminal := by
  induction moves generalizing s with
  | nil => exact Nat.zero_le _
  | cons m rest ih =>
    have first := t.play_asked s (limit m (.head _))
    have later := ih (t.play s m).session fun other among => limit other (.tail _ among)
    rw [journal, events, askedIn_append, List.length_append, List.countP_append, Nat.mul_add]
    omega

end Team

/-- The limit holds for each driver, whether it begins a run or goes on with a suspended one, and the
journal in which requests are counted leaves none out; where the limit ends the work, the driver is
`done` with that reason and leaves no call without a result. So over any moves there are at most as
many requests for every terminal event. -/
theorem requests_limited (σ : Type) :
    (∀ (setup : Setup σ) (s : Session) (c : Cancellation) (world : σ) (r : Run σ),
      (setup.run s c world = .ok r ∨ ∃ answer, setup.resume s answer c world = .ok r) →
        Limited setup.config.maxIterations s.outstanding r ∧ r.Accounted setup.team world) ∧
      ∀ (t : Team σ) (s : Session) (max : Nat) (moves : List (Move σ)),
        (∀ m ∈ moves, ∀ on ∈ m.occasion?, on.config.maxIterations ≤ max) →
          (askedIn (t.journal s moves)).length ≤
            max * (t.events s moves).countP Event.isTerminal :=
  ⟨fun _ _ _ _ _ ran => ⟨Setup.run_limited ran, Setup.run_accounted ran⟩,
    fun t s _ _ limit => t.journal_asked s limit⟩

namespace Sample

def single (reply : List Model.Delta) : Occasion Model.Playback :=
  { occasion [reply] with config := { maxIterations := 1 } }

def consented : List (Move Model.Playback) :=
  [.run (single [.callStart "1" "touch", .done none none]),
    .resume (single [.text "done", .done none none]) .accept]

end Sample

/-- With one request for each driver, a run and the one that continues it make two. -/
theorem requests_limited_sample :
    let j := Sample.team.journal Sample.session Sample.consented
    let events := Sample.team.events Sample.session Sample.consented
    (askedIn j).length = 2 ∧ events.countP Event.isTerminal = 2 ∧
      (askedIn j).length ≤ 1 * events.countP Event.isTerminal ∧
      ∃ r, ((Sample.single [.callStart "1" "touch", .done none none]).setup Sample.team).run
          Sample.session .never
          (Sample.single [.callStart "1" "touch", .done none none]).world = .ok r ∧
        Limited 1 [] r ∧ askedIn r.journal = ["root"] := by
  obtain ⟨driver, life⟩ := requests_limited Model.Playback
  refine ⟨rfl, rfl, ?_, _, rfl, ?_, rfl⟩
  · apply life Sample.team Sample.session 1 Sample.consented
    rintro m (_ | ⟨_, _ | ⟨_, ⟨⟩⟩⟩) on ⟨⟩ <;> exact Nat.le_refl 1
  · exact (driver ((Sample.single [.callStart "1" "touch", .done none none]).setup Sample.team)
      Sample.session .never _ _ (.inl rfl)).1

end Ensemble
