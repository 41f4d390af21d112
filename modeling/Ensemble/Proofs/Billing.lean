import Ensemble.Proofs.Endings
import Ensemble.Proofs.Growth

/-!
# What is counted of the tokens used

Every reply reports what it has used. The bill of a session lists what is reported as its moves are
made, reply after reply: to an agent that takes the reply in to its end (`Run.dispatchBill`), and
for a summary (`Setup.summaryBill`). The counters of the session grow by what is on the bill, step
by step (`Run.callModel_charged`, `Setup.summarize_charged`) and so over any moves
(`Team.after_charged`).

Of a summary with nothing in it nothing is on the bill, although it has been reported as well. What
the search for suggestions uses is left out by design: it has a session of its own.
-/

namespace Ensemble

/-! ## Counting -/

/-- The counters of `s'` are those of `s`, counted on by `bill`. -/
structure Charged (s : Session) (bill : List Usage) (s' : Session) : Prop where
  input : s'.inputTokens = bill.foldl (fun n usage => n + usage.input) s.inputTokens
  output : s'.outputTokens = bill.foldl (fun n usage => n + usage.output) s.outputTokens

namespace Charged

variable {s s' s'' : Session} {bill more : List Usage}

theorem refl (s : Session) : Charged s [] s := ⟨rfl, rfl⟩

theorem append (h : Charged s bill s') (h' : Charged s' more s'') : Charged s (bill ++ more) s'' := by
  constructor
  · rw [List.foldl_append, ← h.input, h'.input]
  · rw [List.foldl_append, ← h.output, h'.output]

end Charged

def total (counter : Usage → UInt64) : List Usage → Nat
  | [] => 0
  | usage :: rest => (counter usage).toNat + total counter rest

theorem toNat_foldl (counter : Usage → UInt64) (bill : List Usage) (n : UInt64)
    (fits : n.toNat + total counter bill < UInt64.size) :
    (bill.foldl (fun n usage => n + counter usage) n).toNat = n.toNat + total counter bill := by
  induction bill generalizing n with
  | nil => rfl
  | cons usage rest ih =>
    rw [total] at fits
    have first : (n + counter usage).toNat = n.toNat + (counter usage).toNat := by
      rw [UInt64.toNat_add]
      exact Nat.mod_eq_of_lt (Nat.lt_of_le_of_lt (by omega) fits)
    rw [List.foldl_cons, ih, first, total]
    · omega
    · omega

/-! ## What replies report -/

namespace Model

def Delta.report? : Delta → Option (Option Usage)
  | .done _ usage => some usage
  | _ => none

def Step.report? : Step → Option (Option Usage)
  | .item (.ok d) _ | .checked d => d.report?
  | .item (.error _) _ | .wait _ => none

/-- The usage that a reply reports when it ends. If it says so more than once, the last time
counts. -/
def reported (steps : List Step) (before : Option Usage := none) : Option Usage :=
  (steps.filterMap Step.report?).getLast?.getD before

theorem reported_cons (step : Step) (rest : List Step) (before : Option Usage) :
    reported (step :: rest) before = reported rest (step.report?.getD before) := by
  unfold reported
  rw [List.filterMap_cons]
  cases step.report? with
  | none => rfl
  | some usage => rw [List.getLast?_cons]; rfl

end Model

theorem Intake.take_usage {i i' : Intake} {d : Model.Delta} (took : i.take d = .ok i') :
    i'.assembly.usage = d.report?.getD i.assembly.usage := by
  cases d with
  | error message => cases took
  | _ => cases took; rfl

theorem Intake.read_usage {i : Intake} {steps : List Model.Step}
    (whole : (i.read steps).interruption = none) :
    (i.read steps).assembly.usage = Model.reported steps i.assembly.usage := by
  induction steps generalizing i with
  | nil =>
    simp only [Intake.read] at whole ⊢
    split at whole
    · cases whole
    · rename_i going
      rw [if_neg going]
      rfl
  | cons step rest ih =>
    rw [Model.reported_cons]
    simp only [Intake.read] at whole ⊢
    split at whole
    · cases whole
    rename_i going
    rw [if_neg going]
    cases step with
    | item reply cancels =>
      cases reply with
      | error e => cases whole
      | ok d =>
        dsimp only at whole ⊢
        split at whole
        · rename_i i' took
          have used := Intake.take_usage took
          exact (ih whole).trans (congrArg (Model.reported rest ·) used)
        · cases whole
    | checked d =>
      dsimp only at whole ⊢
      split at whole
      · rename_i i' took
        have used := Intake.take_usage took
        exact (ih whole).trans (congrArg (Model.reported rest ·) used)
      · cases whole
    | wait time => exact ih whole

namespace Summary

theorem Reading.take_usage {r r' : Reading} {d : Model.Delta} (took : r.take d = .ok r') :
    r'.usage = d.report?.getD r.usage := by
  cases d with
  | error message => cases took
  | _ => cases took; rfl

theorem read_usage {c c' : Cancellation} {acc reading : Reading} {steps : List Model.Step}
    (whole : read c acc steps = (.ok reading, c')) :
    reading.usage = Model.reported steps acc.usage := by
  induction steps generalizing c acc with
  | nil => cases whole; rfl
  | cons step rest ih =>
    rw [Model.reported_cons]
    cases step with
    | item reply cancels =>
      cases reply with
      | error e => cases whole
      | ok d =>
        simp only [read] at whole
        split at whole
        · rename_i acc' took
          rw [ih whole]
          exact congrArg _ (Reading.take_usage took)
        · cases whole
    | checked d =>
      simp only [read] at whole
      split at whole
      · cases whole
      split at whole
      · rename_i acc' took
        rw [ih whole]
        exact congrArg _ (Reading.take_usage took)
      · cases whole
    | wait time =>
      simp only [read] at whole
      split at whole
      · cases whole
      · exact ih whole

end Summary

/-- What a reply reports to an agent that takes it in to its end; of a reply that fails or is
cancelled nothing is counted. -/
def Intake.reportOf (c : Cancellation) : Except ModelError (List Model.Step) → List Usage
  | .ok steps =>
    if (Intake.read { cancel := c } steps).interruption = none then (Model.reported steps).toList
    else []
  | .error _ => []

/-- What a reply reports that is read to its end for a summary, if there is a summary in it. -/
def Summary.reportOf (c : Cancellation) : Except ModelError (List Model.Step) → List Usage
  | .ok steps =>
    match (read c {} steps).1 with
    | .ok reading => if (Text.trim reading.text).isEmpty then [] else (Model.reported steps).toList
    | .error _ => []
  | .error _ => []

/-! ## The bill -/

namespace Run

variable {σ : Type} (setup : Setup σ)

def dispatchBill (r : Run σ) : List Usage :=
  match setup.team.agent r.agent with
  | .error _ => []
  | .ok a =>
    let r := r.look
    if r.cancel.requested then []
    else
      Intake.reportOf r.cancel
        (a.model.complete r.cancel.requested (requestOf setup r.session a) r.world).1

def loopBill : Nat → Run σ → List Usage
  | 0, _ => []
  | left + 1, r =>
    let r := r.look
    if r.cancel.requested then []
    else
      dispatchBill setup r ++
        match callModel setup r with
        | (_, .error _) => []
        | (r, .ok turn) =>
          match turn.calls with
          | [] => []
          | calls =>
            match processCalls setup r.agent calls r with
            | (r, .goOn) => loopBill left r
            | _ => []

def workBill (resumed : Option (Session.Pending × Answer)) (r : Run σ) : List Usage :=
  match resumed with
  | none => loopBill setup setup.config.maxIterations r
  | some (pending, answer) =>
    match resumeCalls setup pending answer r with
    | (r, .goOn) => loopBill setup setup.config.maxIterations r
    | _ => []

end Run

def Setup.summaryBill {σ : Type} (setup : Setup σ) (s : Session) (agent : String)
    (c : Cancellation) (world : σ) : List Usage :=
  match setup.team.agent agent with
  | .error _ => []
  | .ok a =>
    match Summary.request? setup.here s a setup.team with
    | none => []
    | some request =>
      Summary.reportOf c.look (a.model.complete c.look.requested request world).1

namespace Run

variable {σ : Type} (setup : Setup σ)

def compactBill (r : Run σ) : List Usage :=
  if needsCompaction setup r then setup.summaryBill r.session r.agent r.cancel r.world else []

/-- A run that is done may be summarised at its end. -/
def driveBill (resumed : Option (Session.Pending × Answer)) (r : Run σ) : List Usage :=
  workBill setup resumed r ++
    match work setup resumed r with
    | (r, .done _) => compactBill setup r
    | _ => []

end Run

namespace Team

variable {σ : Type}

def moveBill (t : Team σ) (s : Session) : Move σ → List Usage
  | .say .. => []
  | .run on =>
    match (on.setup t).start s on.cancel on.world with
    | .ok r => Run.driveBill (on.setup t) none r
    | .error _ => []
  | .resume on answer =>
    match Setup.startResumed s on.cancel on.world with
    | .ok (r, pending) => Run.driveBill (on.setup t) (some (pending, answer)) r
    | .error _ => []
  | .summarize on agent => (on.setup t).summaryBill s agent on.cancel on.world

def bill (t : Team σ) (s : Session) : List (Move σ) → List Usage
  | [] => []
  | m :: rest => t.moveBill s m ++ t.bill (t.play s m).session rest

end Team

/-! ## The counters -/

namespace Run

variable {σ : Type} {setup : Setup σ}

theorem recordCancelled_charged (caller : String) (queue : List ToolCall) (r : Run σ) :
    Charged r.session [] (r.recordCancelled setup caller queue).session := by
  induction queue generalizing r with
  | nil => exact .refl _
  | cons call rest ih =>
    have first : Charged r.session []
      (r.recordResult setup caller call .cancelled cancelledText true).session := ⟨rfl, rfl⟩
    exact first.append (ih _)

theorem handoff_charged (caller : String) (call : ToolCall) (r : Run σ) :
    Charged r.session [] (r.handoff setup caller call).session := by
  rcases handoff_cases setup caller call r with ⟨text, same⟩ | ⟨args, -, same⟩ <;> rw [same] <;>
    exact ⟨rfl, rfl⟩

theorem processCalls_charged (setup : Setup σ) (caller : String) (queue : List ToolCall)
    (r : Run σ) : Charged r.session [] (processCalls setup caller queue r).1.session := by
  induction queue generalizing r with
  | nil => exact .refl _
  | cons call rest ih =>
    have onward {r' : Run σ} (charged : Charged r.session [] r'.session) :
        Charged r.session [] (processCalls setup caller rest r').1.session := charged.append (ih r')
    simp only [processCalls]
    split
    · exact recordCancelled_charged caller (call :: rest) r.look
    split
    · exact onward (handoff_charged caller call (r.look.announce caller call))
    split
    · exact onward ⟨rfl, rfl⟩
    split
    · exact onward ⟨rfl, rfl⟩
    · exact ⟨rfl, rfl⟩
    · exact onward ⟨rfl, rfl⟩

theorem resumeCalls_charged (setup : Setup σ) (pending : Session.Pending) (answer : Answer)
    (r : Run σ) : Charged r.session [] (resumeCalls setup pending answer r).1.session := by
  unfold resumeCalls
  split
  · exact .refl _
  · rename_i call rest _
    dsimp only
    split
    · have executed : Charged r.session [] ((if answer.approvesSession then r.approveAll
          else r).execute setup pending.agent call true).session := by
        split <;> exact ⟨rfl, rfl⟩
      exact executed.append (processCalls_charged setup _ _ _)
    · have declined : Charged r.session [] (r.recordResult setup pending.agent call .declined
          (declinedText call.name) true).session := ⟨rfl, rfl⟩
      exact declined.append (processCalls_charged setup _ _ _)
    · exact recordCancelled_charged _ _ r

theorem recordTurn_charged (setup : Setup σ) (m : Model σ) (a : Assembly) (r : Run σ) :
    Charged r.session a.usage.toList (r.recordTurn setup m a).session := by
  unfold recordTurn
  cases a.usage <;> exact ⟨rfl, rfl⟩

theorem recordInterrupted_charged (why : Interruption) (a : Assembly) (r : Run σ) :
    Charged r.session [] (r.recordInterrupted setup why a).session := by
  unfold recordInterrupted
  split <;> exact ⟨rfl, rfl⟩

theorem hear_charged (setup : Setup σ) (m : Model σ) (r : Run σ)
    (answer : Except ModelError (List Model.Step)) :
    Charged r.session (Intake.reportOf r.cancel answer) (hear setup m r answer).1.session := by
  cases answer with
  | error e => exact .refl _
  | ok steps =>
    cases ended : (Intake.read { cancel := r.cancel } steps).interruption with
    | some why =>
      simp only [hear, Intake.reportOf, ended, reduceCtorEq, if_false]
      exact recordInterrupted_charged why _ (r.takeIn _)
    | none =>
      simp only [hear, Intake.reportOf, ended, if_true, ← Intake.read_usage ended]
      exact recordTurn_charged setup m _ (r.takeIn _)

theorem callModel_charged (setup : Setup σ) (r : Run σ) :
    Charged r.session (dispatchBill setup r) (callModel setup r).1.session := by
  unfold callModel dispatchBill
  cases setup.team.agent r.agent with
  | error e => exact .refl _
  | ok a =>
    dsimp only
    split
    · exact .refl _
    · exact hear_charged setup a.model (r.look.send (requestOf setup r.session a) _) _

theorem loop_charged (setup : Setup σ) (left : Nat) (r : Run σ) :
    Charged r.session (loopBill setup left r) (loop setup left r).1.session := by
  induction left generalizing r with
  | zero =>
    simp only [loop, loopBill]
    split <;> exact .refl _
  | succ left ih =>
    simp only [loop, loopBill]
    split
    · exact .refl _
    have asked := callModel_charged setup r.look
    cases called : callModel setup r.look with
    | mk r' result =>
      rw [called] at asked
      cases result with
      | error outcome => exact asked.append (.refl _)
      | ok turn =>
        obtain ⟨calls, reason⟩ := turn
        cases calls with
        | nil => exact asked.append (.refl _)
        | cons call rest =>
          have turned := processCalls_charged setup r'.agent (call :: rest) r'
          dsimp only
          cases ended : processCalls setup r'.agent (call :: rest) r' with
          | mk r'' flow =>
            rw [ended] at turned
            cases flow with
            | goOn => exact asked.append (turned.append (ih r''))
            | suspended => exact asked.append turned
            | cancelled => exact asked.append turned

theorem work_charged (setup : Setup σ) (resumed : Option (Session.Pending × Answer)) (r : Run σ) :
    Charged r.session (workBill setup resumed r) (work setup resumed r).1.session := by
  cases resumed with
  | none => exact loop_charged setup _ r
  | some both =>
    obtain ⟨pending, answer⟩ := both
    have turned := resumeCalls_charged setup pending answer r
    simp only [work, workBill]
    cases ended : resumeCalls setup pending answer r with
    | mk r' flow =>
      rw [ended] at turned
      cases flow with
      | goOn => exact turned.append (loop_charged setup _ r')
      | suspended => exact turned
      | cancelled => exact turned

end Run

theorem Summary.commit_charged {σ : Type} (m : Model σ) (s : Session) (now : Time.Timestamp)
    {c c' : Cancellation} {steps : List Model.Step} {reading : Reading}
    (read : Summary.read c {} steps = (.ok reading, c')) :
    Charged s (reportOf c (.ok steps)) (commit m reading s now).2 := by
  simp only [reportOf, read, ← read_usage read]
  unfold commit
  dsimp only
  split
  · exact .refl s
  · cases reading.usage <;> exact ⟨rfl, rfl⟩

theorem Setup.summarize_charged {σ : Type} (setup : Setup σ) (s : Session) (agent : String)
    (c : Cancellation) (world : σ) :
    Charged s (setup.summaryBill s agent c world) (setup.summarize s agent c world).session := by
  cases found : setup.team.agent agent with
  | error e =>
    simp only [summarize, summaryBill, found]
    exact .refl s
  | ok a =>
    cases asks : Summary.request? setup.here s a setup.team with
    | none =>
      simp only [summarize, summaryBill, found, asks]
      exact .refl s
    | some request =>
      cases reply : a.model.complete c.look.requested request world with
      | mk answer world' =>
        cases answer with
        | error e =>
          simp only [summarize, summaryBill, found, asks, reply]
          exact .refl s
        | ok steps =>
          cases heard : Summary.read c.look {} steps with
          | mk reading c' =>
            cases reading with
            | error e =>
              simp only [summarize, summaryBill, found, asks, reply, heard, Summary.reportOf]
              exact .refl s
            | ok reading =>
              simp only [summarize, summaryBill, found, asks, reply, heard]
              exact Summary.commit_charged a.model s setup.now heard

namespace Run

variable {σ : Type}

theorem compact_charged (setup : Setup σ) (r : Run σ) :
    Charged r.session (compactBill setup r) (compact setup r).session := by
  have charged := setup.summarize_charged r.session r.agent r.cancel r.world
  unfold compact compactBill
  split
  · dsimp only
    split <;> exact charged
  · exact .refl _

theorem drive_charged (setup : Setup σ) (resumed : Option (Session.Pending × Answer)) (r : Run σ) :
    Charged r.session (driveBill setup resumed r)
      (drive setup (followUp setup) resumed r).session := by
  have worked := work_charged setup resumed r
  unfold drive driveBill
  cases ended : work setup resumed r with
  | mk r' outcome =>
    rw [ended] at worked
    refine worked.append ?_
    cases outcome with
    | done reason =>
      have compacted := compact_charged setup r'
      rw [← (quiet_followUp setup (compact setup r')).1] at compacted
      exact compacted
    | suspended => exact .refl _
    | cancelled => exact .refl _
    | failed message => exact .refl _

end Run

namespace Team

variable {σ : Type}

theorem play_charged (t : Team σ) (s : Session) (m : Move σ) :
    Charged s (t.moveBill s m) (t.play s m).session := by
  cases m with
  | say text now => exact ⟨rfl, rfl⟩
  | run on =>
    simp only [play, moveBill, Setup.run]
    cases started : (on.setup t).start s on.cancel on.world with
    | error e => exact .refl s
    | ok r =>
      have opened : Charged s [] r.session := by
        rw [(Setup.start_eq_ok started).2.2]
        exact .refl s
      exact opened.append (Run.drive_charged (on.setup t) none r)
  | resume on answer =>
    simp only [play, moveBill, Setup.resume]
    cases started : Setup.startResumed s on.cancel on.world with
    | error e => exact .refl s
    | ok begun =>
      have opened : Charged s [] begun.1.session := by
        rw [(Setup.startResumed_eq_ok started).2]
        exact ⟨rfl, rfl⟩
      exact opened.append (Run.drive_charged (on.setup t) (some (begun.2, answer)) begun.1)
  | summarize on agent => exact (on.setup t).summarize_charged s agent on.cancel on.world

theorem after_charged (t : Team σ) (s : Session) (moves : List (Move σ)) :
    Charged s (t.bill s moves) (t.after s moves) := by
  induction moves generalizing s with
  | nil => exact .refl s
  | cons m rest ih => exact (t.play_charged s m).append (ih _)

end Team

/-! ## The last event -/

namespace Run

variable {σ : Type}

theorem finish_done (setup : Setup σ) {outcome : Outcome} {r : Run σ}
    (h : Reports (.closed outcome, r)) {agent reason : String} {usage : Usage} {cost : Float}
    (among : .done agent reason usage cost ∈ (finish setup (followUp setup) outcome r).events) :
    .done agent reason usage cost = (finish setup (followUp setup) outcome r).doneEvent reason := by
  obtain ⟨before, last, events, terminal, plain⟩ := (finish_ended setup h).terminal
  have isLast : (finish setup (followUp setup) outcome r).events.getLast? =
      some (.done agent reason usage cost) := by
    rw [events] at among ⊢
    rcases List.mem_append.mp among with among | among
    · cases plain _ among
    · rw [List.mem_singleton.mp among, List.getLast?_concat]
  cases outcome with
  | done why =>
    simp only [finish, emit, List.getLast?_concat, Option.some.injEq] at isLast
    cases isLast
    rfl
  | suspended =>
    obtain ⟨work, caller, call, rest, asked, -⟩ := Suspended.asked h
    rw [finish, asked, List.getLast?_concat] at isLast
    cases isLast
  | cancelled =>
    rw [finish, emit, List.getLast?_concat] at isLast
    cases isLast
  | failed message =>
    rw [finish, emit, List.getLast?_concat] at isLast
    cases isLast

theorem drive_done (setup : Setup σ) (resumed : Option (Session.Pending × Answer)) {r : Run σ}
    (new : r.events = []) (idle : r.session.pending = none) {agent reason : String} {usage : Usage}
    {cost : Float}
    (among : .done agent reason usage cost ∈ (drive setup (followUp setup) resumed r).events) :
    .done agent reason usage cost = (drive setup (followUp setup) resumed r).doneEvent reason := by
  have busy : Busy r := ⟨by simp [new], idle⟩
  have opened : Reports (opening setup resumed, r) := by
    cases resumed <;> exact busy
  exact finish_done setup ((work_steps setup resumed r).keep Step.reports opened) among

end Run

/-- Over any moves the counters of a session grow by what is reported in all replies that come to
their end, except those that bring a blank summary; and `done` reports the counters as they are at
the end. -/
theorem tokens_accounted (σ : Type) :
    (∀ (t : Team σ) (s : Session) (moves : List (Move σ)),
      (s.inputTokens.toNat + total Usage.input (t.bill s moves) < UInt64.size →
        (t.after s moves).inputTokens.toNat =
          s.inputTokens.toNat + total Usage.input (t.bill s moves)) ∧
      (s.outputTokens.toNat + total Usage.output (t.bill s moves) < UInt64.size →
        (t.after s moves).outputTokens.toNat =
          s.outputTokens.toNat + total Usage.output (t.bill s moves))) ∧
    ∀ (setup : Setup σ) (s : Session) (c : Cancellation) (world : σ) (r : Run σ),
      (setup.run s c world = .ok r ∨ ∃ answer, setup.resume s answer c world = .ok r) →
      ∀ agent reason usage cost, .done agent reason usage cost ∈ r.events →
        usage = ⟨r.session.inputTokens, r.session.outputTokens, 0, 0⟩ ∧ cost = r.session.cost := by
  constructor
  · intro t s moves
    obtain ⟨input, output⟩ := t.after_charged s moves
    constructor
    · intro fits
      rw [input]
      exact toNat_foldl _ _ _ fits
    · intro fits
      rw [output]
      exact toNat_foldl _ _ _ fits
  · intro setup s c world r started agent reason usage cost among
    obtain ⟨resumed, first, -, rfl⟩ := Setup.started_eq_ok started
    cases Run.drive_done setup resumed rfl rfl among
    exact ⟨rfl, rfl⟩

namespace Sample

def greeting : Occasion Model.Playback := occasion [[.text "hello", .done none (some ⟨7, 3, 0, 0⟩)]]

def blankSummary : Occasion Model.Playback :=
  occasion [[.text "  ", .done none (some ⟨10, 5, 0, 0⟩)]]

def greeted : List (Move Model.Playback) :=
  [.say "go" noon, .run greeting, .summarize blankSummary "root"]

end Sample

/-- The tokens of the blank summary are not counted. -/
theorem tokens_accounted_sample :
    (Sample.team.after Sample.session Sample.greeted).inputTokens.toNat = 7 ∧
      (Sample.team.journal Sample.session Sample.greeted).getLast? =
        some (.summaryReplied "root" (some ⟨10, 5, 0, 0⟩)) ∧
      ∃ r, Sample.setup.run (Sample.session.addUser "go" Sample.noon) .never
          Sample.greeting.world = .ok r ∧
        ∀ agent reason usage cost, .done agent reason usage cost ∈ r.events →
          usage = ⟨7, 3, 0, 0⟩ := by
  obtain ⟨counted, done⟩ := tokens_accounted Model.Playback
  have bill : Sample.team.bill Sample.session Sample.greeted = [⟨7, 3, 0, 0⟩] := by rfl
  have input := (counted Sample.team Sample.session Sample.greeted).1 (by rw [bill]; decide)
  rw [bill] at input
  refine ⟨input, rfl, _, rfl, ?_⟩
  intro agent reason usage cost among
  have ran := done Sample.setup (Sample.session.addUser "go" Sample.noon) .never
    Sample.greeting.world _ (.inl rfl)
  exact (ran agent reason usage cost among).1

end Ensemble
