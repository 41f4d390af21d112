import Ensemble.Proofs.Passages
import Ensemble.Proofs.Worlds

/-!
# Drivers that are cancelled before they begin

A driver looks for cancellation before each request and before each call, but not before the call
that the user has just accepted. So when cancellation was requested before it begins, it asks no
model and reports its end at once: the calls that wait get their results, and of all tools only that
of the accepted call is still executed, which is also all that happens to the world (`Run.Halted`).
-/

namespace Ensemble

theorem Cancellation.look_requested {c : Cancellation} (off : c.requested = true) :
    c.look.requested = true := by
  unfold look
  split
  · rfl
  · exact off
  · exact off

theorem Cancellation.request_requested {c : Cancellation} (off : c.requested = true) (now : Bool) :
    (c.request now).requested = true := by
  simp [request, off]

def Answer.settlement (answer : Answer) (approval : Approval) : Settlement :=
  match answer.action with
  | .accept => .executed approval true
  | .decline => .declined
  | .cancel => .cancelled

variable {σ : Type}

/-- The world after the one call that an answer lets through. -/
def Team.acceptedWorld (t : Team σ) (p : Session.Pending) (answer : Answer) (world : σ) : σ :=
  match answer.action, p.calls with
  | .accept, call :: _ => t.worldAfter p.agent call true world
  | _, _ => world

theorem Team.acceptedWorld_eq_self (t : Team σ) {p : Session.Pending} {answer : Answer}
    (none : answer.action = .accept → p.calls = []) (world : σ) :
    t.acceptedWorld p answer world = world := by
  unfold acceptedWorld
  split
  · rename_i accepted more
    rw [none accepted] at more
    cases more
  · rfl

namespace Run

variable {setup : Setup σ} {r : Run σ}

def settledFirst (caller : String) (how : Settlement) (content : String) (isError : Bool) :
    List ToolCall → List Passage
  | [] => []
  | call :: rest => .settled caller call how content isError :: rest.map (givenUp caller)

/-- What becomes of a suspended transcript when an answer comes to a driver that is cancelled
already. -/
structure Halted (setup : Setup σ) (items : List Session.Item) (p : Session.Pending)
    (answer : Answer) (world : σ) (r : Run σ) : Prop where
  told : ∃ approval content isError, r.trace = { items } ++ Passage.traces setup.now
    (settledFirst p.agent (answer.settlement approval) content isError p.calls ++
      [.remarked .cancelled rfl])
  idle : r.session.pending = none
  aside : r.aside = []
  world : r.world = setup.team.acceptedWorld p answer world

theorem loop_of_requested (off : r.cancel.requested = true) (left : Nat) :
    loop setup left r = (r.look, .cancelled) := by
  have looked : r.look.cancel.requested = true := Cancellation.look_requested off
  cases left <;> simp [loop, looked]

theorem proceed_of_requested (off : r.cancel.requested = true) (caller : String)
    (queue : List ToolCall) (left : Nat) :
    (match processCalls setup caller queue r with
      | (r, .goOn) => loop setup left r
      | (r, flow) => (r, Flow.outcome flow)) =
      (r.look.recordCancelled setup caller queue, .cancelled) := by
  have looked : r.look.cancel.requested = true := Cancellation.look_requested off
  cases queue with
  | nil => exact loop_of_requested off left
  | cons call rest => simp only [processCalls, looked, if_true]; rfl

theorem recordCancelled_frame (setup : Setup σ) (caller : String) (queue : List ToolCall)
    (r : Run σ) :
    (r.recordCancelled setup caller queue).session.pending = r.session.pending ∧
      (r.recordCancelled setup caller queue).aside = r.aside ∧
      (r.recordCancelled setup caller queue).world = r.world := by
  induction queue generalizing r with
  | nil => exact ⟨rfl, rfl, rfl⟩
  | cons call rest ih => exact ih _

theorem execute_requested (setup : Setup σ) (off : r.cancel.requested = true) (caller : String)
    (call : ToolCall) (accepted : Bool) :
    (r.execute setup caller call accepted).cancel.requested = true := by
  have looked : r.look.cancel.requested = true := Cancellation.look_requested off
  exact Cancellation.request_requested looked _

structure Fresh (items : List Session.Item) (r : Run σ) : Prop where
  trace : r.trace = { items }
  idle : r.session.pending = none
  aside : r.aside = []

theorem work_first (setup : Setup σ) {items : List Session.Item} (off : r.cancel.requested = true)
    (fresh : Fresh items r) (caller : String) (call : ToolCall) (rest : List ToolCall)
    (answer : Answer) :
    ∃ (r₀ : Run σ) (approval : Approval) (content : String) (isError : Bool),
      Fresh items r₀ ∧ r₀.world = setup.team.acceptedWorld ⟨caller, call :: rest⟩ answer r.world ∧
      work setup (some (⟨caller, call :: rest⟩, answer)) r =
        ((r₀.recordResult setup caller call (answer.settlement approval) content
          isError).recordCancelled setup caller rest, .cancelled) := by
  cases action : answer.action with
  | accept =>
    obtain ⟨allowed, consent, kept, begun, still⟩ : ∃ allowed : Run σ,
        (if answer.approvesSession then r.approveAll else r) = allowed ∧
          allowed.cancel.requested = true ∧ Fresh items allowed ∧ allowed.world = r.world := by
      split
      · exact ⟨_, rfl, off, ⟨fresh.trace, fresh.idle, fresh.aside⟩, rfl⟩
      · exact ⟨_, rfl, off, fresh, rfl⟩
    obtain ⟨world, cancel, content, isError, executed⟩ :=
      execute_eq_recordResult setup caller call allowed true
    have requested := execute_requested setup kept caller call true
    have moved := execute_world setup caller call true allowed
    have looked : allowed.look.cancel.requested = true := Cancellation.look_requested kept
    rw [executed, looked, still] at moved
    refine ⟨{ allowed with world, cancel := cancel.look }, allowed.session.approvalOf call.name,
      content, isError, ⟨begun.trace, begun.idle, begun.aside⟩, ?_, ?_⟩
    · simp only [Team.acceptedWorld, action]
      exact moved
    · simp only [work, resumeCalls, action, consent, Answer.settlement]
      rw [executed] at requested ⊢
      exact proceed_of_requested requested caller rest _
  | decline =>
    refine ⟨r.look, .ask, declinedText call.name, true, ⟨fresh.trace, fresh.idle, fresh.aside⟩,
      (setup.team.acceptedWorld_eq_self (by simp [action]) r.world).symm, ?_⟩
    simp only [work, resumeCalls, action, Answer.settlement]
    exact proceed_of_requested
      (r := r.recordResult setup caller call .declined (declinedText call.name) true) off caller
      rest _
  | cancel =>
    refine ⟨r, .ask, cancelledText, true, fresh,
      (setup.team.acceptedWorld_eq_self (by simp [action]) r.world).symm, ?_⟩
    simp only [work, resumeCalls, action, Answer.settlement]
    rfl

theorem drive_halted {items : List Session.Item} (off : r.cancel.requested = true)
    (fresh : Fresh items r) (p : Session.Pending) (answer : Answer) :
    Halted setup items p answer r.world (drive setup (followUp setup) (some (p, answer)) r) := by
  obtain ⟨caller, calls⟩ := p
  cases calls with
  | nil =>
    have worked : work setup (some (⟨caller, []⟩, answer)) r = (r.look, .cancelled) :=
      loop_of_requested off _
    simp only [drive, worked, finish]
    have told := told_remark setup (e := .cancelled) rfl r.look
    have begun : r.look.trace = { items } := fresh.trace
    rw [Told, begun] at told
    exact ⟨⟨.ask, "", false, told⟩, fresh.idle, fresh.aside,
      (setup.team.acceptedWorld_eq_self (fun _ => rfl) r.world).symm⟩
  | cons call rest =>
    obtain ⟨r₀, approval, content, isError, begun, world, worked⟩ :=
      work_first setup off fresh caller call rest answer
    have settled := told_recordResult setup caller call (answer.settlement approval)
      content isError r₀
    have told := (settled.append (told_recordCancelled setup caller rest _)).append
      (told_remark setup (e := .cancelled) rfl _)
    rw [Told, begun.trace] at told
    obtain ⟨pending, aside, same⟩ := recordCancelled_frame setup caller rest
      (r₀.recordResult setup caller call (answer.settlement approval) content isError)
    simp only [drive, worked, finish]
    exact ⟨⟨approval, content, isError, told⟩, pending.trans begun.idle,
      aside.trans begun.aside, same.trans world⟩

end Run

/-- A driver that is cancelled before it begins ends at once. It asks no model, gives every call
that waits one result, and executes no tool, except that of the call the user accepts: nobody looks
for cancellation between the answer and that call. -/
theorem cancelled_driver_stops (setup : Setup σ) (s : Session) {c : Cancellation}
    (world : σ) (off : c.requested = true) :
    (∀ a, s.pending = none → setup.team.agent (setup.firstAgent s) = .ok a →
      ∃ r, setup.run s c world = .ok r ∧ r.session = s ∧ r.journal = [] ∧ r.aside = [] ∧
        r.events = [.cancelled] ∧ r.world = world) ∧
    ∀ answer p, s.pending = some p →
      ∃ r, setup.resume s answer c world = .ok r ∧ Run.Halted setup s.items p answer world r := by
  constructor
  · intro a idle found
    let r : Run σ := { session := s, agent := setup.firstAgent s, cancel := c, world }
    have started : setup.start s c world = .ok r := by
      simp [Setup.start, idle, found, r]
    have worked : Run.work setup none r = (r.look, .cancelled) := Run.loop_of_requested off _
    refine ⟨r.look.emit .cancelled, ?_, rfl, rfl, rfl, rfl, rfl⟩
    simp only [Setup.run, started, Except.map, Run.drive, worked, Run.finish]
  · intro answer p waits
    let r : Run σ := { session := { s with pending := none }, agent := s.activeAgent.getD p.agent
                       cancel := c, world }
    have started : Setup.startResumed s c world = .ok (r, p) := by
      simp [Setup.startResumed, waits, r]
    refine ⟨Run.drive setup (Run.followUp setup) (some (p, answer)) r, ?_, ?_⟩
    · simp only [Setup.resume, started, Except.map]
    · exact Run.drive_halted (r := r) off ⟨rfl, rfl, rfl⟩ p answer

/-- Of the two calls that wait, the accepted one is executed and the other given up. -/
theorem cancelled_driver_stops_sample :
    ∃ p r, (Sample.team.after Sample.session Sample.suspended).pending = some p ∧
      p.calls = [Sample.call "1", Sample.call "2"] ∧
      Sample.setup.resume (Sample.team.after Sample.session Sample.suspended) .accept .already
        (Sample.occasion []).world = .ok r ∧
      r.events = [.resultOf "root" (Sample.call "1") "touched" false,
        .resultOf "root" (Sample.call "2") Run.cancelledText true, .cancelled] := by
  obtain ⟨r, resumed, halted⟩ := (cancelled_driver_stops Sample.setup
    (Sample.team.after Sample.session Sample.suspended) (c := .already) (Sample.occasion []).world
    rfl).2 .accept _ rfl
  refine ⟨_, r, rfl, rfl, resumed, ?_⟩
  cases resumed
  rfl

end Ensemble
