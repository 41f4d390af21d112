import Ensemble.Proofs.Agent.Targets
import Ensemble.Proofs.Run.Effects

/-!
# Where a run can be suspended

A suspended run keeps its session and its world, and is resumed by whoever is active. It goes on
where it stopped if nobody but models and tools has cancelled it, the session names the agent whose
turn it is, and nothing has happened beside it (`Ready`). Operations keep runs ready.

A resumed run has a fresh limit of requests, so a limit makes no difference only if the loop comes to
an end of its own before (`Enough`). This is so if it would not make more requests when one more were
allowed (`Ready.enough`).
-/

namespace Ensemble

variable {σ : Type}

namespace Cancellation

/-- Nobody asks for cancellation but models and tools. -/
def Calm (c : Cancellation) : Prop := c = .never ∨ c = .already

theorem Calm.look {c : Cancellation} (h : c.Calm) : c.look.Calm := by
  rcases h with rfl | rfl
  · exact .inl rfl
  · exact .inr rfl

theorem Calm.request {c : Cancellation} (h : c.Calm) (now : Bool) : (c.request now).Calm := by
  rcases h with rfl | rfl <;> cases now
  · exact .inl rfl
  · exact .inr rfl
  · exact .inr rfl
  · exact .inr rfl

theorem Calm.wait {c : Cancellation} (h : c.Calm) (time : Option Nat) : (c.wait time).Calm := by
  rcases h with rfl | rfl <;> cases time
  · exact .inr rfl
  · exact .inl rfl
  · exact .inr rfl
  · exact .inr rfl

theorem Calm.eq_never {c : Cancellation} (h : c.Calm) (going : c.requested = false) : c = .never := by
  rcases h with rfl | rfl
  · rfl
  · cases going

end Cancellation

theorem Intake.take_cancel {i i' : Intake} {d : Model.Delta} (h : i.take d = .ok i') :
    i'.cancel = i.cancel := by
  unfold take at h
  cases first : i.assembly.take d with
  | error why =>
    rw [first] at h
    cases h
  | ok a =>
    rw [first] at h
    cases h
    rfl

theorem Intake.read_calm {i : Intake} (h : i.cancel.Calm) (steps : List Model.Step) :
    (i.read steps).cancel.Calm := by
  induction steps generalizing i with
  | nil =>
    rw [read]
    split <;> exact h.look
  | cons step rest ih =>
    have looked : i.look.cancel.Calm := h.look
    rw [read.eq_def]
    dsimp only
    split
    · exact looked
    · split
      · split
        · rename_i taken
          rw [← take_cancel taken] at looked
          exact ih (looked.request _)
        · exact looked
      · exact looked
      · split
        · rename_i taken
          rw [← take_cancel taken] at looked
          exact ih looked
        · exact looked
      · exact ih (looked.wait _)

def Setup.allowing (setup : Setup σ) (maxIterations : Nat) : Setup σ :=
  { setup with config := { setup.config with maxIterations } }

namespace Run

/-- Where a run stands among the calls of `caller` so that it could be suspended. -/
structure Ready (t : Team σ) (caller : String) (r : Run σ) : Prop where
  calm : r.cancel.Calm
  known : r.agent ∈ t.names
  seated : r.session.activeAgent.getD caller = r.agent
  idle : r.session.pending = none
  alone : r.aside = []

namespace Ready

variable {t : Team σ} {caller : String} {r : Run σ}

theorem look (h : Ready t caller r) : Ready t caller r.look := { h with calm := h.calm.look }

theorem announce (h : Ready t caller r) (call : ToolCall) :
    Ready t caller (r.announce caller call) := { h with }

theorem recordResult (h : Ready t caller r) (setup : Setup σ) (call : ToolCall)
    (how : Settlement) (content : String) (isError : Bool) :
    Ready t caller (r.recordResult setup caller call how content isError) := { h with }

theorem recordCancelled (h : Ready t caller r) (setup : Setup σ) (queue : List ToolCall) :
    Ready t caller (r.recordCancelled setup caller queue) := by
  induction queue generalizing r with
  | nil => exact h
  | cons call rest ih => exact ih (h.recordResult setup call .cancelled cancelledText true)

theorem execute (h : Ready t caller r) (setup : Setup σ) (call : ToolCall) (accepted : Bool) :
    Ready t caller (r.execute setup caller call accepted) :=
  { h with calm := h.look.calm.request _ }

theorem handoff (setup : Setup σ) (h : Ready setup.team caller r) (call : ToolCall) :
    Ready setup.team caller (r.handoff setup caller call) := by
  rcases handoff_cases setup caller call r with ⟨text, same⟩ | ⟨args, valid, same⟩
  · rw [same]
    exact h.recordResult setup call .transfer text true
  · have known : args.agent ∈ setup.team.names := Team.HandsTo.mem_names valid
    rw [same]
    exact { h.recordResult setup call .transfer (transferredText args.agent) false with
      known, seated := rfl }

theorem next (h : Ready t caller r) : Ready t r.agent r := by
  refine { h with seated := ?_ }
  have seated := h.seated
  cases active : r.session.activeAgent with
  | none => rfl
  | some agent =>
    rw [active] at seated
    exact seated

theorem recordTurn (h : Ready t caller r) (setup : Setup σ) (m : Model σ) (a : Assembly) :
    Ready t caller (r.recordTurn setup m a) := by
  unfold Run.recordTurn
  cases a.usage <;> exact { h with }

theorem recordInterrupted (h : Ready t caller r) (setup : Setup σ) (why : Interruption)
    (a : Assembly) : Ready t caller (r.recordInterrupted setup why a) := by
  unfold Run.recordInterrupted
  split <;> exact { h with }

theorem hear (h : Ready t caller r) (setup : Setup σ) (m : Model σ)
    (reply : Except ModelError (List Model.Step)) :
    Ready t caller (Run.hear setup m r reply).1 := by
  cases reply with
  | error e => exact h
  | ok steps =>
    have taken : Ready t caller (r.takeIn (Intake.read { cancel := r.cancel } steps)) :=
      { h with calm := Intake.read_calm h.calm steps }
    unfold Run.hear
    dsimp only
    split
    · exact taken.recordInterrupted setup _ _
    · exact taken.recordTurn setup _ _

theorem callModel (h : Ready t caller r) (setup : Setup σ) :
    Ready t caller (Run.callModel setup r).1 := by
  unfold Run.callModel
  split
  · exact h
  · dsimp only
    split
    · exact h.look
    · refine hear ?_ setup _ _
      exact { h.look with }

theorem processCalls {setup : Setup σ} (h : Ready setup.team caller r) (calls : List ToolCall)
    {q : Run σ} (went : Run.processCalls setup caller calls r = (q, .goOn)) :
    Ready setup.team caller q := by
  induction calls generalizing r with
  | nil =>
    cases went
    exact h
  | cons call rest ih =>
    have announced : Ready setup.team caller (r.look.announce caller call) := h.look.announce call
    simp only [Run.processCalls] at went
    split at went
    · cases went
    split at went
    · exact ih (announced.handoff setup call) went
    split at went
    · exact ih (announced.recordResult setup call _ _ _) went
    split at went
    · exact ih (announced.recordResult setup call _ _ _) went
    · cases went
    · exact ih (announced.execute setup call false) went

end Ready

/-! ## Rounds of the loop -/

def proceed (setup : Setup σ) (left : Nat) : Run σ × Flow → Run σ × Outcome
  | (r, .goOn) => loop setup left r
  | (r, flow) => (r, Flow.outcome flow)

section

variable {setup : Setup σ}

theorem loop_of_stopped {left : Nat} {r : Run σ} (stopped : r.look.cancel.requested = true) :
    loop setup left r = (r.look, .cancelled) := by
  cases left <;> simp only [loop, if_pos stopped]

theorem loop_of_called {left : Nat} {r q : Run σ} {turn : Turn} {call : ToolCall}
    {rest : List ToolCall} (going : ¬ r.look.cancel.requested = true)
    (called : Run.callModel setup r.look = (q, .ok turn)) (calls : turn.calls = call :: rest) :
    loop setup (left + 1) r =
      proceed setup left (processCalls setup q.agent (call :: rest) q) := by
  simp only [loop, if_neg going, called, calls]
  rfl

theorem loop_of_failed {left : Nat} {r q : Run σ} {outcome : Outcome}
    (going : ¬ r.look.cancel.requested = true)
    (called : Run.callModel setup r.look = (q, .error outcome)) :
    loop setup (left + 1) r = (q, outcome) := by
  simp only [loop, if_neg going, called]

theorem loop_of_answered {left : Nat} {r q : Run σ} {turn : Turn}
    (going : ¬ r.look.cancel.requested = true)
    (called : Run.callModel setup r.look = (q, .ok turn)) (calls : turn.calls = []) :
    loop setup (left + 1) r = (q, .done turn.stopReason) := by
  simp only [loop, if_neg going, called, calls]

theorem processCalls_journal_grows (setup : Setup σ) (caller : String) (calls : List ToolCall)
    (r : Run σ) :
    r.journal <+: (Run.processCalls setup caller calls r).1.journal :=
  Steps.journal_prefix (processCalls_steps setup 0 caller calls r)

theorem loop_journal_grows (left : Nat) (r : Run σ) :
    r.journal <+: (loop setup left r).1.journal :=
  Steps.journal_prefix (loop_steps setup left r)

theorem proceed_journal_grows (left : Nat) (x : Run σ × Flow) :
    x.1.journal <+: (proceed setup left x).1.journal := by
  obtain ⟨r, flow⟩ := x
  cases flow with
  | goOn => exact loop_journal_grows left r
  | suspended => exact List.prefix_rfl
  | cancelled => exact List.prefix_rfl

theorem processCalls_allowing (limit : Nat) (caller : String) (calls : List ToolCall) (r : Run σ) :
    Run.processCalls (setup.allowing limit) caller calls r =
      Run.processCalls setup caller calls r := by
  induction calls generalizing r with
  | nil => rfl
  | cons call rest ih =>
    simp only [Run.processCalls, ih]
    rfl

/-- The limit in the settings matters only where a loop begins. -/
theorem loop_allowing (limit left : Nat) (r : Run σ) :
    loop (setup.allowing limit) left r = loop setup left r := by
  induction left generalizing r with
  | zero => rfl
  | succ left ih =>
    simp only [loop, processCalls_allowing, ih]
    rfl

theorem callModel_journal_grows (setup : Setup σ) (left : Nat) {r : Run σ}
    (going : ¬ r.look.cancel.requested = true) :
    (Run.callModel setup r.look).1.journal <+: (loop setup (left + 1) r).1.journal := by
  cases called : Run.callModel setup r.look with
  | mk q x =>
    cases x with
    | error outcome => rw [loop_of_failed going called]
    | ok turn =>
      cases calls : turn.calls with
      | nil => rw [loop_of_answered going called calls]
      | cons call rest =>
        rw [loop_of_called going called calls]
        exact (processCalls_journal_grows setup q.agent (call :: rest) q).trans
          (proceed_journal_grows left _)

end

/-! ## Enough requests -/

/-- The loop comes to an end of its own within so many requests. -/
def Enough (setup : Setup σ) : Nat → Run σ → Prop
  | 0, r => r.look.cancel.requested = true
  | left + 1, r => r.look.cancel.requested = false → ∀ turn q,
      (callModel setup r.look).2 = .ok turn → turn.calls ≠ [] →
      processCalls setup (callModel setup r.look).1.agent turn.calls
        (callModel setup r.look).1 = (q, .goOn) → Enough setup left q

theorem askedIn_le_of_prefix {j k : List Activity} (h : j <+: k) :
    (askedIn j).length ≤ (askedIn k).length :=
  (h.sublist.filterMap Activity.asked?).length_le

theorem askedIn_hear (setup : Setup σ) (m : Model σ) (r : Run σ)
    (reply : Except ModelError (List Model.Step)) :
    askedIn (Run.hear setup m r reply).1.journal = askedIn r.journal := by
  cases reply with
  | error e => rfl
  | ok steps =>
    unfold Run.hear
    dsimp only
    split
    · rw [recordInterrupted_journal]
      rfl
    · rw [(recordTurn_frame setup m _ _).1]
      simp [askedIn, Activity.asked?, Run.takeIn]

theorem Ready.asks {setup : Setup σ} {r : Run σ} (h : Ready setup.team r.agent r)
    (going : ¬ r.look.cancel.requested = true) :
    askedIn (Run.callModel setup r.look).1.journal = askedIn r.journal ++ [r.agent] := by
  obtain ⟨a, found⟩ := Team.mem_names_iff.mp h.known
  have again : ¬ r.look.look.cancel.requested = true := by
    rcases h.calm.look with calm | calm <;> simp_all [Run.look, Cancellation.look,
      Cancellation.never, Cancellation.already]
  have known : setup.team.agent r.look.agent = .ok a := found
  simp only [Run.callModel, known, if_neg again, askedIn_hear]
  simp [askedIn, Activity.asked?, Run.send, Run.note, Run.look]

/-- A limit is enough if with one request more the run would not make more requests. -/
theorem Ready.enough {setup : Setup σ} (left : Nat) {r : Run σ}
    (h : Ready setup.team r.agent r)
    (needs : (askedIn (loop setup (left + 1) r).1.journal).length ≤
      (askedIn r.journal).length + left) : Enough setup left r := by
  induction left generalizing r with
  | zero =>
    by_contra going
    have more := askedIn_le_of_prefix (callModel_journal_grows setup 0 going)
    rw [h.asks going, List.length_append] at more
    simp only [List.length_cons, List.length_nil] at more
    omega
  | succ left ih =>
    intro requested turn q called calls went
    have going : ¬ r.look.cancel.requested = true := by simp [requested]
    obtain ⟨call, rest, cons⟩ := List.exists_cons_of_ne_nil calls
    have asked := h.asks going
    have ready := (h.look.callModel setup).next.processCalls turn.calls went
    have onward := askedIn_le_of_prefix (processCalls_journal_grows setup
      (Run.callModel setup r.look).1.agent turn.calls (Run.callModel setup r.look).1)
    have round : loop setup (left + 1 + 1) r = loop setup (left + 1) q := by
      rw [loop_of_called going (Prod.ext rfl called) cons, ← cons, went]
      rfl
    rw [round] at needs
    rw [went, asked, List.length_append] at onward
    simp only [List.length_cons, List.length_nil] at onward
    exact ih ready.next (by omega)

end Run

end Ensemble
