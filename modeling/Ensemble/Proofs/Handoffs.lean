import Mathlib
import Ensemble.Proofs.Agent.Targets
import Ensemble.Proofs.Life

/-!
# Handoffs over the life of a session

Whether a transfer succeeds depends only on the team, the caller and the call (`transfer?`), so the
journal of a session tells which agent comes next (`Course`): the one that was asked last, until a
transfer of its own names another. Every step of a run follows that course, also when the calls of
a turn are settled by several drivers. As handing over leads only down, an agent that was left is
never asked again.

The run that looks for suggestions has a team and a session of its own, and is not covered here.
-/

namespace Ensemble

open Relation (TransGen ReflTransGen)

variable {σ : Type}

/-- The arguments of a transfer that succeeds. -/
def transfer? (t : Team σ) (caller : String) (call : ToolCall) : Option Handoff.Arguments :=
  match Run.transferArguments call with
  | .ok args => if args.agent ∈ (t.handoffTargets caller).map (·.name) then some args else none
  | .error _ => none

theorem transfer?_eq_some_iff {t : Team σ} {caller : String} {call : ToolCall}
    {args : Handoff.Arguments} :
    transfer? t caller call = some args ↔
      Run.transferArguments call = .ok args ∧ t.HandsTo caller args.agent := by
  unfold transfer?
  constructor
  · intro h
    split at h
    · rename_i read
      split at h
      · rename_i valid
        cases h
        exact ⟨read, valid⟩
      · cases h
    · cases h
  · rintro ⟨read, valid⟩
    rw [read]
    exact if_pos valid

theorem handsTo_of_transfer? {t : Team σ} {caller : String} {call : ToolCall}
    {args : Handoff.Arguments} (h : transfer? t caller call = some args) :
    t.HandsTo caller args.agent :=
  (transfer?_eq_some_iff.mp h).2

namespace Activity

def switch? (t : Team σ) : Activity → Option (String × String)
  | .settled caller call .transfer => (transfer? t caller call).map fun args => (caller, args.agent)
  | _ => none

theorem handsTo_of_switch? {t : Team σ} {entry : Activity} {source target : String}
    (h : entry.switch? t = some (source, target)) : t.HandsTo source target := by
  unfold switch? at h
  split at h
  · obtain ⟨args, transfers, same⟩ := Option.map_eq_some_iff.mp h
    cases same
    exact handsTo_of_transfer? transfers
  · cases h

theorem asked?_of_switch? {t : Team σ} {entry : Activity} {switch : String × String}
    (h : entry.switch? t = some switch) : entry.asked? = none := by
  cases entry with
  | settled => rfl
  | _ => cases h

structure Still (t : Team σ) (entry : Activity) : Prop where
  asked : entry.asked? = none
  switch : entry.switch? t = none

theorem still_of_isSummary {t : Team σ} {entry : Activity} (h : entry.isSummary = true) :
    entry.Still t := by
  rcases eq_of_isSummary h with ⟨agent, request, rfl⟩ | ⟨agent, usage, rfl⟩
  · exact ⟨rfl, rfl⟩
  · exact ⟨rfl, rfl⟩

end Activity

def Event.switch? : Event → Option (String × String)
  | .agentSwitched source target => some (source, target)
  | _ => none

def switchesIn (t : Team σ) (j : List Activity) : List (String × String) :=
  j.filterMap (Activity.switch? t)

def switchEvents (events : List Event) : List (String × String) := events.filterMap Event.switch?

@[simp] theorem switchesIn_append (t : Team σ) (j k : List Activity) :
    switchesIn t (j ++ k) = switchesIn t j ++ switchesIn t k := List.filterMap_append

@[simp] theorem switchEvents_append (es fs : List Event) :
    switchEvents (es ++ fs) = switchEvents es ++ switchEvents fs := List.filterMap_append

/-- How often an element differs from the one before it. -/
def changes : List String → Nat
  | a :: b :: rest => (if a = b then 0 else 1) + changes (b :: rest)
  | _ => 0

/-! ## The course of a journal -/

/-- How a journal goes on from a point where `last` was asked last and `next` is to be asked, and
the same at its end. -/
inductive Course (t : Team σ) :
    Option String → String → List Activity → Option String → String → Prop where
  | nil (last : Option String) (next : String) : Course t last next [] last next
  | asked {last last' : Option String} {next next' : String} {request : Model.Request}
      {rest : List Activity} (h : Course t (some next) next rest last' next') :
      Course t last next (.asked next request :: rest) last' next'
  | switched {last' : Option String} {caller next target next' : String} {entry : Activity}
      {rest : List Activity} (switch : entry.switch? t = some (caller, target))
      (h : Course t (some caller) target rest last' next') :
      Course t (some caller) next (entry :: rest) last' next'
  | still {last last' : Option String} {next next' : String} {entry : Activity}
      {rest : List Activity} (still : entry.Still t) (h : Course t last next rest last' next') :
      Course t last next (entry :: rest) last' next'

/-- The agent that comes next is the one asked last, or one it hands over to. -/
def InLine (t : Team σ) (last : Option String) (next : String) : Prop :=
  ∀ agent ∈ last, agent = next ∨ t.HandsTo agent next

namespace Course

variable {t : Team σ} {last last' last'' : Option String} {next next' next'' : String}
  {j k : List Activity}

theorem append (h : Course t last next j last' next') (h' : Course t last' next' k last'' next'') :
    Course t last next (j ++ k) last'' next'' := by
  induction h with
  | nil => exact h'
  | asked _ ih => exact .asked (ih h')
  | switched switch _ ih => exact .switched switch (ih h')
  | still still _ ih => exact .still still (ih h')

theorem split (h : Course t last next (j ++ k) last'' next'') :
    ∃ last' next', Course t last next j last' next' ∧ Course t last' next' k last'' next'' := by
  induction j generalizing last next with
  | nil => exact ⟨last, next, .nil last next, h⟩
  | cons entry j ih =>
    cases h with
    | asked h =>
      obtain ⟨last', next', front, back⟩ := ih h
      exact ⟨last', next', .asked front, back⟩
    | switched switch h =>
      obtain ⟨last', next', front, back⟩ := ih h
      exact ⟨last', next', .switched switch front, back⟩
    | still still h =>
      obtain ⟨last', next', front, back⟩ := ih h
      exact ⟨last', next', .still still front, back⟩

theorem all_still (h : ∀ entry ∈ j, entry.Still t) (last : Option String) (next : String) :
    Course t last next j last next := by
  induction j with
  | nil => exact .nil last next
  | cons entry j ih =>
    exact .still (h entry (.head _)) (ih fun other among => h other (.tail _ among))

theorem above (h : Course t last next j last' next') (line : InLine t last next) {b : String}
    (final : last' = some b) :
    (∀ a ∈ last, ReflTransGen t.HandsTo a b) ∧ ∀ a ∈ askedIn j, ReflTransGen t.HandsTo a b := by
  induction h with
  | nil =>
    subst final
    exact ⟨by rintro a ⟨⟩; exact .refl, by simp [askedIn]⟩
  | @asked last last' next next' request rest _ ih =>
    obtain ⟨fromNext, others⟩ := ih (by rintro agent ⟨⟩; exact .inl rfl) final
    have onward : ReflTransGen t.HandsTo next b := fromNext next rfl
    constructor
    · intro a ha
      rcases line a ha with rfl | hands
      · exact onward
      · exact .head hands onward
    · intro a ha
      rcases List.mem_cons.mp ha with rfl | ha
      · exact onward
      · exact others a ha
  | @switched last' caller next target next' entry rest switch _ ih =>
    obtain ⟨fromCaller, others⟩ :=
      ih (by rintro agent ⟨⟩; exact .inr (Activity.handsTo_of_switch? switch)) final
    refine ⟨fromCaller, ?_⟩
    rwa [askedIn, List.filterMap_cons_none (Activity.asked?_of_switch? switch)]
  | @still last last' next next' entry rest still _ ih =>
    obtain ⟨fromLast, others⟩ := ih line final
    refine ⟨fromLast, ?_⟩
    rwa [askedIn, List.filterMap_cons_none still.asked]

theorem hands_of_quiet (h : Course t (some next) next' j last'' next'')
    (quiet : ∀ entry ∈ j, entry.asked? = none) (hands : t.HandsTo next next') :
    last'' = some next ∧ t.HandsTo next next'' := by
  generalize first : some next = last at h
  induction h with
  | nil => exact ⟨rfl, hands⟩
  | asked => exact absurd (quiet _ (.head _)) (by simp [Activity.asked?])
  | switched switch _ ih =>
    cases first
    exact ih (fun other among => quiet other (.tail _ among))
      (Activity.handsTo_of_switch? switch) rfl
  | still _ _ ih => exact ih (fun other among => quiet other (.tail _ among)) hands first

/-- After a switch the next agent asked is one that was not asked before. -/
theorem fresh_after_switch {front middle back : List Activity} {entry : Activity}
    {agent : String} {request : Model.Request}
    (h : Course t none next (front ++ entry :: (middle ++ .asked agent request :: back)) last'
      next')
    (switched : entry.switch? t ≠ none) (quiet : ∀ other ∈ middle, other.asked? = none) :
    agent ∉ askedIn front := by
  obtain ⟨last₁, next₁, first, rest⟩ := h.split
  cases rest with
  | asked => exact (switched rfl).elim
  | still still => exact (switched still.switch).elim
  | @switched _ caller _ target _ _ _ switch rest =>
    obtain ⟨last₂, next₂, between, rest⟩ := rest.split
    obtain ⟨rfl, hands⟩ := between.hands_of_quiet quiet (Activity.handsTo_of_switch? switch)
    cases rest with
    | still still => cases still.asked
    | switched other => cases other
    | asked =>
      intro before
      have down := (first.above (by rintro a ⟨⟩) rfl).2 agent before
      exact t.handsTo_acyclic agent (TransGen.tail' down hands)

/-- Every change of the agent that is asked leads down. -/
theorem changes_le (h : Course t last next j last' next') (line : InLine t last next) {a : String}
    (begins : last = some a) : changes (a :: askedIn j) ≤ (t.below a).card := by
  induction h generalizing a with
  | nil => exact Nat.zero_le _
  | @asked last last' next next' request rest _ ih =>
    have later : changes (next :: askedIn rest) ≤ (t.below next).card :=
      ih (by rintro agent ⟨⟩; exact .inl rfl) rfl
    have unfolded : changes (a :: askedIn (.asked next request :: rest)) =
        (if a = next then 0 else 1) + changes (next :: askedIn rest) := rfl
    rw [unfolded]
    rcases line a begins with same | hands
    · rw [if_pos same, same]
      omega
    · have lower := hands.below_lt
      split <;> omega
  | @switched last' caller next target next' entry rest switch _ ih =>
    rw [askedIn, List.filterMap_cons_none (Activity.asked?_of_switch? switch)]
    exact ih (by rintro agent ⟨⟩; exact .inr (Activity.handsTo_of_switch? switch)) begins
  | @still last last' next next' entry rest still _ ih =>
    rw [askedIn, List.filterMap_cons_none still.asked]
    exact ih line begins

theorem changes_lt (h : Course t none next j last' next') :
    changes (askedIn j) < t.agents.length := by
  have atLeastOne : 0 < t.agents.length := List.length_pos_of_mem t.root_mem
  generalize first : (none : Option String) = last at h
  induction h with
  | nil => exact atLeastOne
  | @asked last last' next next' request rest h =>
    have few : changes (next :: askedIn rest) ≤ (t.below next).card :=
      h.changes_le (by rintro agent ⟨⟩; exact .inl rfl) rfl
    exact Nat.lt_of_le_of_lt few (t.below_lt_length next)
  | switched => cases first
  | @still last last' next next' entry rest still _ ih =>
    rw [askedIn, List.filterMap_cons_none still.asked]
    exact ih first

end Course

/-! ## Steps that switch nothing -/

theorem Setup.summarize_activeAgent (setup : Setup σ) (s : Session) (agent : String)
    (c : Cancellation) (world : σ) :
    (setup.summarize s agent c world).session.activeAgent = s.activeAgent :=
  setup.summarize_keep (·.activeAgent) (fun _ _ _ => rfl) (fun _ _ _ => rfl) s agent c world

namespace Run

variable {setup : Setup σ} {r r' r'' : Run σ}

/-- From `r` to `r'` no agent is asked and nothing is handed over. -/
structure Quietly (setup : Setup σ) (r r' : Run σ) : Prop where
  journal : ∃ more, r'.journal = r.journal ++ more ∧ ∀ entry ∈ more, entry.Still setup.team
  events : ∃ more, r'.events = r.events ++ more ∧ ∀ e ∈ more, e.switch? = none
  agent : r'.agent = r.agent
  active : r'.session.activeAgent = r.session.activeAgent
  pending : r'.session.pending = r.session.pending

namespace Quietly

theorem of_same (journal : r'.journal = r.journal) (events : r'.events = r.events)
    (agent : r'.agent = r.agent) (active : r'.session.activeAgent = r.session.activeAgent)
    (pending : r'.session.pending = r.session.pending) : Quietly setup r r' :=
  ⟨⟨[], by simp [journal], by simp⟩, ⟨[], by simp [events], by simp⟩, agent, active, pending⟩

theorem trans (h : Quietly setup r r') (h' : Quietly setup r' r'') : Quietly setup r r'' := by
  obtain ⟨j, hj, still⟩ := h.journal
  obtain ⟨k, hk, still'⟩ := h'.journal
  obtain ⟨es, hes, silent⟩ := h.events
  obtain ⟨fs, hfs, silent'⟩ := h'.events
  refine ⟨⟨j ++ k, by rw [hk, hj, List.append_assoc], ?_⟩,
    ⟨es ++ fs, by rw [hfs, hes, List.append_assoc], ?_⟩, h'.agent.trans h.agent,
    h'.active.trans h.active, h'.pending.trans h.pending⟩
  · intro entry among
    exact (List.mem_append.mp among).elim (still entry) (still' entry)
  · intro e among
    exact (List.mem_append.mp among).elim (silent e) (silent' e)

theorem emit (r : Run σ) {e : Event} (silent : e.switch? = none) : Quietly setup r (r.emit e) :=
  ⟨⟨[], by simp [Run.emit], by simp⟩, ⟨[e], rfl, by simpa using silent⟩, rfl, rfl, rfl⟩

theorem look (r : Run σ) : Quietly setup r r.look := of_same rfl rfl rfl rfl rfl

theorem announce (r : Run σ) (caller : String) (call : ToolCall) :
    Quietly setup r (r.look.announce caller call) :=
  (look r).trans (emit r.look (e := .toolCallStarted caller call) rfl)

theorem recordResult (r : Run σ) {caller : String} {call : ToolCall} {how : Settlement}
    (still : (Activity.settled caller call how).Still setup.team) (content : String)
    (isError : Bool) : Quietly setup r (r.recordResult setup caller call how content isError) :=
  ⟨⟨[_], rfl, by simpa using still⟩, ⟨[.resultOf caller call content isError], rfl,
    by simp [Event.resultOf, Event.switch?]⟩, rfl, rfl, rfl⟩

theorem approve (r : Run σ) (answer : Answer) :
    Quietly setup r (if answer.approvesSession then r.approveAll else r) := by
  split
  · exact .of_same rfl rfl rfl rfl rfl
  · exact .of_same rfl rfl rfl rfl rfl

theorem recordCancelled (caller : String) (queue : List ToolCall) (r : Run σ) :
    Quietly setup r (r.recordCancelled setup caller queue) := by
  induction queue generalizing r with
  | nil => exact of_same rfl rfl rfl rfl rfl
  | cons call rest ih => exact (recordResult r ⟨rfl, rfl⟩ cancelledText true).trans (ih _)

theorem execute (r : Run σ) (caller : String) (call : ToolCall) (accepted : Bool) :
    Quietly setup r (r.execute setup caller call accepted) := by
  obtain ⟨world, cancel, content, isError, same⟩ :=
    execute_eq_recordResult setup caller call r accepted
  have still : (Activity.settled caller call
      (.executed (r.session.approvalOf call.name) accepted)).Still setup.team := ⟨rfl, rfl⟩
  have first : Quietly setup r { r with world, cancel } := of_same rfl rfl rfl rfl rfl
  rw [same]
  exact first.trans (recordResult _ still content isError)

theorem takeIn (r : Run σ) (i : Intake) : Quietly setup r (r.takeIn i) := by
  refine ⟨⟨[], by simp [Run.takeIn], by simp⟩, ⟨i.pieces.map (Event.tokenDelta r.agent), rfl, ?_⟩,
    rfl, rfl, rfl⟩
  intro e among
  obtain ⟨piece, -, rfl⟩ := List.mem_map.mp among
  rfl

theorem recordTurn (r : Run σ) (m : Model σ) (a : Assembly) :
    Quietly setup r (r.recordTurn setup m a) := by
  refine ⟨⟨_, (recordTurn_frame setup m a r).1, by simpa using ⟨rfl, rfl⟩⟩,
    ⟨[], ?_, by simp⟩, recordTurn_agent r setup m a, ?_, (recordTurn_frame setup m a r).2.1⟩ <;>
  · unfold Run.recordTurn
    cases a.usage <;> simp [say, note, Session.add, Session.noteUsage, Session.recordUsage]

theorem recordInterrupted (r : Run σ) (why : Interruption) (a : Assembly) :
    Quietly setup r (r.recordInterrupted setup why a) := by
  unfold Run.recordInterrupted
  split <;> exact of_same rfl rfl rfl rfl rfl

theorem compact (setup : Setup σ) (r : Run σ) : Quietly setup r (compact setup r) := by
  have sum := setup.summarize_summarises r.session r.agent r.cancel r.world []
  obtain ⟨more, journal, summaries⟩ := sum.journal
  rw [List.nil_append] at journal
  have still : ∀ entry ∈ more, entry.Still setup.team := fun entry among =>
    Activity.still_of_isSummary (summaries entry among)
  have summarised : Quietly setup r { r with
      session := (setup.summarize r.session r.agent r.cancel r.world).session
      cancel := (setup.summarize r.session r.agent r.cancel r.world).cancel
      world := (setup.summarize r.session r.agent r.cancel r.world).world
      journal := r.journal ++ (setup.summarize r.session r.agent r.cancel r.world).journal } :=
    ⟨⟨more, by simp [journal], still⟩, ⟨[], by simp, by simp⟩, rfl,
      setup.summarize_activeAgent _ _ _ _, sum.pending⟩
  unfold Run.compact
  split
  · dsimp only
    split
    · exact summarised.trans (emit _ rfl)
    · exact summarised
  · exact of_same rfl rfl rfl rfl rfl

theorem followUp (setup : Setup σ) (r : Run σ) : Quietly setup r (followUp setup r) := by
  unfold Run.followUp
  dsimp only
  split
  · split
    · exact of_same rfl rfl rfl rfl rfl
    · split
      · exact of_same rfl rfl rfl rfl rfl
      · exact ⟨⟨[], (List.append_nil _).symm, by simp⟩,
          ⟨[.followUpSuggestions r.agent _], rfl, by simp [Event.switch?]⟩, rfl, rfl, rfl⟩
  · exact of_same rfl rfl rfl rfl rfl

theorem finish (setup : Setup σ) (outcome : Outcome) (r : Run σ) :
    Quietly setup r (finish setup (Run.followUp setup) outcome r) := by
  cases outcome with
  | done reason => exact ((compact setup r).trans (followUp setup _)).trans (emit _ rfl)
  | suspended => exact of_same rfl rfl rfl rfl rfl
  | cancelled => exact emit r rfl
  | failed message => exact emit r rfl

end Quietly

/-! ## Steps of a run -/

theorem handoff_of_transfer? {caller : String} {call : ToolCall} {args : Handoff.Arguments}
    (h : transfer? setup.team caller call = some args) (r : Run σ) :
    r.handoff setup caller call =
      (r.recordResult setup caller call .transfer (transferredText args.agent) false).switchTo setup
        caller args := by
  obtain ⟨read, valid⟩ := transfer?_eq_some_iff.mp h
  rw [handoff, read]
  exact if_pos valid

theorem handoff_of_failed {caller : String} {call : ToolCall}
    (h : transfer? setup.team caller call = none) (r : Run σ) :
    ∃ text, r.handoff setup caller call =
      r.recordResult setup caller call .transfer text true := by
  unfold transfer? at h
  unfold handoff
  split at h
  · rename_i decoded
    split at h
    · cases h
    · rename_i invalid
      simp only [decoded, if_neg invalid]
      exact ⟨_, rfl⟩
  · rename_i decoded
    simp only [decoded]
    exact ⟨_, rfl⟩

theorem Quietly.of_failed {caller : String} {call : ToolCall}
    (h : transfer? setup.team caller call = none) (r : Run σ) :
    Quietly setup r (r.handoff setup caller call) := by
  obtain ⟨text, same⟩ := handoff_of_failed h r
  rw [same]
  exact .recordResult r ⟨rfl, by simp [Activity.switch?, h]⟩ text true

def Stage.caller? : Stage → Option String
  | .answering _ pending _ => some pending.agent
  | .calling _ caller _ => some caller
  | .asking _ | .closed _ => none

end Run

/-- Where a session stands when `last` was asked last and `next` is to be asked. -/
structure Placed (t : Team σ) (last : Option String) (next : String) (s : Session) : Prop where
  active : s.activeAgent.getD t.root.name = next
  /-- Until the first handoff only the root is asked. -/
  unmoved : s.activeAgent = none → ∀ agent ∈ last, agent = t.root.name
  waits : ∀ p, s.pending = some p → last = some p.agent

namespace Run

variable {setup : Setup σ} {last₀ last : Option String} {next₀ : String}

/-- A run follows the course of its journal, and reports the switches. -/
structure Follows (setup : Setup σ) (last₀ : Option String) (next₀ : String)
    (last : Option String) (x : Stage × Run σ) : Prop where
  course : Course setup.team last₀ next₀ x.2.journal last x.2.agent
  placed : Placed setup.team last x.2.agent x.2.session
  caller : ∀ agent ∈ x.1.caller?, last = some agent
  idle : x.1.isClosed = false → x.2.session.pending = none
  told : switchEvents x.2.events = switchesIn setup.team x.2.journal

theorem Quietly.told {r r' : Run σ} (q : Quietly setup r r')
    (told : switchEvents r.events = switchesIn setup.team r.journal) :
    switchEvents r'.events = switchesIn setup.team r'.journal := by
  obtain ⟨more, journal, still⟩ := q.journal
  obtain ⟨reported, events, silent⟩ := q.events
  have noSwitch : switchesIn setup.team more = [] :=
    List.filterMap_eq_nil_iff.mpr fun entry among => (still entry among).switch
  have noEvent : switchEvents reported = [] := List.filterMap_eq_nil_iff.mpr silent
  rw [journal, events, switchesIn_append, switchEvents_append, noSwitch, noEvent, told]

theorem Quietly.course {r r' : Run σ} (q : Quietly setup r r')
    (h : Course setup.team last₀ next₀ r.journal last r.agent) :
    Course setup.team last₀ next₀ r'.journal last r'.agent := by
  obtain ⟨more, journal, still⟩ := q.journal
  rw [journal, q.agent]
  exact h.append (.all_still still last r.agent)

theorem Quietly.placed {r r' : Run σ} (q : Quietly setup r r')
    (h : Placed setup.team last r.agent r.session) :
    Placed setup.team last r'.agent r'.session := by
  constructor
  · rw [q.active, q.agent]
    exact h.active
  · rw [q.active]
    exact h.unmoved
  · rw [q.pending]
    exact h.waits

namespace Follows

variable {x y : Stage} {r r' : Run σ}

theorem quietly (h : Follows setup last₀ next₀ last (x, r)) (working : x.isClosed = false)
    (q : Quietly setup r r') (caller : ∀ agent ∈ y.caller?, last = some agent) :
    Follows setup last₀ next₀ last (y, r') :=
  ⟨q.course h.course, q.placed h.placed, caller, fun _ => q.pending.trans (h.idle working),
    q.told h.told⟩

theorem send (h : Follows setup last₀ next₀ last (x, r)) (working : x.isClosed = false)
    (request : Model.Request) (world : σ) (caller : ∀ agent ∈ y.caller?, some r.agent = some agent) :
    Follows setup last₀ next₀ (some r.agent) (y, r.send request world) := by
  have idle : r.session.pending = none := h.idle working
  refine ⟨h.course.append (.asked (.nil _ _)), ⟨h.placed.active, ?_, ?_⟩, caller, fun _ => idle, ?_⟩
  · rintro unmoved agent ⟨⟩
    have active : r.session.activeAgent.getD setup.team.root.name = r.agent := h.placed.active
    rw [show r.session.activeAgent = none from unmoved] at active
    exact active.symm
  · intro p waits
    cases idle.symm.trans waits
  · have told : switchEvents r.events = switchesIn setup.team r.journal := h.told
    simp only [Run.send, note, switchesIn_append, told]
    simp [switchesIn, Activity.switch?]

theorem handoff (h : Follows setup last₀ next₀ last (x, r)) (working : x.isClosed = false)
    {caller : String} {call : ToolCall} (made : last = some caller)
    (yCaller : ∀ agent ∈ y.caller?, last = some agent) :
    Follows setup last₀ next₀ last (y, r.handoff setup caller call) := by
  cases transfers : transfer? setup.team caller call with
  | none =>
    exact h.quietly working (.of_failed transfers r) yCaller
  | some args =>
    have switch : (Activity.settled caller call .transfer).switch? setup.team =
        some (caller, args.agent) := by simp [Activity.switch?, transfers]
    rw [handoff_of_transfer? transfers r]
    refine ⟨?_, ⟨rfl, ?_, h.placed.waits⟩, yCaller, fun _ => h.idle working, ?_⟩
    · have course : Course setup.team last₀ next₀ r.journal last r.agent := h.course
      rw [made] at course ⊢
      exact course.append (.switched switch (.nil _ _))
    · intro unmoved
      cases unmoved
    · have told : switchEvents r.events = switchesIn setup.team r.journal := h.told
      have entry : switchesIn setup.team [.settled caller call .transfer] =
          [(caller, args.agent)] := by simp [switchesIn, switch]
      simp only [switchTo, recordResult, emit, say, note, List.append_assoc, switchesIn_append,
        switchEvents_append, told, entry]
      rfl

theorem suspend (h : Follows setup last₀ next₀ last (x, r)) {caller : String} (call : ToolCall)
    (rest : List ToolCall) (made : last = some caller) :
    Follows setup last₀ next₀ last (.closed .suspended, r.suspend caller call rest) := by
  have told : switchEvents r.events = switchesIn setup.team r.journal := h.told
  refine ⟨h.course, ⟨h.placed.active, h.placed.unmoved, ?_⟩, ?_, ?_, ?_⟩
  · rintro p ⟨⟩
    exact made
  · rintro agent ⟨⟩
  · intro working
    cases working
  · simp only [Run.suspend, emit, switchEvents_append, told]
    simp [switchEvents, Event.switch?]

end Follows

/-- Every step follows the course; only a request changes who was asked last. -/
theorem Step.follows {x y : Stage × Run σ} (h : Step setup x y)
    (hx : Follows setup last₀ next₀ last x) : ∃ last', Follows setup last₀ next₀ last' y := by
  have closed {outcome : Outcome} {last : Option String} :
      ∀ agent ∈ (Stage.closed outcome).caller?, last = some agent := by rintro agent ⟨⟩
  have asking {left : Nat} {last : Option String} :
      ∀ agent ∈ (Stage.asking left).caller?, last = some agent := by rintro agent ⟨⟩
  have same (r : Run σ) : Quietly setup r r := .of_same rfl rfl rfl rfl rfl
  have sent {left : Nat} {r : Run σ} (hr : Follows setup last₀ next₀ last (.asking left, r))
      (request : Model.Request) (world : σ) :
      Follows setup last₀ next₀ (some r.agent)
        (.asking left, r.look.look.send request world) := by
    have looked : Follows setup last₀ next₀ last (.asking left, r.look.look) :=
      hr.quietly rfl ((Quietly.look r).trans (.look r.look)) asking
    exact looked.send rfl request world asking
  -- Sending a request, handing over and asking the user matter; all other steps are quiet.
  cases h with
  | idle => exact ⟨last, hx.quietly rfl (same _) asking⟩
  | @accepted left caller call rest answer r yes =>
    exact ⟨last, hx.quietly rfl ((Quietly.approve r answer).trans (.execute _ caller call true))
      hx.caller⟩
  | declined => exact ⟨last, hx.quietly rfl (.recordResult _ ⟨rfl, rfl⟩ _ _) hx.caller⟩
  | abandoned => exact ⟨last, hx.quietly rfl (.recordCancelled _ _ _) closed⟩
  | stopped => exact ⟨last, hx.quietly rfl (.look _) closed⟩
  | exhausted => exact ⟨last, hx.quietly rfl (.look _) closed⟩
  | lost => exact ⟨last, hx.quietly rfl (.look _) closed⟩
  | withdrawn => exact ⟨last, hx.quietly rfl ((Quietly.look _).trans (.look _)) closed⟩
  | refused => exact ⟨_, (sent hx _ _).quietly rfl (same _) closed⟩
  | interrupted =>
    exact ⟨_, (sent hx _ _).quietly rfl ((Quietly.takeIn _ _).trans (.recordInterrupted _ _ _))
      closed⟩
  | answered =>
    exact ⟨_, (sent hx _ _).quietly rfl ((Quietly.takeIn _ _).trans (.recordTurn _ _ _)) closed⟩
  | called =>
    exact ⟨_, (sent hx _ _).quietly rfl ((Quietly.takeIn _ _).trans (.recordTurn _ _ _))
      (by rintro agent ⟨⟩; rfl)⟩
  | finished => exact ⟨last, hx.quietly rfl (same _) asking⟩
  | dropped => exact ⟨last, hx.quietly rfl ((Quietly.look _).trans (.recordCancelled _ _ _)) closed⟩
  | @transferred left caller call rest r =>
    have announced := hx.quietly (y := .calling left caller (call :: rest)) rfl
      (.announce r caller call) hx.caller
    exact ⟨last, announced.handoff rfl (hx.caller caller rfl) hx.caller⟩
  | unknown =>
    exact ⟨last, hx.quietly rfl ((Quietly.announce _ _ _).trans (.recordResult _ ⟨rfl, rfl⟩ _ _))
      hx.caller⟩
  | denied =>
    exact ⟨last, hx.quietly rfl ((Quietly.announce _ _ _).trans (.recordResult _ ⟨rfl, rfl⟩ _ _))
      hx.caller⟩
  | @suspended left caller call rest r =>
    have announced := hx.quietly (y := .calling left caller (call :: rest)) rfl
      (.announce r caller call) hx.caller
    exact ⟨last, announced.suspend call rest (hx.caller caller rfl)⟩
  | executed =>
    exact ⟨last, hx.quietly rfl ((Quietly.announce _ _ _).trans (.execute _ _ _ _)) hx.caller⟩

theorem drive_follows (setup : Setup σ) (resumed : Option (Session.Pending × Answer)) {r : Run σ}
    (h : Follows setup last₀ next₀ last (opening setup resumed, r)) :
    let r' := drive setup (followUp setup) resumed r
    ∃ last', Course setup.team last₀ next₀ r'.journal last' r'.agent ∧
      Placed setup.team last' r'.agent r'.session ∧
      switchEvents r'.events = switchesIn setup.team r'.journal := by
  obtain ⟨last', ended⟩ := (work_steps setup resumed r).keep
    (P := fun x => ∃ last, Follows setup last₀ next₀ last x)
    (fun step ⟨_, hx⟩ => step.follows hx) ⟨last, h⟩
  have quiet := Quietly.finish setup (work setup resumed r).2 (work setup resumed r).1
  exact ⟨last', quiet.course ended.course, quiet.placed ended.placed, quiet.told ended.told⟩

end Run

/-! ## Sessions -/

namespace Placed

variable {last : Option String} {next : String} {s : Session}

theorem opens_run (setup : Setup σ) (h : Placed setup.team last next s) (idle : s.pending = none)
    (c : Cancellation) (world : σ) :
    Run.Follows setup last next last (Run.opening setup none,
      { session := s, agent := setup.firstAgent s, cancel := c, world }) := by
  have first : setup.firstAgent s = next := h.active
  refine ⟨?_, by rw [first]; exact h, by rintro agent ⟨⟩, fun _ => idle, rfl⟩
  rw [first]
  exact .nil last next

theorem opens_resumed (setup : Setup σ) (h : Placed setup.team last next s) {p : Session.Pending}
    (waits : s.pending = some p) (answer : Answer) (c : Cancellation) (world : σ) :
    Run.Follows setup last next last (Run.opening setup (some (p, answer)),
      { session := { s with pending := none }, agent := s.activeAgent.getD p.agent, cancel := c
        world }) := by
  have same : s.activeAgent.getD p.agent = next := by
    rw [← h.active]
    cases active : s.activeAgent with
    | some agent => rfl
    | none => exact h.unmoved active p.agent (h.waits p waits)
  refine ⟨?_, ⟨by rw [same]; exact h.active, h.unmoved, by rintro p ⟨⟩⟩, ?_, fun _ => rfl, rfl⟩
  · rw [same]
    exact .nil last next
  · rintro agent ⟨⟩
    exact h.waits p waits

end Placed

namespace Team

variable {t : Team σ} {last₀ last : Option String} {next₀ next : String} {s : Session}

/-- Playing a move opens no run: nothing is reported, and the session stands where it stood. -/
structure Idles (t : Team σ) (s : Session) (p : Played) : Prop where
  silent : p.events = []
  still : ∀ entry ∈ p.journal, entry.Still t
  active : p.session.activeAgent = s.activeAgent
  pending : p.session.pending = s.pending

theorem play_opens (h : Placed t last next s) (m : Move σ) :
    Idles t s (t.play s m) ∨
      ∃ (on : Occasion σ) (resumed : Option (Session.Pending × Answer)) (r : Run σ),
        Run.Follows (on.setup t) last next last (Run.opening (on.setup t) resumed, r) ∧
        r.events = [] ∧ r.session.pending = none ∧ r.session.activeAgent = s.activeAgent ∧
        t.play s m = .ofRun (Run.drive (on.setup t) (Run.followUp (on.setup t)) resumed r) := by
  have refused : Idles t s { session := s } := ⟨rfl, by simp, rfl, rfl⟩
  cases m with
  | say text now => exact .inl ⟨rfl, by simp [play], rfl, rfl⟩
  | run on =>
    simp only [play]
    split
    · rename_i r ran
      obtain ⟨idle, -, rfl⟩ := Setup.run_eq_ok ran
      exact .inr ⟨on, none, _, Placed.opens_run (on.setup t) h idle _ _, rfl, idle, rfl, rfl⟩
    · exact .inl refused
  | resume on answer =>
    simp only [play]
    split
    · rename_i r resumed
      obtain ⟨p, waits, rfl⟩ := Setup.resume_eq_ok resumed
      exact .inr ⟨on, some (p, answer), _, Placed.opens_resumed (on.setup t) h waits answer _ _,
        rfl, rfl, rfl, rfl⟩
    · exact .inl refused
  | summarize on agent =>
    have sum := (on.setup t).summarize_summarises s agent on.cancel on.world []
    obtain ⟨more, journal, summaries⟩ := sum.journal
    rw [List.nil_append, List.nil_append] at journal
    refine .inl ⟨rfl, ?_, (on.setup t).summarize_activeAgent s agent _ _, sum.pending⟩
    simp only [play, journal]
    exact fun entry among => Activity.still_of_isSummary (summaries entry among)

theorem play_course (m : Move σ) (h : Placed t last next s) :
    ∃ last' next', Course t last next (t.play s m).journal last' next' ∧
      Placed t last' next' (t.play s m).session ∧
      switchEvents (t.play s m).events = switchesIn t (t.play s m).journal := by
  rcases play_opens h m with idles | ⟨on, resumed, r, opened, -, -, -, played⟩
  · refine ⟨last, next, .all_still idles.still last next, ⟨?_, ?_, ?_⟩, ?_⟩
    · rw [idles.active]
      exact h.active
    · rw [idles.active]
      exact h.unmoved
    · rw [idles.pending]
      exact h.waits
    · rw [idles.silent]
      exact (List.filterMap_eq_nil_iff.mpr fun entry among => (idles.still entry among).switch).symm
  · obtain ⟨last', course, placed, told⟩ := Run.drive_follows (on.setup t) resumed opened
    rw [played]
    exact ⟨last', _, course, placed, told⟩

theorem journal_course (moves : List (Move σ)) (h : Placed t last next s) :
    (∃ last' next', Course t last next (t.journal s moves) last' next') ∧
      switchEvents (t.events s moves) = switchesIn t (t.journal s moves) := by
  induction moves generalizing s last next with
  | nil => exact ⟨⟨last, next, .nil last next⟩, rfl⟩
  | cons m rest ih =>
    obtain ⟨last₁, next₁, first, placed, told⟩ := play_course m h
    obtain ⟨⟨last₂, next₂, later⟩, toldLater⟩ := ih placed
    refine ⟨⟨last₂, next₂, first.append later⟩, ?_⟩
    rw [events, journal, switchEvents_append, switchesIn_append, told, toldLater]

end Team

/-- Handing over never cycles, so it never leads a session back: every reported switch is a transfer
to a handoff target of the agent that made it, and after it the next agent that is asked is one
that was not asked before. The agent changes less often than there are agents. -/
theorem handoffs_never_return (t : Team σ) {s₀ : Session} (idle : s₀.pending = none)
    (moves : List (Move σ)) :
    let j := t.journal s₀ moves
    (∀ a, ¬ TransGen t.HandsTo a a) ∧
      (switchEvents (t.events s₀ moves) = switchesIn t j ∧
        ∀ switch ∈ switchEvents (t.events s₀ moves), t.HandsTo switch.1 switch.2) ∧
      (∀ front transfer middle agent request back,
        j = front ++ transfer :: (middle ++ .asked agent request :: back) →
        transfer.switch? t ≠ none → (∀ entry ∈ middle, entry.asked? = none) →
        agent ∉ askedIn front) ∧
      changes (askedIn j) < t.agents.length := by
  intro j
  have placed : Placed t none ((s₀.activeAgent).getD t.root.name) s₀ :=
    ⟨rfl, by rintro - agent ⟨⟩, by rw [idle]; rintro p ⟨⟩⟩
  obtain ⟨⟨last', next', course⟩, told⟩ := Team.journal_course moves placed
  refine ⟨t.handsTo_acyclic, ⟨told, ?_⟩, ?_, course.changes_lt⟩
  · rintro ⟨source, target⟩ among
    rw [told] at among
    obtain ⟨entry, -, switch⟩ := List.mem_filterMap.mp among
    exact Activity.handsTo_of_switch? switch
  · intro front transfer middle agent request back split switched quiet
    have whole : Course t none ((s₀.activeAgent).getD t.root.name) j last' next' := course
    rw [split] at whole
    exact whole.fresh_after_switch switched quiet

/-! ## A sample

The root lists itself and another agent. It hands over to the other one, which answers. -/

namespace Sample

def member (name : String) (subAgents : List String) : Agent Model.Playback where
  name
  model := agent.model
  subAgents

def pair : Team Model.Playback where
  agents := [member "root" ["root", "helper"], member "helper" []]
  root := member "root" ["root", "helper"]
  distinct := by simp [member]
  known := by simp [member]
  root_mem := .head _

def transferCall (arguments : String) : ToolCall := ⟨"1", "transfer_task", "" ++ arguments⟩

/-- The root makes the call, and the model of the agent that is asked then gives no reply. -/
def handover (arguments : String) : Occasion Model.Playback :=
  { occasion [] with
    world := { turns := [
      .ok [.item (.ok (.callStart "1" "transfer_task")) false,
        .item (.ok (.callDelta "1" arguments)) false],
      .error (.requestFailed "overloaded")] } }

def helpText : String := "\x7b\"agent\":\"helper\",\"task\":\"help\"\x7d"

theorem pair_targets : (pair.handoffTargets "root").map (·.name) = ["helper"] := by cbv

theorem transfers : transfer? pair "root" (transferCall helpText) = some ⟨"helper", "help", ""⟩ := by
  have given : Text.isBlankText (transferCall helpText).arguments = false := by rfl
  have read : (transferCall helpText).readArguments =
      .ok (.object [("agent", .text "helper"), ("task", .text "help")]) := by
    unfold ToolCall.readArguments transferCall helpText
    cbv
  have decoded : Run.transferArguments (transferCall helpText) = .ok ⟨"helper", "help", ""⟩ := by
    rw [Run.transferArguments, ToolCall.parseArguments, given, read]
    rfl
  rw [transfer?, decoded, pair_targets]
  rfl

open Run in
theorem handover_journal {text : String}
    (h : transfer? pair "root" (transferCall text) = some ⟨"helper", "help", ""⟩) :
    ∃ request request', pair.journal session [.run (handover text)] =
      [.asked "root" request, .replied "root" [transferCall text] none] ++
        .settled "root" (transferCall text) .transfer :: ([] ++ [.asked "helper" request']) := by
  let setup := (handover text).setup pair
  let r : Run Model.Playback :=
    { session, agent := "root", cancel := .never, world := (handover text).world }
  let called := (callModel setup r.look).1.look.announce "root" (transferCall text)
  have step : pair.play session (.run (handover text)) =
      .ofRun (let ended := loop setup 49 (called.handoff setup "root" (transferCall text))
        finish setup (followUp setup) ended.2 ended.1) := rfl
  have transferred : called.handoff setup "root" (transferCall text) = _ :=
    handoff_of_transfer? h called
  rw [Team.journal, step, transferred]
  exact ⟨_, _, rfl⟩

end Sample

/-- The root was asked and handed over, so the agent asked next is another one. -/
theorem handoffs_never_return_sample :
    let j := Sample.pair.journal Sample.session [.run (Sample.handover Sample.helpText)]
    Sample.session.pending = none ∧ changes (askedIn j) < Sample.pair.agents.length ∧
      ∃ front transfer request, j = front ++ transfer :: ([] ++ [.asked "helper" request]) ∧
        askedIn front = ["root"] ∧ "helper" ∉ askedIn front := by
  have idle : Sample.session.pending = none := rfl
  obtain ⟨request, request', journal⟩ := Sample.handover_journal Sample.transfers
  obtain ⟨-, -, fresh, few⟩ :=
    handoffs_never_return Sample.pair idle [.run (Sample.handover Sample.helpText)]
  refine ⟨idle, few, _, _, _, journal, rfl, ?_⟩
  exact fresh _ _ _ _ _ _ journal (by simp [Activity.switch?, Sample.transfers]) (by simp)

end Ensemble
