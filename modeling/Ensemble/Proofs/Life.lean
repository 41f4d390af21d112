import Ensemble.Model.Playback
import Ensemble.Proofs.Run.Aside

/-!
# The life of a session

Between its drivers a session belongs to its users: they say something, run it, answer what a run
asked for, or have it summarised. A `Move` is one of these. `Team.play` plays it with the
library's own functions; a move that is refused leaves the session as it is. Each move has its own
settings, time, cancellation and world, so nothing is assumed of what models and tools do from one
move to the next.

Several users at a time are not covered here.
-/

namespace Ensemble

open Time (Timestamp)

/-- All that a move depends on beside the team and the session. -/
structure Occasion (σ : Type) where
  config : RunConfig := {}
  here : Surroundings
  now : Timestamp
  cancel : Cancellation := .never
  world : σ

inductive Move (σ : Type) where
  | say (text : String) (now : Timestamp)
  | run (on : Occasion σ)
  | resume (on : Occasion σ) (answer : Answer)
  | summarize (on : Occasion σ) (agent : String)

structure Played where
  session : Session
  events : List Event := []
  journal : List Activity := []
  aside : List Activity := []

variable {σ : Type}

def Played.ofRun (r : Run σ) : Played := ⟨r.session, r.events, r.journal, r.aside⟩

def Occasion.setup (on : Occasion σ) (t : Team σ) : Setup σ := ⟨t, on.config, on.here, on.now⟩

namespace Setup

variable {setup : Setup σ} {s : Session} {c : Cancellation} {world : σ} {r : Run σ}

theorem start_eq_ok (h : setup.start s c world = .ok r) :
    s.pending = none ∧ (∃ a, setup.team.agent (setup.firstAgent s) = .ok a) ∧
      r = { session := s, agent := setup.firstAgent s, cancel := c, world } := by
  unfold start at h
  split at h
  · cases h
  rename_i idle
  dsimp only at h
  split at h
  · cases h
  · rename_i a found
    cases h
    exact ⟨by simpa using idle, ⟨a, found⟩, rfl⟩

theorem startResumed_eq_ok {begun : Run σ × Session.Pending}
    (h : startResumed s c world = .ok begun) :
    s.pending = some begun.2 ∧
      begun = ({ session := { s with pending := none }, agent := s.activeAgent.getD begun.2.agent
                 cancel := c, world }, begun.2) := by
  unfold startResumed at h
  split at h
  · cases h
  · rename_i pending waits
    cases h
    exact ⟨waits, rfl⟩

theorem run_eq_ok (h : setup.run s c world = .ok r) :
    s.pending = none ∧ (∃ a, setup.team.agent (setup.firstAgent s) = .ok a) ∧
      r = Run.drive setup (Run.followUp setup) none
        { session := s, agent := setup.firstAgent s, cancel := c, world } := by
  cases started : setup.start s c world with
  | error e =>
    rw [run, started] at h
    cases h
  | ok first =>
    rw [run, started] at h
    cases h
    obtain ⟨idle, found, rfl⟩ := start_eq_ok started
    exact ⟨idle, found, rfl⟩

theorem resume_eq_ok {answer : Answer} (h : setup.resume s answer c world = .ok r) :
    ∃ pending, s.pending = some pending ∧
      r = Run.drive setup (Run.followUp setup) (some (pending, answer))
        { session := { s with pending := none }, agent := s.activeAgent.getD pending.agent
          cancel := c, world } := by
  cases started : startResumed s c world with
  | error e =>
    rw [resume, started] at h
    cases h
  | ok first =>
    rw [resume, started] at h
    cases h
    obtain ⟨waits, same⟩ := startResumed_eq_ok started
    refine ⟨first.2, waits, ?_⟩
    rw [same]

/-- A driver that starts drives a session that waits for nothing any more. -/
theorem started_eq_ok
    (h : setup.run s c world = .ok r ∨ ∃ answer, setup.resume s answer c world = .ok r) :
    ∃ (resumed : Option (Session.Pending × Answer)) (agent : String),
      s.pending = resumed.map (·.1) ∧
      r = Run.drive setup (Run.followUp setup) resumed
        { session := { s with pending := none }, agent, cancel := c, world } := by
  rcases h with ran | ⟨answer, resumed⟩
  · obtain ⟨idle, -, rfl⟩ := run_eq_ok ran
    have same : { s with pending := none } = s := by rw [← idle]
    exact ⟨none, setup.firstAgent s, idle, by rw [same]⟩
  · obtain ⟨pending, waits, rfl⟩ := resume_eq_ok resumed
    exact ⟨some (pending, answer), _, waits, rfl⟩

end Setup

def Move.answer? : Move σ → Option Answer
  | .resume _ answer => some answer
  | _ => none

namespace Team

def play (t : Team σ) (s : Session) : Move σ → Played
  | .say text now => { session := s.addUser text now }
  | .run on =>
    match (on.setup t).run s on.cancel on.world with
    | .ok r => .ofRun r
    | .error _ => { session := s }
  | .resume on answer =>
    match (on.setup t).resume s answer on.cancel on.world with
    | .ok r => .ofRun r
    | .error _ => { session := s }
  | .summarize on agent =>
    let result := (on.setup t).summarize s agent on.cancel on.world
    { session := result.session, journal := result.journal }

def after (t : Team σ) (s : Session) (moves : List (Move σ)) : Session :=
  moves.foldl (fun s m => (t.play s m).session) s

def journal (t : Team σ) (s : Session) : List (Move σ) → List Activity
  | [] => []
  | m :: rest => (t.play s m).journal ++ t.journal (t.play s m).session rest

def events (t : Team σ) (s : Session) : List (Move σ) → List Event
  | [] => []
  | m :: rest => (t.play s m).events ++ t.events (t.play s m).session rest

theorem after_cons (t : Team σ) (s : Session) (m : Move σ) (rest : List (Move σ)) :
    t.after s (m :: rest) = t.after (t.play s m).session rest := rfl

theorem journal_append (t : Team σ) (s : Session) (ms ns : List (Move σ)) :
    t.journal s (ms ++ ns) = t.journal s ms ++ t.journal (t.after s ms) ns := by
  induction ms generalizing s with
  | nil => rfl
  | cons m ms ih =>
    simp only [List.cons_append, journal, after_cons, ih, List.append_assoc]

theorem after_keep {P : Session → Prop} (t : Team σ)
    (play : ∀ s m, P s → P (t.play s m).session) {s : Session} (hs : P s) (moves : List (Move σ)) :
    P (t.after s moves) := by
  induction moves generalizing s with
  | nil => exact hs
  | cons m rest ih => exact ih (play s m hs)

/-- Everything a move can do. -/
inductive Plays (t : Team σ) (s : Session) : Move σ → Played → Prop where
  | said (text : String) (now : Timestamp) :
      Plays t s (.say text now) { session := s.addUser text now }
  | refused (m : Move σ) (idle : m.answer?.isSome = true → s.pending = none) :
      Plays t s m { session := s }
  | ran (on : Occasion σ) (agent : String) (idle : s.pending = none) :
      Plays t s (.run on)
        (.ofRun (Run.drive (on.setup t) (Run.followUp (on.setup t)) none
          { session := s, agent, cancel := on.cancel, world := on.world }))
  | resumed (on : Occasion σ) (answer : Answer) (agent : String) (pending : Session.Pending)
      (waits : s.pending = some pending) :
      Plays t s (.resume on answer)
        (.ofRun (Run.drive (on.setup t) (Run.followUp (on.setup t)) (some (pending, answer))
          { session := { s with pending := none }, agent, cancel := on.cancel
            world := on.world }))
  | summarised (on : Occasion σ) (agent : String) (played : Played)
      (h : Summarises s [] played.session played.journal) (alone : played.aside = []) :
      Plays t s (.summarize on agent) played

theorem play_plays (t : Team σ) (s : Session) (m : Move σ) : Plays t s m (t.play s m) := by
  cases m with
  | say text now => exact .said text now
  | run on =>
    cases idle : s.pending with
    | some pending =>
      simp only [play, Setup.run, Setup.start, idle, Option.isSome_some, if_true]
      apply Plays.refused
      intro answers
      cases answers
    | none =>
      simp only [play, Setup.run, Setup.start, idle, Option.isSome_none, Bool.false_eq_true,
        if_false]
      cases (on.setup t).team.agent ((on.setup t).firstAgent s) with
      | error e =>
        apply Plays.refused
        intro answers
        cases answers
      | ok a => exact .ran on _ idle
  | resume on answer =>
    cases waits : s.pending with
    | none =>
      simp only [play, Setup.resume, Setup.startResumed, waits]
      exact .refused _ fun _ => waits
    | some pending =>
      simp only [play, Setup.resume, Setup.startResumed, waits]
      exact .resumed on answer _ pending waits
  | summarize on agent =>
    exact .summarised on agent _ ((on.setup t).summarize_summarises s agent on.cancel on.world [])
      rfl

theorem Plays.suggested {t : Team σ} {s : Session} {m : Move σ} {played : Played}
    (h : t.Plays s m played) : Run.Suggested σ played.aside := by
  cases h with
  | said text now => exact .nothing
  | refused => exact .nothing
  | ran on agent idle => exact Run.suggested_drive _ _ rfl
  | resumed on answer agent pending waits => exact Run.suggested_drive _ _ rfl
  | summarised on agent played sum alone => exact .of_nil alone

end Team

/-! ## A sample

A single agent whose only tool needs consent. Its model plays the replies that a move brings with
it. -/

namespace Sample

def touch : Tool Model.Playback where
  name := "touch"
  description := "Touches something."
  inputSchema := .object []
  execute := fun _ _ world => (⟨.ok (.text "touched"), false⟩, world)

def agent : Agent Model.Playback where
  name := "root"
  model := Model.played "sample" "sample" {} none ⟨id, fun playback _ => playback⟩
  toolsets := [{ key := 0, tools := [touch] }]

def team : Team Model.Playback where
  agents := [agent]
  root := agent
  distinct := by simp
  known := by simp [agent]
  root_mem := .head _

def noon : Timestamp := ⟨⟨2026, 1, 1⟩, 12, 0, 0, 0⟩

def session : Session := { id := "sample", createdAt := noon }

def call (id : String) : ToolCall := ⟨id, "touch", ""⟩

def occasion (replies : List (List Model.Delta)) : Occasion Model.Playback where
  here := { today := "2026-01-01", directory := "/" }
  now := noon
  world := { turns := replies.map fun reply => .ok (reply.map fun d => .item (.ok d) false) }

/-- The user is asked for consent to the first of two calls. -/
def suspended : List (Move Model.Playback) :=
  [.say "go" noon,
    .run (occasion [[.callStart "1" "touch", .callStart "2" "touch", .done none none]])]

end Sample

end Ensemble
