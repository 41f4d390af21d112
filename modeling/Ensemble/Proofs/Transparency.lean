import Ensemble.Proofs.Endings
import Ensemble.Proofs.Run.Matches

/-!
# Approval is transparent

A user who lets every tool run from the beginning, and one who is asked and accepts each time, get
the same work: the run of the first and the drivers of the second (`Accepted`) add the same items,
use the same tokens, send the same requests and report the same events, but for the times and the
questions (`approval_transparent`). The two are compared by `Matches`, and what a suspended driver
has told and sent is put in front of what the next one does (`Joined`).

The limit of requests holds for each driver on its own, so a run that reaches it is not covered. All
drivers share their surroundings, among them the date in the prompts.
-/

namespace Ensemble

open Session Time

variable {σ : Type}

/-! ## The transcript only grows -/

theorem Setup.run_items_prefix {setup : Setup σ} {s : Session} {c : Cancellation} {world : σ}
    {r : Run σ} (h : setup.run s c world = .ok r) : s.items <+: r.session.items := by
  obtain ⟨-, -, rfl⟩ := run_eq_ok h
  exact Run.drive_items_prefix setup (Run.quiet_followUp setup) none rfl

theorem Setup.resume_items_prefix {setup : Setup σ} {s : Session} {answer : Answer}
    {c : Cancellation} {world : σ} {r : Run σ} (h : setup.resume s answer c world = .ok r) :
    s.items <+: r.session.items := by
  obtain ⟨pending, -, rfl⟩ := resume_eq_ok h
  exact Run.drive_items_prefix setup (Run.quiet_followUp setup) (some (pending, answer)) rfl

/-! ## Accepting -/

/-- The drivers after `r` when the user accepts whatever is asked, until one does not ask. Each
has its time from the clock. -/
inductive Accepted (setup : Setup σ) : (Nat → Timestamp) → Run σ → List (Run σ) → Prop where
  | ended {clock : Nat → Timestamp} {r : Run σ} (free : r.session.pending = none) :
      Accepted setup clock r []
  | resumed {clock : Nat → Timestamp} {r next : Run σ} {later : List (Run σ)}
      (answered : (setup.atTime (clock 0)).resume r.session .accept .never r.world = .ok next)
      (onward : Accepted setup (fun i => clock (i + 1)) next later) :
      Accepted setup clock r (next :: later)

theorem Accepted.unique {setup : Setup σ} {clock : Nat → Timestamp} {r : Run σ}
    {later later' : List (Run σ)} (h : Accepted setup clock r later)
    (h' : Accepted setup clock r later') : later = later' := by
  induction h generalizing later' with
  | ended free =>
    cases h' with
    | ended => rfl
    | resumed answered =>
      obtain ⟨pending, waits, -⟩ := Setup.resume_eq_ok answered
      rw [free] at waits
      cases waits
  | resumed answered onward ih =>
    cases h' with
    | ended free =>
      obtain ⟨pending, waits, -⟩ := Setup.resume_eq_ok answered
      rw [free] at waits
      cases waits
    | resumed answered' onward' =>
      cases answered.symm.trans answered'
      rw [ih onward']

theorem Accepted.items_prefix {setup : Setup σ} {clock : Nat → Timestamp} {r : Run σ}
    {later : List (Run σ)} (h : Accepted setup clock r later) {last : Run σ}
    (ends : (r :: later).getLast? = some last) : r.session.items <+: last.session.items := by
  induction h with
  | ended =>
    cases ends
    exact List.prefix_rfl
  | resumed answered onward ih =>
    rw [List.getLast?_cons_cons] at ends
    exact (Setup.resume_items_prefix answered).trans (ih ends)

def Run.requests (r : Run σ) : List (String × Model.Request) := requestsIn (r.journal ++ r.aside)

def Event.isElicitation : Event → Bool
  | .elicitationRequest .. => true
  | _ => false

/-- What drivers report together, without what they ask the user. -/
def reportedBy (drivers : List (Run σ)) : List Event :=
  (drivers.flatMap (·.events)).filter fun e => !e.isElicitation

/-- Together the drivers did what is left to do of `r`. -/
structure Joined (told : List Event) (sent : List (String × Model.Request)) (r : Run σ)
    (drivers : List (Run σ)) : Prop where
  last : ∃ last, drivers.getLast? = some last ∧ r.session.bare = last.session.bare ∧
    r.world = last.world
  requests : r.requests = sent ++ drivers.flatMap Run.requests
  events : r.events = told ++ reportedBy drivers

theorem Run.Ended.not_elicitation {r : Run σ} (h : r.Ended) (free : r.session.pending = none) :
    ∀ e ∈ r.events, e.isElicitation = false := by
  obtain ⟨before, last, events, -, plain⟩ := h.terminal
  intro e among
  cases e with
  | elicitationRequest agent message call =>
    rw [events] at among
    rcases List.mem_append.mp among with among | among
    · cases plain _ among
    · obtain rfl := List.mem_singleton.mp among
      obtain ⟨rest, waits⟩ := h.asks agent message call (by rw [events, List.getLast?_concat])
      rw [free] at waits
      cases waits
  | _ => rfl

theorem reportedBy_cons (r : Run σ) (later : List (Run σ)) :
    reportedBy (r :: later) = r.events.filter (fun e => !e.isElicitation) ++ reportedBy later := by
  simp [reportedBy]

theorem Joined.cons {told : List Event} {sent : List (String × Model.Request)}
    {r first next : Run σ} {later : List (Run σ)}
    (h : Joined (told ++ first.events.filter fun e => !e.isElicitation) (sent ++ first.requests) r
      (next :: later)) : Joined told sent r (first :: next :: later) where
  last := by
    rw [List.getLast?_cons_cons]
    exact h.last
  requests := by
    have together : (first :: next :: later).flatMap Run.requests =
        first.requests ++ (next :: later).flatMap Run.requests := rfl
    rw [h.requests, together, List.append_assoc]
  events := by rw [h.events, reportedBy_cons first, List.append_assoc]

theorem Setup.resume_suspend (setup : Setup σ) (now : Timestamp) (r : Run σ) (caller : String)
    (call : ToolCall) (rest : List ToolCall) :
    let x := Run.work (setup.atTime now) (some (⟨caller, call :: rest⟩, .accept))
      (r.reopened caller)
    (setup.atTime now).resume (r.suspend caller call rest).session .accept .never r.world =
      .ok (Run.finish (setup.atTime now) (Run.followUp (setup.atTime now)) x.2 x.1) := rfl

theorem Run.Matches.idle {setup : Setup σ} {told : List Event}
    {sent : List (String × Model.Request)} {x x' : Run σ × Outcome}
    (h : Run.Matches setup true told sent x x') : x.1.session.pending = none := by
  induction h with
  | same twin idle =>
    have pending := congrArg (·.pending) twin.session
    exact pending.trans (idle rfl)
  | asked _ _ later ih => exact ih setup.now

theorem Run.Matches.joined {setup : Setup σ} {told : List Event}
    {sent : List (String × Model.Request)} {x x' : Run σ × Outcome}
    (h : Run.Matches setup true told sent x x')
    (plain : ∀ e ∈ (Run.finish setup (Run.followUp setup) x.2 x.1).events,
      e.isElicitation = false) (now : Timestamp) (clock : Nat → Timestamp) :
    let first := Run.finish (setup.atTime now) (Run.followUp (setup.atTime now)) x'.2 x'.1
    ∃ later, Accepted setup clock first later ∧
      Joined told sent (Run.finish setup (Run.followUp setup) x.2 x.1) (first :: later) := by
  induction h generalizing now clock with
  | @same told sent r r' outcome twin idle =>
    intro first
    have ended := twin.finish setup now (Run.followUp setup) (Run.followUp (setup.atTime now))
      (fun h => h.followUp setup now) outcome
    have quiet := Run.finish_summarises (setup.atTime now)
      (Run.quiet_followUp (setup.atTime now)) outcome r'
    refine ⟨[], .ended (quiet.pending.trans (idle rfl)),
      ⟨⟨_, rfl, ended.session, ended.world⟩, ?_, ?_⟩⟩
    · have requests := ended.requests
      simp only [Run.requests, requestsIn_append, requests, ended.aside, List.flatMap_cons,
        List.flatMap_nil, List.append_nil, List.append_assoc, first]
    · have events := ended.events
      have kept : ∀ e ∈ first.events, e.isElicitation = false := fun e among =>
        plain e (by rw [events]; exact List.mem_append_right _ among)
      rw [events, reportedBy_cons, List.filter_eq_self.mpr (by simpa using kept)]
      simp [reportedBy, first]
  | @asked told sent x r' caller call rest given alone later ih =>
    intro first
    obtain ⟨after, accepted, joined⟩ :=
      ih (clock 0) plain (clock 0) (fun i => clock (i + 1))
    have kept : ∀ e ∈ r'.events, e.isElicitation = false := fun e among =>
      plain e (by rw [joined.events]; simp [among])
    have reported : first.events.filter (fun e => !e.isElicitation) = r'.events := by
      have events : first.events = r'.events ++
          [.elicitationRequest caller (consentText caller call.name) call] := rfl
      rw [events, List.filter_append, List.filter_eq_self.mpr (by simpa using kept)]
      exact List.append_nil _
    have requests : first.requests = requestsIn r'.journal := by
      have entries : first.journal ++ first.aside = r'.journal ++ r'.aside := rfl
      rw [Run.requests, entries, alone, List.append_nil]
    rw [← reported, ← requests] at joined
    exact ⟨_, .resumed (setup.resume_suspend (clock 0) r' caller call rest) accepted, joined.cons⟩

/-! ## One run and many drivers -/

/-- The session of a user who lets every tool run. -/
def Session.trusting (s : Session) : Session := { s with toolsApproved := true }

namespace Setup

def opened (setup : Setup σ) (s : Session) (world : σ) : Run σ where
  session := s
  agent := setup.firstAgent s
  cancel := .never
  world := world

theorem run_of_idle (setup : Setup σ) {s : Session} {a : Agent σ} (idle : s.pending = none)
    (found : setup.team.agent (setup.firstAgent s) = .ok a) (world : σ) :
    setup.run s .never world =
      .ok (Run.drive setup (Run.followUp setup) none (setup.opened s world)) := by
  have free : s.pending.isSome = false := by rw [idle]; rfl
  simp only [run, start, free, found, Bool.false_eq_true, if_false]
  rfl

theorem twin_opened (setup : Setup σ) (now : Timestamp) {s : Session}
    (unset : s.toolsApproved = false) (world : σ) :
    Run.Twin true [] [] (setup.opened s.trusting world) ((setup.atTime now).opened s world) :=
  ⟨rfl, rfl, rfl, rfl, rfl, rfl, rfl, rfl, unset⟩

theorem ready_opened (setup : Setup σ) {s : Session} {a : Agent σ} (idle : s.pending = none)
    (found : setup.team.agent (setup.firstAgent s) = .ok a) (world : σ) :
    Run.Ready setup.team (setup.firstAgent s) (setup.opened s world) where
  calm := .inl rfl
  known := Team.mem_names_iff.mpr ⟨a, found⟩
  seated := by
    unfold opened firstAgent
    cases s.activeAgent <;> rfl
  idle := idle
  alone := rfl

theorem asked_allowing (setup : Setup σ) (limit : Nat) (r : Run σ) :
    (askedIn (Run.loop setup limit r).1.journal).length ≤
      (askedIn (Run.drive (setup.allowing limit) (Run.followUp (setup.allowing limit)) none
        r).journal).length := by
  have ends := Run.finish_summarises (setup.allowing limit)
    (Run.quiet_followUp (setup.allowing limit)) (Run.loop setup limit r).2
    (Run.loop setup limit r).1
  obtain ⟨more, journal, -⟩ := ends.journal
  have worked : Run.work (setup.allowing limit) none r = Run.loop setup limit r :=
    Run.loop_allowing limit limit r
  apply Run.askedIn_le_of_prefix
  unfold Run.drive
  rw [worked]
  exact ⟨more, journal.symm⟩

end Setup

/-- The drivers of a session `s` together do what the run `r` of it does, apart from their times
and from asking the user. -/
structure SameWork (s : Session) (r : Run σ) (drivers : List (Run σ)) (last : Run σ) : Prop where
  ends : drivers.getLast? = some last
  items : ∃ added added', r.session.items = s.items ++ added ∧
    last.session.items = s.items ++ added' ∧ added'.map Item.undated = added.map Item.undated
  usage : last.session.inputTokens = r.session.inputTokens ∧
    last.session.outputTokens = r.session.outputTokens ∧ last.session.cost = r.session.cost
  activeAgent : last.session.activeAgent = r.session.activeAgent
  world : last.world = r.world
  requests : drivers.flatMap Run.requests = r.requests
  events : reportedBy drivers = r.events

theorem Joined.sameWork {s : Session} {r : Run σ} {drivers : List (Run σ)}
    (h : Joined [] [] r drivers) (kept : s.items <+: r.session.items)
    (kept' : ∀ last, drivers.getLast? = some last → s.items <+: last.session.items) :
    ∃ last, SameWork s r drivers last := by
  obtain ⟨last, ends, session, world⟩ := h.last
  obtain ⟨added, items⟩ := kept
  obtain ⟨added', items'⟩ := kept' last ends
  have undated : added'.map Item.undated = added.map Item.undated := by
    have same : last.session.items.map Item.undated = r.session.items.map Item.undated :=
      congrArg (·.items) session.symm
    rw [← items, ← items', List.map_append, List.map_append] at same
    exact List.append_cancel_left same
  exact ⟨last, {
    ends
    items := ⟨added, added', items.symm, items'.symm, undated⟩
    usage := ⟨congrArg (·.inputTokens) session.symm, congrArg (·.outputTokens) session.symm,
      congrArg (·.cost) session.symm⟩
    activeAgent := congrArg (·.activeAgent) session.symm
    world := world.symm
    requests := h.requests.symm
    events := h.events.symm }⟩

/-- Approval is transparent: if a run in which every tool may run makes no more requests than the
limit allows, also when it may make one more, then the user may as well be asked, and accept
whatever is asked. The drivers come to an end, and together they do the same work. -/
theorem approval_transparent (setup : Setup σ) {s : Session} (unset : s.toolsApproved = false)
    (world : σ) {r ample : Run σ} (approved : setup.run s.trusting .never world = .ok r)
    (allowed : (setup.allowing (setup.config.maxIterations + 1)).run s.trusting .never world =
      .ok ample)
    (needs : (askedIn ample.journal).length ≤ setup.config.maxIterations)
    (clock : Nat → Timestamp) :
    ∃ first, (setup.atTime (clock 0)).run s .never world = .ok first ∧
      (∃ later, Accepted setup (fun i => clock (i + 1)) first later) ∧
      ∀ later, Accepted setup (fun i => clock (i + 1)) first later →
        ∃ last, SameWork s r (first :: later) last := by
  have kept : s.trusting.items <+: r.session.items := Setup.run_items_prefix approved
  obtain ⟨idle, ⟨a, found⟩, same⟩ : s.pending = none ∧
      (∃ a, setup.team.agent (setup.firstAgent s) = .ok a) ∧
      r = Run.drive setup (Run.followUp setup) none (setup.opened s.trusting world) :=
    Setup.run_eq_ok approved
  obtain ⟨-, -, rfl⟩ := Setup.run_eq_ok allowed
  have ready : Run.Ready setup.team (setup.firstAgent s) (setup.opened s.trusting world) :=
    setup.ready_opened (s := s.trusting) idle found world
  -- The run asks no more with a higher limit, so it does not end for want of turns.
  have enough : Run.Enough setup setup.config.maxIterations (setup.opened s.trusting world) :=
    ready.enough _ ((setup.asked_allowing _ _).trans (needs.trans (Nat.le_add_left _ _)))
  have room : Run.Room setup true setup.config.maxIterations setup.config.maxIterations :=
    ⟨Nat.le_refl _, fun _ => rfl, fun _ => Nat.le_refl _⟩
  have matched : Run.Matches setup true [] []
      (Run.work setup none (setup.opened s.trusting world))
      (Run.work (setup.atTime (clock 0)) none ((setup.atTime (clock 0)).opened s world)) :=
    Run.loop_matches _ room (setup.twin_opened (clock 0) unset world)
      (fun _ => (setup.atTime (clock 0)).ready_opened idle found world) fun _ => enough
  have ended : r.Ended := by
    rw [same]
    exact Run.drive_ended setup none rfl idle
  have free : r.session.pending = none := by
    have ends := Run.finish_summarises setup (Run.quiet_followUp setup)
      (Run.work setup none (setup.opened s.trusting world)).2
      (Run.work setup none (setup.opened s.trusting world)).1
    rw [same]
    exact ends.pending.trans matched.idle
  have plain := ended.not_elicitation free
  rw [same] at plain
  obtain ⟨later, accepted, joined⟩ := matched.joined plain (clock 0) fun i => clock (i + 1)
  have started : (setup.atTime (clock 0)).run s .never world = .ok _ :=
    (setup.atTime (clock 0)).run_of_idle idle found world
  refine ⟨_, started, ⟨later, accepted⟩, ?_⟩
  intro later' accepted'
  obtain rfl := accepted.unique accepted'
  have begun := Setup.run_items_prefix started
  rw [same] at kept ⊢
  exact joined.sameWork kept fun last ends => begun.trans (accepted.items_prefix ends)

/-- The model makes two calls that need consent, and then gives no reply. Two requests are allowed. -/
def Sample.careful : Occasion Model.Playback :=
  { occasion [] with
    config := { maxIterations := 2 }
    world := { turns := [
      .ok [.item (.ok (.callStart "1" "touch")) false, .item (.ok (.callStart "2" "touch")) false],
      .error (.requestFailed "overloaded")] } }

/-- The user is asked twice. -/
theorem approval_transparent_sample :
    let setup := Sample.careful.setup Sample.team
    ∃ r first later last, setup.run Sample.session.trusting .never Sample.careful.world = .ok r ∧
      setup.run Sample.session .never Sample.careful.world = .ok first ∧
      first.session.pending = some ⟨"root", [Sample.call "1", Sample.call "2"]⟩ ∧
      Accepted setup (fun _ => Sample.noon) first later ∧
      SameWork Sample.session r (first :: later) last := by
  intro setup
  let ample := Run.drive (setup.allowing 3) (Run.followUp (setup.allowing 3)) none
    ((setup.allowing 3).opened Sample.session.trusting Sample.careful.world)
  have allowed : (setup.allowing (setup.config.maxIterations + 1)).run Sample.session.trusting
      .never Sample.careful.world = .ok ample := rfl
  have asked : askedIn ample.journal = ["root", "root"] := rfl
  have needs : (askedIn ample.journal).length ≤ setup.config.maxIterations := by
    rw [asked]
    decide
  obtain ⟨first, ran, ⟨later, accepted⟩, same⟩ :=
    approval_transparent setup (s := Sample.session) rfl Sample.careful.world rfl allowed needs
      fun _ => Sample.noon
  obtain ⟨last, together⟩ := same later accepted
  have asks : setup.run Sample.session .never Sample.careful.world = .ok _ := rfl
  have waits := congrArg (·.session.pending) (Except.ok.inj (asks.symm.trans ran))
  exact ⟨_, first, later, last, rfl, ran, waits.symm.trans rfl, accepted, together⟩

end Ensemble
