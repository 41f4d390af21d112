import Ensemble.Proofs.Billing
import Ensemble.Proofs.Handoffs

/-!
# The path of the switches

A driver holds the agent it asks next, its session the active agent, a suspended session the agent
that made the calls, and a turn its caller. All four follow from the switches that were reported:
the agent that comes next is where the last of them led (`destination`), and whoever hands over is
the agent that was asked last. So a switch starts where the one before it led, if an agent was asked
in between. The transfers of a single turn all start from its caller.

The run that looks for suggestions has a session of its own and is not covered here.
-/

namespace Ensemble

variable {σ : Type}

/-- Where switches led in the end, if there were any. -/
def lastTarget (switches : List (String × String)) : Option String := switches.getLast?.map Prod.snd

def destination (start : String) (switches : List (String × String)) : String :=
  (lastTarget switches).getD start

@[simp] theorem lastTarget_nil : lastTarget [] = none := rfl

@[simp] theorem destination_nil (start : String) : destination start [] = start := rfl

theorem lastTarget_append (switches more : List (String × String)) :
    lastTarget (switches ++ more) = (lastTarget more).or (lastTarget switches) := by
  cases more using List.reverseRecOn with
  | nil => simp
  | append_singleton more last => simp [lastTarget, ← List.append_assoc]

theorem destination_append (start : String) (switches more : List (String × String)) :
    destination start (switches ++ more) = destination (destination start switches) more := by
  rw [destination, lastTarget_append, destination, destination]
  cases lastTarget more <;> rfl

theorem destination_cons (start source target : String) (rest : List (String × String)) :
    destination start ((source, target) :: rest) = destination target rest :=
  destination_append start [(source, target)] rest

theorem switchesIn_cons_switch {t : Team σ} {entry : Activity} {switch : String × String}
    (h : entry.switch? t = some switch) (j : List Activity) :
    switchesIn t (entry :: j) = switch :: switchesIn t j := List.filterMap_cons_some h

theorem switchesIn_cons_still {t : Team σ} {entry : Activity} (h : entry.Still t)
    (j : List Activity) : switchesIn t (entry :: j) = switchesIn t j :=
  List.filterMap_cons_none h.switch

theorem askedIn_cons_still {t : Team σ} {entry : Activity} (h : entry.Still t)
    (j : List Activity) : askedIn (entry :: j) = askedIn j := List.filterMap_cons_none h.asked

/-! ## The path in a journal -/

/-- From `start`, everyone who was asked is where the switches before led, and everyone who handed
over is the agent that was asked last. -/
structure Path (t : Team σ) (start : String) (j : List Activity) : Prop where
  asked : ∀ front agent request back, j = front ++ .asked agent request :: back →
    agent = destination start (switchesIn t front)
  first : ∀ front entry back source target, j = front ++ entry :: back →
    entry.switch? t = some (source, target) → switchesIn t front = [] → source = start
  /-- Between two switches that follow each other an agent was asked, or they are of one turn. -/
  onward : ∀ front one middle other back source target source' target',
    j = front ++ one :: (middle ++ other :: back) → one.switch? t = some (source, target) →
    other.switch? t = some (source', target') → switchesIn t middle = [] →
      source' = if askedIn middle = [] then source else target

namespace Course

variable {t : Team σ} {last last' : Option String} {next next' agent source target : String}
  {request : Model.Request} {entry : Activity} {j : List Activity}

theorem next_eq (h : Course t last next j last' next') :
    next' = destination next (switchesIn t j) := by
  induction h with
  | nil => rfl
  | asked _ ih => exact ih
  | switched switch _ ih => rw [ih, switchesIn_cons_switch switch, destination_cons]
  | still still _ ih => rw [ih, switchesIn_cons_still still]

/-- Without a switch the agent asked last is the next one, as soon as any is asked. -/
theorem last_eq (h : Course t last next j last' next') (quiet : switchesIn t j = []) :
    last' = if askedIn j = [] then last else some next := by
  induction h with
  | nil => rfl
  | @asked last last' next next' request rest _ ih =>
    have rested : last' = if askedIn rest = [] then some next else some next := ih quiet
    simpa [askedIn, Activity.asked?] using rested
  | switched switch _ ih =>
    rw [switchesIn_cons_switch switch] at quiet
    cases quiet
  | still still _ ih =>
    rw [switchesIn_cons_still still] at quiet
    rw [askedIn_cons_still still]
    exact ih quiet

theorem asked_eq (h : Course t last next (.asked agent request :: j) last' next') :
    agent = next := by
  cases h with
  | asked => rfl
  | switched switch => cases switch
  | still still => cases still.asked

theorem source_eq (h : Course t last next (entry :: j) last' next')
    (switch : entry.switch? t = some (source, target)) :
    last = some source ∧ Course t (some source) target j last' next' := by
  cases h with
  | asked => cases switch
  | switched same rest =>
    cases same.symm.trans switch
    exact ⟨rfl, rest⟩
  | still still => cases still.switch.symm.trans switch

theorem path {start : String} (h : Course t none start j last' next') : Path t start j := by
  constructor
  · rintro front agent request back rfl
    obtain ⟨last₁, next₁, before, rest⟩ := h.split
    exact rest.asked_eq.trans before.next_eq
  · rintro front entry back source target rfl switch quiet
    obtain ⟨last₁, next₁, before, rest⟩ := h.split
    have made := (before.last_eq quiet).symm.trans (rest.source_eq switch).1
    split at made
    · cases made
    · exact (Option.some.inj made).symm
  · rintro front one middle other back source target source' target' rfl switch switch' quiet
    obtain ⟨last₁, next₁, -, rest⟩ := h.split
    obtain ⟨last₂, next₂, between, rest⟩ := (rest.source_eq switch).2.split
    have made := (between.last_eq quiet).symm.trans (rest.source_eq switch').1
    rw [← apply_ite some] at made
    exact (Option.some.inj made).symm

end Course

/-! ## The active agent -/

namespace Run

variable {setup : Setup σ} {r r' r'' : Run σ}

/-- What is reported between two states tells who is active at the second one. -/
def Shows (r r' : Run σ) : Prop :=
  ∃ more, r'.events = r.events ++ more ∧
    r'.session.activeAgent = (lastTarget (switchEvents more)).or r.session.activeAgent

namespace Shows

theorem refl (r : Run σ) : Shows r r := ⟨[], by simp, rfl⟩

theorem trans (h : Shows r r') (h' : Shows r' r'') : Shows r r'' := by
  obtain ⟨more, events, active⟩ := h
  obtain ⟨more', events', active'⟩ := h'
  refine ⟨more ++ more', by rw [events', events, List.append_assoc], ?_⟩
  rw [active', active, switchEvents_append, lastTarget_append, Option.or_assoc]

theorem of_quietly (setup : Setup σ) (q : Quietly setup r r') : Shows r r' := by
  obtain ⟨more, events, silent⟩ := q.events
  refine ⟨more, events, ?_⟩
  rw [show switchEvents more = [] from List.filterMap_eq_nil_iff.mpr silent, q.active]
  rfl

theorem send (r : Run σ) (request : Model.Request) (world : σ) :
    Shows r (r.look.look.send request world) := ⟨[], by simp [Run.send, note, Run.look], rfl⟩

theorem handoff (r : Run σ) (caller : String) (call : ToolCall) :
    Shows r (r.handoff setup caller call) := by
  cases transfers : transfer? setup.team caller call with
  | none =>
    exact of_quietly setup (.of_failed transfers r)
  | some args =>
    rw [handoff_of_transfer? transfers r]
    exact ⟨[.resultOf caller call (transferredText args.agent) false,
      .agentSwitched caller args.agent], by simp [switchTo, recordResult, emit, say, note], rfl⟩

theorem suspend (r : Run σ) (caller : String) (call : ToolCall) (rest : List ToolCall) :
    Shows r (r.suspend caller call rest) :=
  ⟨[.elicitationRequest caller (consentText caller call.name) call], rfl, rfl⟩

end Shows

theorem Step.shows {x y : Stage × Run σ} (h : Step setup x y) : Shows x.2 y.2 := by
  have looked (r : Run σ) : Quietly setup r r.look := .look r
  cases h with
  | idle | finished => exact .refl _
  | @accepted left caller call rest answer r yes =>
    exact .of_quietly setup ((Quietly.approve r answer).trans (.execute _ caller call true))
  | declined => exact .of_quietly setup (.recordResult _ ⟨rfl, rfl⟩ _ _)
  | abandoned => exact .of_quietly setup (.recordCancelled _ _ _)
  | stopped | exhausted | lost => exact .of_quietly setup (looked _)
  | withdrawn => exact .of_quietly setup ((looked _).trans (looked _))
  | refused => exact .send _ _ _
  | interrupted =>
    exact (Shows.send _ _ _).trans
      (.of_quietly setup ((Quietly.takeIn _ _).trans (.recordInterrupted _ _ _)))
  | answered | called =>
    exact (Shows.send _ _ _).trans
      (.of_quietly setup ((Quietly.takeIn _ _).trans (.recordTurn _ _ _)))
  | dropped => exact .of_quietly setup ((looked _).trans (.recordCancelled _ _ _))
  | transferred => exact (Shows.of_quietly setup (.announce _ _ _)).trans (.handoff _ _ _)
  | unknown | denied =>
    exact .of_quietly setup ((Quietly.announce _ _ _).trans (.recordResult _ ⟨rfl, rfl⟩ _ _))
  | suspended =>
    exact (Shows.of_quietly setup (.announce _ _ _)).trans (.suspend _ _ _ _)
  | executed =>
    exact .of_quietly setup ((Quietly.announce _ _ _).trans (.execute _ _ _ _))

theorem drive_shows (setup : Setup σ) (resumed : Option (Session.Pending × Answer)) (r : Run σ) :
    Shows r (drive setup (followUp setup) resumed r) := by
  have worked : Shows r (work setup resumed r).1 := (work_steps setup resumed r).keep
    (P := fun x => Shows r x.2) (fun step before => before.trans step.shows) (.refl r)
  exact worked.trans (.of_quietly setup (.finish setup _ _))

end Run

/-! ## The agent of `done` -/

/-- From `start`, every `done` names the agent that the switches before it led to. -/
def NamesLast (start : String) (events : List Event) : Prop :=
  ∀ front agent reason usage cost back, events = front ++ .done agent reason usage cost :: back →
    agent = destination start (switchEvents front)

namespace NamesLast

variable {start : String} {events more : List Event}

theorem nil (start : String) : NamesLast start [] := by
  intro front agent reason usage cost back split
  simp at split

theorem append (h : NamesLast start events)
    (h' : NamesLast (destination start (switchEvents events)) more) :
    NamesLast start (events ++ more) := by
  intro front agent reason usage cost back split
  rcases List.append_eq_append_iff.mp split with ⟨rest, rfl, after⟩ | ⟨rest, before, after⟩
  · rw [switchEvents_append, destination_append]
    exact h' rest agent reason usage cost back after
  · cases rest with
    | nil =>
      rw [List.append_nil] at before
      rw [before] at h'
      exact h' [] agent reason usage cost back after.symm
    | cons e rest =>
      cases after
      exact h front agent reason usage cost rest before

end NamesLast

theorem Run.Follows.namesLast {setup : Setup σ} {resumed : Option (Session.Pending × Answer)}
    {last : Option String} {next : String} {r : Run σ}
    (h : Follows setup last next last (opening setup resumed, r)) (new : r.events = [])
    (idle : r.session.pending = none) :
    NamesLast next (drive setup (followUp setup) resumed r).events := by
  obtain ⟨last', course, -, told⟩ := drive_follows setup resumed h
  obtain ⟨before, final, events, -, plain⟩ := (drive_ended setup resumed new idle).terminal
  intro front agent reason usage cost back split
  have reported : .done agent reason usage cost =
      (drive setup (followUp setup) resumed r).doneEvent reason :=
    drive_done setup resumed new idle (by simp [split])
  have atEnd :
      switchEvents front = switchEvents (drive setup (followUp setup) resumed r).events := by
    rw [events] at split ⊢
    rcases List.eq_nil_or_concat back with rfl | ⟨rest, e, rfl⟩
    · obtain ⟨rfl, ends⟩ := List.append_inj' split rfl
      cases ends
      simp [switchEvents, Event.switch?]
    · rw [List.concat_eq_append, ← List.cons_append, ← List.append_assoc] at split
      obtain ⟨rfl, -⟩ := List.append_inj' split rfl
      cases plain (.done agent reason usage cost) (by simp)
  calc agent = (drive setup (followUp setup) resumed r).agent := by cases reported; rfl
    _ = destination next (switchEvents front) := by rw [course.next_eq, ← told, atEnd]

namespace Team

variable {t : Team σ} {last : Option String} {next : String} {s : Session}

theorem play_leads (h : Placed t last next s) (m : Move σ) :
    NamesLast next (t.play s m).events ∧ (t.play s m).session.activeAgent =
      (lastTarget (switchEvents (t.play s m).events)).or s.activeAgent := by
  rcases play_opens h m with idles | ⟨on, resumed, r, opened, new, idle, same, played⟩
  · rw [idles.silent]
    exact ⟨.nil next, idles.active⟩
  · obtain ⟨more, events, active⟩ := Run.drive_shows (on.setup t) resumed r
    rw [new, List.nil_append] at events
    rw [played, ← same]
    refine ⟨opened.namesLast new idle, ?_⟩
    rw [Played.ofRun, events]
    exact active

theorem events_lead (moves : List (Move σ)) (h : Placed t last next s) :
    NamesLast next (t.events s moves) ∧ (t.after s moves).activeAgent =
      (lastTarget (switchEvents (t.events s moves))).or s.activeAgent := by
  induction moves generalizing s last next with
  | nil => exact ⟨.nil next, rfl⟩
  | cons m rest ih =>
    obtain ⟨last', next', course, placed, told⟩ := play_course m h
    obtain ⟨names, active⟩ := play_leads h m
    obtain ⟨namesLater, activeLater⟩ := ih placed
    rw [course.next_eq, ← told] at namesLater
    refine ⟨names.append namesLater, ?_⟩
    rw [after_cons, activeLater, active, events, switchEvents_append, lastTarget_append,
      Option.or_assoc]

end Team

/-- Switches form a path, as far as the transfers of a turn allow: all of those start from its
caller. The path begins where the session stands, and where it led is who is asked next, who `done`
names, and the active agent. -/
theorem switches_lead_on (t : Team σ) {s : Session} (idle : s.pending = none)
    (moves : List (Move σ)) :
    let start := s.activeAgent.getD t.root.name
    let switches := switchEvents (t.events s moves)
    switches = switchesIn t (t.journal s moves) ∧ Path t start (t.journal s moves) ∧
      NamesLast start (t.events s moves) ∧
      (t.after s moves).activeAgent = (lastTarget switches).or s.activeAgent := by
  have placed : Placed t none (s.activeAgent.getD t.root.name) s :=
    ⟨rfl, by rintro - agent ⟨⟩, by rw [idle]; rintro p ⟨⟩⟩
  obtain ⟨⟨last, next, course⟩, told⟩ := Team.journal_course moves placed
  obtain ⟨names, active⟩ := Team.events_lead moves placed
  exact ⟨told, course.path, names, active⟩

/-! ## A sample

The root hands over to two agents in one turn. -/

namespace Run

variable {setup : Setup σ} {r r₁ r₂ : Run σ}

theorem processCalls_transfer (setup : Setup σ) {r : Run σ} {caller : String} {call : ToolCall}
    {args : Handoff.Arguments} (going : r.look.cancel.requested = false)
    (named : call.name = Handoff.toolName) (h : transfer? setup.team caller call = some args)
    (rest : List ToolCall) :
    processCalls setup caller (call :: rest) r = processCalls setup caller rest
      (((r.look.announce caller call).recordResult setup caller call .transfer
        (transferredText args.agent) false).switchTo setup caller args) := by
  rw [processCalls, going, if_neg Bool.false_ne_true, if_pos named, handoff_of_transfer? h]

theorem loop_turn {left : Nat} {turn : Turn} (going : r.look.cancel.requested = false)
    (asked : callModel setup r.look = (r₁, .ok turn)) (made : turn.calls ≠ [])
    (handled : processCalls setup r₁.agent turn.calls r₁ = (r₂, .goOn)) :
    loop setup (left + 1) r = loop setup left r₂ := by
  obtain ⟨calls, reason⟩ := turn
  cases calls with
  | nil => exact (made rfl).elim
  | cons call rest => simp only [loop, going, asked, handled, Bool.false_eq_true, if_false]

end Run

theorem transfer?_of_read {t : Team σ} {caller target : String} {call : ToolCall}
    (given : Text.isBlankText call.arguments = false)
    (read : call.readArguments = .ok (.object [("agent", .text target), ("task", .text "help")]))
    (valid : target ∈ (t.handoffTargets caller).map (·.name)) :
    transfer? t caller call = some ⟨target, "help", ""⟩ := by
  have decoded : Run.transferArguments call = .ok ⟨target, "help", ""⟩ := by
    rw [Run.transferArguments, ToolCall.parseArguments, given, read]
    rfl
  rw [transfer?, decoded]
  exact if_pos valid

namespace Sample

open Run

def trio : Team Model.Playback where
  agents := [member "root" ["helper", "other"], member "helper" [], member "other" []]
  root := member "root" ["helper", "other"]
  distinct := by simp [member]
  known := by simp [member]
  root_mem := .head _

def otherText : String := "\x7b\"agent\":\"other\",\"task\":\"help\"\x7d"

def transferTo (id arguments : String) : ToolCall := ⟨id, "transfer_task", "" ++ arguments⟩

theorem trio_targets : (trio.handoffTargets "root").map (·.name) = ["helper", "other"] := by cbv

theorem transfers_first :
    transfer? trio "root" (transferTo "1" helpText) = some ⟨"helper", "help", ""⟩ := by
  apply transfer?_of_read
  · cbv
  · unfold ToolCall.readArguments transferTo
    cbv
  · simp [trio_targets]

theorem transfers_second :
    transfer? trio "root" (transferTo "2" otherText) = some ⟨"other", "help", ""⟩ := by
  apply transfer?_of_read
  · cbv
  · unfold ToolCall.readArguments transferTo
    cbv
  · simp [trio_targets]

def twice : Occasion Model.Playback :=
  { occasion [[.callStart "1" "transfer_task", .callDelta "1" helpText,
      .callStart "2" "transfer_task", .callDelta "2" otherText]] with
    config := { maxIterations := 1, compaction := { enabled := false } } }

def twiceBegun : Run Model.Playback :=
  { session, agent := "root", cancel := .never, world := twice.world }

def twiceReplied : Run Model.Playback := (callModel (twice.setup trio) twiceBegun.look).1

def handed (r : Run Model.Playback) (call : ToolCall) (target : String) : Run Model.Playback :=
  ((r.look.announce "root" call).recordResult (twice.setup trio) "root" call .transfer
    (transferredText target) false).switchTo (twice.setup trio) "root" ⟨target, "help", ""⟩

def twiceOnce : Run Model.Playback := handed twiceReplied (transferTo "1" helpText) "helper"

def twiceHanded : Run Model.Playback := handed twiceOnce (transferTo "2" otherText) "other"

theorem twice_handled :
    processCalls (twice.setup trio) "root" [transferTo "1" helpText, transferTo "2" otherText]
      twiceReplied = (twiceHanded, .goOn) := by
  have first : processCalls (twice.setup trio) "root"
      [transferTo "1" helpText, transferTo "2" otherText] twiceReplied =
        processCalls (twice.setup trio) "root" [transferTo "2" otherText] twiceOnce :=
    processCalls_transfer (twice.setup trio) (r := twiceReplied) rfl rfl transfers_first _
  have second : processCalls (twice.setup trio) "root" [transferTo "2" otherText] twiceOnce =
      (twiceHanded, .goOn) :=
    processCalls_transfer (twice.setup trio) (r := twiceOnce) rfl rfl transfers_second _
  exact first.trans second

theorem twice_played : trio.play session (.run twice) =
    .ofRun (finish (twice.setup trio) (followUp (twice.setup trio)) (.done "max_iterations")
      twiceHanded.look) := by
  have asked : callModel (twice.setup trio) twiceBegun.look =
      (twiceReplied, .ok ⟨[transferTo "1" helpText, transferTo "2" otherText], "tool_use"⟩) := rfl
  have worked : loop (twice.setup trio) 1 twiceBegun = loop (twice.setup trio) 0 twiceHanded :=
    loop_turn rfl asked (by simp) twice_handled
  have step : trio.play session (.run twice) =
      .ofRun (let ended := loop (twice.setup trio) 1 twiceBegun
        finish (twice.setup trio) (followUp (twice.setup trio)) ended.2 ended.1) := rfl
  rw [step, worked]
  rfl

theorem twice_switches :
    switchEvents (trio.events session [.run twice]) = [("root", "helper"), ("root", "other")] := by
  rw [Team.events, twice_played, Team.events, List.append_nil]
  rfl

end Sample

inductive Chained : String → List (String × String) → Prop where
  | nil (here : String) : Chained here []
  | cons {here target : String} {rest : List (String × String)} (h : Chained target rest) :
      Chained here ((here, target) :: rest)

theorem Chained.of_cons {here source target : String} {rest : List (String × String)}
    (h : Chained here ((source, target) :: rest)) : source = here ∧ Chained target rest := by
  cases h with
  | cons onward => exact ⟨rfl, onward⟩

/-- The second transfer of a turn is reported from the caller of the turn, not from the agent that
the first one handed over to. -/
theorem switches_not_chained :
    ¬ ∀ (t : Team Model.Playback) (s : Session) (moves : List (Move Model.Playback)),
      s.pending = none →
        Chained (s.activeAgent.getD t.root.name) (switchEvents (t.events s moves)) := by
  intro chained
  have path := chained Sample.trio Sample.session [.run Sample.twice] rfl
  rw [Sample.twice_switches] at path
  have onward : "root" = "helper" := path.of_cons.2.of_cons.1
  exact absurd onward (by decide)

/-- Nobody was asked between the transfers, so both start from the root, and the second target is
the one that is active in the end. -/
theorem switches_lead_on_sample :
    let moves : List (Move Model.Playback) := [.run Sample.twice]
    Sample.session.pending = none ∧
      Path Sample.trio "root" (Sample.trio.journal Sample.session moves) ∧
      NamesLast "root" (Sample.trio.events Sample.session moves) ∧
      switchesIn Sample.trio (Sample.trio.journal Sample.session moves) =
        [("root", "helper"), ("root", "other")] ∧
      (Sample.trio.after Sample.session moves).activeAgent = some "other" := by
  have idle : Sample.session.pending = none := rfl
  obtain ⟨told, path, names, active⟩ :=
    switches_lead_on Sample.trio idle [.run Sample.twice]
  rw [Sample.twice_switches] at told active
  exact ⟨idle, path, names, told.symm, active⟩

end Ensemble
