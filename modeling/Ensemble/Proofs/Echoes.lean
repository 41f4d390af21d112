import Ensemble.Proofs.Passages

/-!
# Events and transcript

Since all that a run does comes in passages, what can be heard in its events can be read in its
transcript as well (`Agreement`): results, transfers and summaries, in the same order and with the
same texts. So whoever only listens knows what was added (`Run.Echoes`).

Calls are announced in the order in which they were issued, and each at most once, also when a
suspended turn is taken up by a later run (`Team.events_started`).
-/

namespace Ensemble

open Time (Timestamp)

/-- What a listener and a reader make of the same passages, where replies and remarks say nothing
to either. -/
structure Agreement {α : Type} (now : Timestamp) (f : Event → Option α)
    (g : Session.Item → Option α) : Prop where
  piece : ∀ agent text, f (.tokenDelta agent text) = none
  started : ∀ caller call, f (.toolCallStarted caller call) = none
  remark : ∀ e : Event, e.isRemark = true → f e = none
  reply : ∀ m : Authored, m.message.role = .assistant → g (.message m) = none
  result : ∀ caller call content isError, f (.resultOf caller call content isError) =
    g (.message ⟨caller, .toolResult call.id content, now⟩)
  switched : ∀ source target briefing, f (.agentSwitched source target) =
    g (.message ⟨target, .user briefing, now⟩)
  compacted : ∀ agent text, f (.sessionCompacted agent text) = g (.summary text now)

namespace Agreement

variable {α : Type} {now : Timestamp} {f : Event → Option α} {g : Session.Item → Option α}

theorem passage (h : Agreement now f g) (p : Passage) :
    (p.trace now).events.filterMap f = (p.trace now).items.filterMap g := by
  have silent (agent : String) (pieces : List String) :
      (pieces.map (Event.tokenDelta agent)).filterMap f = [] := by
    simp [h.piece]
  cases p with
  | answered agent request pieces calls bill =>
    have role : ((Message.assistant (String.join pieces) calls).billed bill).role = .assistant := by
      cases bill <;> rfl
    have hidden := h.reply
      ⟨agent, (Message.assistant (String.join pieces) calls).billed bill, now⟩ role
    simp [Passage.trace, silent, hidden]
  | interrupted agent request pieces =>
    have hidden := h.reply ⟨agent, .assistant (String.join pieces), now⟩ rfl
    have cancellation := h.remark .cancelled rfl
    by_cases text : String.join pieces = "" <;>
      simp [Passage.trace, silent, hidden, text, cancellation]
  | failed agent request pieces message =>
    have failure := h.remark (.error message) rfl
    simp [Passage.trace, silent, failure]
  | started caller call => simp [Passage.trace, h.started]
  | settled caller call how content isError =>
    simp only [Passage.trace, List.filterMap_cons, h.result]
    rfl
  | switched source target briefing =>
    simp only [Passage.trace, List.filterMap_cons, h.switched source target briefing]
    rfl
  | compacted agent request usage text =>
    simp only [Passage.trace, List.filterMap_cons, h.compacted agent text]
    rfl
  | uncompacted => rfl
  | remarked e remark => simp [Passage.trace, h.remark e remark]

theorem passages (h : Agreement now f g) (ps : List Passage) :
    (Passage.traces now ps).events.filterMap f = (Passage.traces now ps).items.filterMap g := by
  induction ps with
  | nil => rfl
  | cons p ps ih =>
    simp only [Passage.traces_cons, Trace.events_append, Trace.items_append, List.filterMap_append,
      ih, h.passage p]

end Agreement

/-- Who made the call, its identifier and the result. -/
def Event.result? : Event → Option (String × Option String × String)
  | .toolCallResult agent id _ content _ => some (agent, some id, content)
  | _ => none

def Event.successor? (e : Event) : Option String := e.switch?.map Prod.snd

def Event.compacted? : Event → Option String
  | .sessionCompacted _ text => some text
  | _ => none

namespace Session.Item

def result? : Item → Option (String × Option String × String)
  | .message m =>
    if m.message.role = .tool then some (m.author, m.message.toolCallId, m.message.content)
    else none
  | .summary .. => none

def briefed? : Item → Option String
  | .message m => if m.message.role = .user then some m.author else none
  | .summary .. => none

def summary? : Item → Option String
  | .message _ => none
  | .summary text _ => some text

end Session.Item

theorem Event.isRemark_cases {P : Event → Prop} {e : Event} (h : e.isRemark = true)
    (elicitation : ∀ agent message call, P (.elicitationRequest agent message call))
    (suggestions : ∀ agent texts, P (.followUpSuggestions agent texts))
    (error : ∀ message, P (.error message)) (cancelled : P .cancelled)
    (done : ∀ agent reason usage cost, P (.done agent reason usage cost)) : P e := by
  cases e with
  | elicitationRequest => exact elicitation _ _ _
  | followUpSuggestions => exact suggestions _ _
  | error => exact error _
  | cancelled => exact cancelled
  | done => exact done _ _ _ _
  | tokenDelta | toolCallStarted | toolCallResult | agentSwitched | sessionCompacted => cases h

theorem agreement_results (now : Timestamp) :
    Agreement now Event.result? Session.Item.result? where
  piece _ _ := rfl
  started _ _ := rfl
  remark e h := by
    apply Event.isRemark_cases h <;> intros <;> rfl
  reply m role := by simp [Session.Item.result?, role]
  result _ _ _ _ := rfl
  switched _ _ _ := rfl
  compacted _ _ := rfl

theorem agreement_switches (now : Timestamp) :
    Agreement now Event.successor? Session.Item.briefed? where
  piece _ _ := rfl
  started _ _ := rfl
  remark e h := by
    apply Event.isRemark_cases h <;> intros <;> rfl
  reply m role := by simp [Session.Item.briefed?, role]
  result _ _ _ _ := rfl
  switched _ _ _ := rfl
  compacted _ _ := rfl

theorem agreement_summaries (now : Timestamp) :
    Agreement now Event.compacted? Session.Item.summary? where
  piece _ _ := rfl
  started _ _ := rfl
  remark e h := by
    apply Event.isRemark_cases h <;> intros <;> rfl
  reply _ _ := rfl
  result _ _ _ _ := rfl
  switched _ _ _ := rfl
  compacted _ _ := rfl

namespace Run

variable {σ : Type} {setup : Setup σ}

def added (s : Session) (r : Run σ) : List Session.Item := r.session.items.drop s.items.length

/-- What a listener has heard of a run on `s` is what a reader finds added to `s`. -/
structure Echoes (setup : Setup σ) (s : Session) (r : Run σ) : Prop where
  told : ∃ ps : List Passage, r.trace = { items := s.items } ++ Passage.traces setup.now ps
  results : r.events.filterMap Event.result? = (r.added s).filterMap Session.Item.result?
  switches : r.events.filterMap Event.successor? = (r.added s).filterMap Session.Item.briefed?
  summaries : r.events.filterMap Event.compacted? = (r.added s).filterMap Session.Item.summary?

theorem Echoes.of_told {s : Session} {r : Run σ} {ps : List Passage}
    (told : r.trace = { items := s.items } ++ Passage.traces setup.now ps) : Echoes setup s r := by
  have events : r.events = (Passage.traces setup.now ps).events := congrArg Trace.events told
  have items : r.session.items = s.items ++ (Passage.traces setup.now ps).items :=
    congrArg Trace.items told
  have added : r.added s = (Passage.traces setup.now ps).items := by
    rw [Run.added, items, List.drop_left]
  refine ⟨⟨ps, told⟩, ?_, ?_, ?_⟩ <;> rw [events, added]
  · exact (agreement_results setup.now).passages ps
  · exact (agreement_switches setup.now).passages ps
  · exact (agreement_summaries setup.now).passages ps

theorem drive_echoes {s : Session} {resumed : Option (Session.Pending × Answer)} {r : Run σ}
    (begun : r.trace = { items := s.items }) (idle : r.session.pending = none) :
    Echoes setup s (drive setup (followUp setup) resumed r) := by
  have new : r.events = [] := congrArg Trace.events begun
  obtain ⟨ps, told, -⟩ := drive_told setup resumed new idle
  rw [Told, begun] at told
  exact .of_told told

end Run

variable {σ : Type}

theorem Run.drive_started (setup : Setup σ) (resumed : Option (Session.Pending × Answer))
    {r : Run σ} (events : r.events = []) (journal : r.journal = [])
    (idle : r.session.pending = none) :
    (startedIn (drive setup (followUp setup) resumed r).events ++
        (drive setup (followUp setup) resumed r).session.outstanding.tail).Sublist
      (unstarted (opening setup resumed, r) ++
        issuedIn (drive setup (followUp setup) resumed r).journal) := by
  obtain ⟨ps, told, calls⟩ := drive_told setup resumed events idle
  have said := congrArg Trace.events told
  have done := congrArg Trace.journal told
  simp only [trace, Trace.events_append, Trace.journal_append, events, journal,
    List.nil_append] at said done
  rwa [said, done]

namespace Team

theorem play_started (t : Team σ) (s : Session) (m : Move σ) :
    (startedIn (t.play s m).events ++ (t.play s m).session.outstanding.tail).Sublist
      (s.outstanding.tail ++ issuedIn (t.play s m).journal) := by
  cases m with
  | say text now => exact List.sublist_append_left _ _
  | run on =>
    simp only [play]
    split
    · rename_i r ran
      obtain ⟨idle, -, rfl⟩ := Setup.run_eq_ok ran
      rw [Session.outstanding_of_none idle]
      exact Run.drive_started (on.setup t) none rfl rfl idle
    · exact List.sublist_append_left _ _
  | resume on answer =>
    simp only [play]
    split
    · rename_i r resumed
      obtain ⟨pending, waits, rfl⟩ := Setup.resume_eq_ok resumed
      rw [Session.outstanding_of_some waits, ← List.map_tail]
      exact Run.drive_started (on.setup t) (some (pending, answer)) rfl rfl rfl
    · exact List.sublist_append_left _ _
  | summarize on agent =>
    have same := ((on.setup t).summarize_summarises s agent on.cancel on.world []).pending
    simp only [play, Session.outstanding_congr same]
    exact List.sublist_append_left _ _

/-- Over any moves, calls are announced in the order in which they were issued, and none twice.
Of the calls that the session is suspended on, the first was announced before. -/
theorem events_started (t : Team σ) (s : Session) (moves : List (Move σ)) :
    (startedIn (t.events s moves) ++ (t.after s moves).outstanding.tail).Sublist
      (s.outstanding.tail ++ issuedIn (t.journal s moves)) := by
  induction moves generalizing s with
  | nil => exact List.sublist_append_left _ _
  | cons m rest ih =>
    have first := (t.play_started s m).append_right (issuedIn (t.journal (t.play s m).session rest))
    have later := (ih (t.play s m).session).append_left (startedIn (t.play s m).events)
    simp only [events, journal, after_cons, startedIn_append, issuedIn_append, List.append_assoc]
      at first later ⊢
    exact later.trans first

end Team

/-- Whoever hears the events of a driver knows what was added to the transcript, and nothing else is
added. Over the whole life of a session no call is announced twice. -/
theorem events_echoed (σ : Type) :
    (∀ (setup : Setup σ) (s : Session) (c : Cancellation) (world : σ) (r : Run σ),
      (setup.run s c world = .ok r ∨ ∃ answer, setup.resume s answer c world = .ok r) →
        Run.Echoes setup s r) ∧
    ∀ (t : Team σ) (s : Session) (moves : List (Move σ)),
      (startedIn (t.events s moves)).Sublist
        (s.outstanding.tail ++ issuedIn (t.journal s moves)) := by
  constructor
  · intro setup s c world r started
    obtain ⟨resumed, agent, -, rfl⟩ := Setup.started_eq_ok started
    exact Run.drive_echoes rfl rfl
  · intro t s moves
    exact (List.sublist_append_left _ _).trans (t.events_started s moves)

/-- The user accepts the first of two calls and is asked about the second. -/
theorem events_echoed_sample :
    ∃ r, Sample.setup.resume (Sample.team.after Sample.session Sample.suspended) .accept .never
        ⟨[], []⟩ = .ok r ∧
      Run.Echoes Sample.setup (Sample.team.after Sample.session Sample.suspended) r ∧
      r.events.filterMap Event.result? = [("root", some "1", "touched")] :=
  ⟨_, rfl, (events_echoed Model.Playback).1 Sample.setup _ .never ⟨[], []⟩ _ (.inr ⟨.accept, rfl⟩),
    rfl⟩

end Ensemble
