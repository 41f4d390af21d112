import Ensemble.Proofs.Life

/-!
# How a driver ends

While a run works it reports pieces of text, calls, results and switches, and leaves its session
free (`Busy`); only the step that suspends it reports something else, which is then the last of its
events and what the session waits for (`Suspended`). The end of the run adds the rest: nothing to a
suspended one, and to the others one terminal event, which is `done` if a summary or suggestions
come before it.

When a driver ends at all is not covered here: the functions of the model are total.
-/

namespace Ensemble

/-- Reported while a run works. The other events belong to its end. -/
def Event.isWork : Event → Bool
  | .tokenDelta .. | .toolCallStarted .. | .toolCallResult .. | .agentSwitched .. => true
  | _ => false

theorem Event.not_terminal_of_isWork {e : Event} (h : e.isWork = true) : e.isTerminal = false := by
  cases e with
  | tokenDelta | toolCallStarted | toolCallResult | agentSwitched => rfl
  | _ => cases h

theorem Event.not_terminal_of_compacted {e : Event} (h : e.kind = "session_compacted") :
    e.isTerminal = false := by
  cases e <;> simp_all [Event.kind, Event.isTerminal]

theorem Event.not_terminal_of_suggested {e : Event} (h : e.kind = "follow_up_suggestions") :
    e.isTerminal = false := by
  cases e <;> simp_all [Event.kind, Event.isTerminal]

namespace Run

variable {σ : Type} {setup : Setup σ}

/-- The run has reported nothing but its work, and its session waits for nobody. -/
structure Busy (r : Run σ) : Prop where
  work : ∀ e ∈ r.events, e.isWork = true
  idle : r.session.pending = none

/-- The last of the events asks for consent to the first of the calls that the session keeps. -/
structure Suspended (r : Run σ) : Prop where
  asked : ∃ work caller call rest,
    r.events = work ++ [.elicitationRequest caller (consentText caller call.name) call] ∧
      (∀ e ∈ work, e.isWork = true) ∧ r.session.pending = some ⟨caller, call :: rest⟩

def Reports : Stage × Run σ → Prop
  | (.closed .suspended, r) => Suspended r
  | (_, r) => Busy r

namespace Busy

variable {r r' : Run σ}

theorem add (h : Busy r) (more : List Event) (events : r'.events = r.events ++ more)
    (work : ∀ e ∈ more, e.isWork = true) (pending : r'.session.pending = r.session.pending) :
    Busy r' := by
  constructor
  · intro e among
    rw [events] at among
    rcases List.mem_append.mp among with among | among
    · exact h.work e among
    · exact work e among
  · exact pending.trans h.idle

theorem same (h : Busy r) (events : r'.events = r.events)
    (pending : r'.session.pending = r.session.pending) : Busy r' :=
  h.add [] (by rw [events, List.append_nil]) (by simp) pending

theorem emit (h : Busy r) {e : Event} (work : e.isWork = true) : Busy (r.emit e) :=
  h.add [e] rfl (by simpa using work) rfl

theorem recordResult (h : Busy r) (caller : String) (call : ToolCall) (how : Settlement)
    (content : String) (isError : Bool) :
    Busy (r.recordResult setup caller call how content isError) :=
  h.add [.resultOf caller call content isError] rfl (by simp [Event.resultOf, Event.isWork]) rfl

theorem recordCancelled (h : Busy r) (caller : String) (queue : List ToolCall) :
    Busy (r.recordCancelled setup caller queue) := by
  induction queue generalizing r with
  | nil => exact h
  | cons call rest ih => exact ih (h.recordResult caller call .cancelled cancelledText true)

theorem execute (h : Busy r) (caller : String) (call : ToolCall) (accepted : Bool) :
    Busy (r.execute setup caller call accepted) := by
  obtain ⟨world, cancel, content, isError, same⟩ :=
    execute_eq_recordResult setup caller call r accepted
  rw [same]
  exact recordResult (r := { r with world, cancel }) ⟨h.work, h.idle⟩ _ _ _ _ _

theorem handoff (h : Busy r) (caller : String) (call : ToolCall) :
    Busy (r.handoff setup caller call) := by
  rcases handoff_cases setup caller call r with ⟨text, same⟩ | ⟨args, -, same⟩
  · rw [same]
    exact h.recordResult _ _ _ _ _
  · rw [same]
    have settled : Busy (r.recordResult setup caller call .transfer (transferredText args.agent)
      false) := h.recordResult _ _ _ _ _
    exact settled.add [.agentSwitched caller args.agent] rfl (by simp [Event.isWork]) rfl

theorem takeIn (h : Busy r) (i : Intake) : Busy (r.takeIn i) := by
  refine h.add (i.pieces.map (Event.tokenDelta r.agent)) rfl ?_ rfl
  intro e among
  obtain ⟨piece, -, rfl⟩ := List.mem_map.mp among
  rfl

theorem recordTurn (h : Busy r) (m : Model σ) (a : Assembly) : Busy (r.recordTurn setup m a) := by
  refine h.same ?_ (recordTurn_frame setup m a r).2.1
  unfold Run.recordTurn
  cases a.usage <;> rfl

theorem recordInterrupted (h : Busy r) (why : Interruption) (a : Assembly) :
    Busy (r.recordInterrupted setup why a) := by
  unfold Run.recordInterrupted
  split
  · exact h.same rfl rfl
  · exact h

theorem suspend (h : Busy r) (caller : String) (call : ToolCall) (rest : List ToolCall) :
    Suspended (r.suspend caller call rest) :=
  ⟨r.events, caller, call, rest, rfl, h.work, rfl⟩

end Busy

/-- The steps of a suspended run are over, so a step starts from a busy one. -/
theorem Step.reports {x y : Stage × Run σ} (h : Step setup x y) (hx : Reports x) : Reports y := by
  have announced {r : Run σ} (busy : Busy r) (caller : String) (call : ToolCall) :
      Busy (r.look.announce caller call) := by
    have looked : Busy r.look := busy.same rfl rfl
    exact looked.emit rfl
  have sent {r : Run σ} (busy : Busy r) (request : Model.Request) (world : σ) :
      Busy (r.look.look.send request world) := busy.same rfl rfl
  cases h with
  | idle => exact hx
  | @accepted left caller call rest answer r yes =>
    have approved : Busy (if answer.approvesSession then r.approveAll else r) := by
      split
      · exact Busy.same hx rfl rfl
      · exact hx
    exact approved.execute caller call true
  | declined no => exact Busy.recordResult hx _ _ _ _ _
  | abandoned off => exact Busy.recordCancelled hx _ _
  | stopped => exact Busy.same hx rfl rfl
  | exhausted => exact Busy.same hx rfl rfl
  | lost => exact Busy.same hx rfl rfl
  | withdrawn => exact Busy.same hx rfl rfl
  | @refused left r a e world found reply =>
    have busy := sent hx (requestOf setup r.session a) world
    cases e with
    | _ => exact busy
  | @interrupted left r a steps world intake why found reply read broken =>
    have busy : Busy (((r.look.look.send (requestOf setup r.session a) world).takeIn
        intake).recordInterrupted setup why intake.assembly) :=
      ((sent hx _ _).takeIn intake).recordInterrupted why intake.assembly
    cases why with
    | _ => exact busy
  | answered => exact ((sent hx _ _).takeIn _).recordTurn _ _
  | called => exact ((sent hx _ _).takeIn _).recordTurn _ _
  | finished => exact hx
  | @dropped left caller call rest r cancelled =>
    have looked : Busy r.look := Busy.same hx rfl rfl
    exact looked.recordCancelled caller (call :: rest)
  | transferred => exact (announced hx _ _).handoff _ _
  | unknown => exact (announced hx _ _).recordResult _ _ _ _ _
  | denied => exact (announced hx _ _).recordResult _ _ _ _ _
  | suspended => exact (announced hx _ _).suspend _ _ _
  | executed => exact (announced hx _ _).execute _ _ _

/-! ## The end of a run -/

theorem compact_events (setup : Setup σ) (r : Run σ) :
    ∃ compacted : Option Event, (compact setup r).events = r.events ++ compacted.toList ∧
      ∀ e ∈ compacted, e.kind = "session_compacted" := by
  unfold compact
  split
  · dsimp only
    split
    · rename_i text _
      exact ⟨some (.sessionCompacted r.agent text), rfl, by simp [Event.kind]⟩
    · exact ⟨none, (List.append_nil _).symm, by simp⟩
  · exact ⟨none, (List.append_nil _).symm, by simp⟩

theorem followUp_events (setup : Setup σ) (r : Run σ) :
    ∃ suggested : Option Event, (followUp setup r).events = r.events ++ suggested.toList ∧
      ∀ e ∈ suggested, e.kind = "follow_up_suggestions" := by
  unfold followUp
  dsimp only
  split
  · split
    · exact ⟨none, (List.append_nil _).symm, by simp⟩
    · split
      · exact ⟨none, (List.append_nil _).symm, by simp⟩
      · exact ⟨some (.followUpSuggestions r.agent _), rfl, by simp [Event.kind]⟩
  · exact ⟨none, (List.append_nil _).symm, by simp⟩

/-- What may come before the terminal event of a run, apart from its work: at most one summary, and
behind it at most one list of suggestions. -/
structure Closing (events : List Event) : Prop where
  split : ∃ compacted suggested : Option Event, events = compacted.toList ++ suggested.toList ∧
    (∀ e ∈ compacted, e.kind = "session_compacted") ∧
    ∀ e ∈ suggested, e.kind = "follow_up_suggestions"

theorem Closing.nil : Closing [] := ⟨none, none, rfl, by simp, by simp⟩

theorem Closing.not_terminal {events : List Event} (h : Closing events) :
    ∀ e ∈ events, e.isTerminal = false := by
  obtain ⟨compacted, suggested, rfl, compaction, suggestions⟩ := h.split
  intro e among
  rcases List.mem_append.mp among with among | among
  · exact Event.not_terminal_of_compacted (compaction e (Option.mem_toList.mp among))
  · exact Event.not_terminal_of_suggested (suggestions e (Option.mem_toList.mp among))

/-- What a driver has reported when it ends, and what its session waits for then. -/
structure Ended (r : Run σ) : Prop where
  terminal : ∃ before last, r.events = before ++ [last] ∧ last.isTerminal = true ∧
    ∀ e ∈ before, e.isTerminal = false
  /-- A summary and suggestions come directly before `done`, or not at all. -/
  closing : ∃ work closing last, r.events = work ++ closing ++ [last] ∧
    (∀ e ∈ work, e.isWork = true ∧ e.isTerminal = false) ∧ Closing closing ∧
    (closing ≠ [] → last.kind = "done")
  waits : ∀ p, r.session.pending = some p → ∃ call rest, p.calls = call :: rest ∧
    r.events.getLast? =
      some (.elicitationRequest p.agent (consentText p.agent call.name) call)
  asks : ∀ agent message call,
    r.events.getLast? = some (.elicitationRequest agent message call) →
      ∃ rest, r.session.pending = some ⟨agent, call :: rest⟩

theorem Ended.of_idle {r : Run σ} {work closing : List Event} {last : Event}
    (events : r.events = work ++ closing ++ [last]) (working : ∀ e ∈ work, e.isWork = true)
    (closes : Closing closing) (terminal : last.isTerminal = true)
    (done : closing ≠ [] → last.kind = "done") (other : last.kind ≠ "elicitation_request")
    (idle : r.session.pending = none) : Ended r := by
  have plain : ∀ e ∈ work, e.isTerminal = false := fun e among =>
    Event.not_terminal_of_isWork (working e among)
  refine ⟨⟨work ++ closing, last, events, terminal, ?_⟩,
    ⟨work, closing, last, events, fun e among => ⟨working e among, plain e among⟩, closes, done⟩,
    ?_, ?_⟩
  · intro e among
    rcases List.mem_append.mp among with among | among
    · exact plain e among
    · exact closes.not_terminal e among
  · intro p waits
    rw [idle] at waits
    cases waits
  · intro agent message call asks
    rw [events, List.getLast?_concat] at asks
    cases asks
    exact (other rfl).elim

theorem Busy.ended {r : Run σ} (h : Busy r) {last : Event} (terminal : last.isTerminal = true)
    (other : last.kind ≠ "elicitation_request") : Ended (r.emit last) :=
  have events : (r.emit last).events = r.events ++ [] ++ [last] := by rw [List.append_nil]; rfl
  .of_idle events h.work .nil terminal (by simp) other h.idle

theorem Suspended.ended {r : Run σ} (h : Suspended r) : Ended r := by
  obtain ⟨work, caller, call, rest, events, working, pending⟩ := h.asked
  have plain : ∀ e ∈ work, e.isTerminal = false := fun e among =>
    Event.not_terminal_of_isWork (working e among)
  refine ⟨⟨work, _, events, rfl, plain⟩, ⟨work, [], _, by rw [List.append_nil]; exact events,
    fun e among => ⟨working e among, plain e among⟩, .nil, by simp⟩, ?_, ?_⟩
  · rintro p waits
    cases pending.symm.trans waits
    exact ⟨call, rest, rfl, by rw [events, List.getLast?_concat]⟩
  · intro agent message call' asks
    rw [events, List.getLast?_concat] at asks
    cases asks
    exact ⟨rest, pending⟩

theorem finish_ended (setup : Setup σ) {outcome : Outcome} {r : Run σ}
    (h : Reports (.closed outcome, r)) : Ended (finish setup (followUp setup) outcome r) := by
  cases outcome with
  | suspended => exact Suspended.ended h
  | cancelled => exact Busy.ended h rfl (by simp [Event.kind])
  | failed message => exact Busy.ended h rfl (by simp [Event.kind])
  | done reason =>
    obtain ⟨compacted, hcompacted, compaction⟩ := compact_events setup r
    obtain ⟨suggested, hsuggested, suggestions⟩ := followUp_events setup (compact setup r)
    have idle : (followUp setup (compact setup r)).session.pending = none := by
      rw [(quiet_followUp setup _).1, (compact_summarises setup r).pending]
      exact Busy.idle h
    have events : (finish setup (followUp setup) (.done reason) r).events =
        r.events ++ (compacted.toList ++ suggested.toList) ++
          [(followUp setup (compact setup r)).doneEvent reason] := by
      rw [finish, emit, hsuggested, hcompacted, List.append_assoc r.events]
    exact .of_idle events (Busy.work h) ⟨compacted, suggested, rfl, compaction, suggestions⟩ rfl
      (fun _ => rfl) (by simp [doneEvent, Event.kind]) idle

theorem drive_ended (setup : Setup σ) (resumed : Option (Session.Pending × Answer)) {r : Run σ}
    (new : r.events = []) (idle : r.session.pending = none) :
    Ended (drive setup (followUp setup) resumed r) := by
  have busy : Busy r := ⟨by simp [new], idle⟩
  have opened : Reports (opening setup resumed, r) := by
    cases resumed <;> exact busy
  exact finish_ended setup ((work_steps setup resumed r).keep Step.reports opened)

end Run

variable {σ : Type}

/-- Every driver ends with its one terminal event, whether it begins with a run or with the answer
to an elicitation, and whatever models, tools, settings and cancellation do. -/
theorem driver_ended (setup : Setup σ) (s : Session) (c : Cancellation) (world : σ) :
    (∀ r, setup.run s c world = .ok r → r.Ended) ∧
      ∀ answer r, setup.resume s answer c world = .ok r → r.Ended := by
  have ends {r : Run σ}
      (started : setup.run s c world = .ok r ∨ ∃ answer, setup.resume s answer c world = .ok r) :
      r.Ended := by
    obtain ⟨resumed, agent, -, rfl⟩ := Setup.started_eq_ok started
    exact Run.drive_ended setup resumed rfl rfl
  exact ⟨fun r ran => ends (.inl ran), fun answer r resumed => ends (.inr ⟨answer, resumed⟩)⟩

/-- The user declines the first of two calls that a session is suspended on, and is asked about the
second. -/
theorem driver_ended_sample :
    ∃ r, ((Sample.occasion []).setup Sample.team).resume
        (Sample.team.after Sample.session Sample.suspended) .decline .never ⟨[], []⟩ = .ok r ∧
      r.Ended ∧ r.session.pending = some ⟨"root", [Sample.call "2"]⟩ :=
  ⟨_, rfl, (driver_ended ((Sample.occasion []).setup Sample.team)
    (Sample.team.after Sample.session Sample.suspended) .never ⟨[], []⟩).2 .decline _ rfl, rfl⟩

end Ensemble
