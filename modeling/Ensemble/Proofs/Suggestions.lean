import Ensemble.Proofs.Endings

/-!
# Suggestions do not disturb

With suggestions or without them, a run does the same work: nothing it does before its outcome is
fixed looks at their settings (`Run.work_suggesting`). At its end only `followUp` differs, which
has a run of its own and keeps nothing of it but the texts it may offer (`Run.followUp_offers`). So
the two runs leave the same session and the same journal, and their events differ by at most one
offer, directly before `done` (`Run.Discreet`).

The worlds of models and tools may differ in the end: a model that was asked for suggestions has
answered once more.
-/

namespace Ensemble

variable {σ : Type}

def Setup.suggesting (setup : Setup σ) (config : SuggestionsConfig) : Setup σ :=
  { setup with config := { setup.config with suggestions := config } }

namespace Run

variable (setup : Setup σ) (config : SuggestionsConfig)

theorem processCalls_suggesting (caller : String) (queue : List ToolCall) (r : Run σ) :
    processCalls (setup.suggesting config) caller queue r = processCalls setup caller queue r := by
  induction queue generalizing r with
  | nil => rfl
  | cons call rest ih =>
    simp only [processCalls, ih]
    rfl

theorem callModel_suggesting (r : Run σ) :
    callModel (setup.suggesting config) r = callModel setup r := rfl

theorem loop_suggesting (left : Nat) (r : Run σ) :
    loop (setup.suggesting config) left r = loop setup left r := by
  induction left generalizing r with
  | zero => rfl
  | succ left ih =>
    simp only [loop, callModel_suggesting, processCalls_suggesting, ih]

theorem resumeCalls_suggesting (pending : Session.Pending) (answer : Answer) (r : Run σ) :
    resumeCalls (setup.suggesting config) pending answer r = resumeCalls setup pending answer r := by
  unfold resumeCalls
  simp only [processCalls_suggesting]
  rfl

theorem work_suggesting (resumed : Option (Session.Pending × Answer)) (r : Run σ) :
    work (setup.suggesting config) resumed r = work setup resumed r := by
  cases resumed with
  | none => exact loop_suggesting setup config _ r
  | some both =>
    have limit : (setup.suggesting config).config.maxIterations = setup.config.maxIterations := rfl
    simp only [work, resumeCalls_suggesting, loop_suggesting, limit]

theorem needsCompaction_suggesting (r : Run σ) :
    needsCompaction (setup.suggesting config) r = needsCompaction setup r := by
  simp only [needsCompaction, Setup.suggesting]

theorem summarize_suggesting : (setup.suggesting config).summarize = setup.summarize := by
  funext s agent c world
  simp only [Setup.summarize, Setup.suggesting]

theorem compact_suggesting (r : Run σ) :
    compact (setup.suggesting config) r = compact setup r := by
  simp only [compact, needsCompaction_suggesting, summarize_suggesting]

end Run

namespace Suggestions

theorem parse_length (response : String) (max : Nat) : (parse response max).length ≤ max := by
  unfold parse
  split
  · exact List.length_take_le _ _
  · exact Nat.zero_le max

theorem parse_not_blank (response : String) (max : Nat) :
    ∀ text ∈ parse response max, Text.isBlankText text = false := by
  intro text among
  unfold parse at among
  split at among
  · have kept := (List.mem_filter.mp (List.mem_of_mem_take among)).2
    simpa using kept
  · cases among

/-- Whatever the inner run comes to, only its last reply is read. -/
theorem generate_suggestions (m : Model σ) (lastUser lastAssistant : String)
    (config : SuggestionsConfig) (here : Surroundings) (now : Time.Timestamp) (c : Cancellation)
    (world : σ) :
    (generate m lastUser lastAssistant config here now c world).suggestions = [] ∨
      ∃ reply, (generate m lastUser lastAssistant config here now c world).suggestions =
        parse reply config.maxCount := by
  unfold generate
  split
  · exact .inl rfl
  split
  · exact .inl rfl
  dsimp only
  split
  · exact .inl rfl
  · dsimp only
    split
    · exact .inl rfl
    · exact .inr ⟨_, rfl⟩

end Suggestions

structure Offer (config : SuggestionsConfig) (texts : List String) : Prop where
  wanted : config.enabled = true
  nonempty : texts ≠ []
  few : texts.length ≤ config.maxCount
  meant : ∀ text ∈ texts, Text.isBlankText text = false

namespace Run

variable (setup : Setup σ)

theorem followUp_agent (r : Run σ) : (followUp setup r).agent = r.agent := by
  unfold followUp
  dsimp only
  split
  · split
    · rfl
    · split <;> rfl
  · rfl

theorem followUp_offers (r : Run σ) :
    (followUp setup r).events = r.events ∨ ∃ texts, Offer setup.config.suggestions texts ∧
      (followUp setup r).events = r.events ++ [.followUpSuggestions r.agent texts] := by
  unfold followUp
  dsimp only
  split
  · rename_i wanted
    split
    · exact .inl rfl
    · rename_i a _
      split
      · exact .inl rfl
      · rename_i usable
        refine .inr ⟨_, ?_, rfl⟩
        simp only [Bool.or_eq_true, List.isEmpty_iff, not_or] at usable
        rcases Suggestions.generate_suggestions a.model (r.session.lastContent .user)
          (r.session.lastContent .assistant) setup.config.suggestions setup.here setup.now
          { r.cancel with deadline := some setup.config.suggestions.timeout } r.world with
          none | ⟨reply, parsed⟩
        · exact absurd none usable.2
        · rw [parsed] at usable ⊢
          exact ⟨wanted, usable.2, Suggestions.parse_length _ _, Suggestions.parse_not_blank _ _⟩
  · exact .inl rfl

end Run

def Setup.silent (setup : Setup σ) : Setup σ :=
  setup.suggesting { setup.config.suggestions with enabled := false }

def Event.isOffer : Event → Bool
  | .followUpSuggestions .. => true
  | _ => false

theorem Event.not_offer_of_isWork {e : Event} (h : e.isWork = true) : e.isOffer = false := by
  cases e with
  | followUpSuggestions => cases h
  | _ => rfl

theorem Event.not_offer_of_compacted {e : Event} (h : e.kind = "session_compacted") :
    e.isOffer = false := by
  cases e <;> simp_all [Event.kind, Event.isOffer]

namespace Run

/-- `plain` offers nothing, and `r` differs from it by at most one offer, directly before `done`. -/
structure Discreet (config : SuggestionsConfig) (r plain : Run σ) : Prop where
  session : r.session = plain.session
  journal : r.journal = plain.journal
  silent : ∀ e ∈ plain.events, e.isOffer = false
  events : r.events = plain.events ∨ ∃ before agent reason usage cost texts,
    Offer config texts ∧ plain.events = before ++ [.done agent reason usage cost] ∧
      r.events = before ++ [.followUpSuggestions agent texts, .done agent reason usage cost]

theorem Discreet.of_busy {r : Run σ} (h : Busy r) (config : SuggestionsConfig) {last : Event}
    (plain : last.isOffer = false) : Discreet config (r.emit last) (r.emit last) := by
  refine ⟨rfl, rfl, ?_, .inl rfl⟩
  intro e among
  rcases List.mem_append.mp among with among | among
  · exact Event.not_offer_of_isWork (h.work e among)
  · rwa [List.mem_singleton.mp among]

theorem Discreet.of_suspended {r : Run σ} (h : Suspended r) (config : SuggestionsConfig) :
    Discreet config r r := by
  obtain ⟨work, caller, call, rest, events, working, -⟩ := h.asked
  refine ⟨rfl, rfl, ?_, .inl rfl⟩
  intro e among
  rw [events] at among
  rcases List.mem_append.mp among with among | among
  · exact Event.not_offer_of_isWork (working e among)
  · rw [List.mem_singleton.mp among]
    rfl

variable (setup : Setup σ)

theorem finish_discreet {outcome : Outcome} {r : Run σ} (h : Reports (.closed outcome, r)) :
    Discreet setup.config.suggestions (finish setup (followUp setup) outcome r)
      (finish setup.silent (followUp setup.silent) outcome r) := by
  cases outcome with
  | suspended => exact .of_suspended h _
  | cancelled => exact .of_busy h _ rfl
  | failed message => exact .of_busy h _ rfl
  | done reason =>
    have plain : finish setup.silent (followUp setup.silent) (.done reason) r =
        (compact setup r).emit ((compact setup r).doneEvent reason) := by
      have same := compact_suggesting setup { setup.config.suggestions with enabled := false } r
      rw [finish, Setup.silent, same]
      rfl
    obtain ⟨compacted, reported, compaction⟩ := compact_events setup r
    obtain ⟨session, journal⟩ := quiet_followUp setup (compact setup r)
    have last : (followUp setup (compact setup r)).doneEvent reason =
        (compact setup r).doneEvent reason := by
      simp only [doneEvent, session, followUp_agent]
    rw [plain]
    refine ⟨session, journal, ?_, ?_⟩
    · intro e among
      simp only [emit, reported, List.mem_append, List.mem_singleton, Option.mem_toList] at among
      rcases among with (among | among) | rfl
      · exact Event.not_offer_of_isWork (Busy.work h e among)
      · exact Event.not_offer_of_compacted (compaction e among)
      · rfl
    · simp only [finish, emit, last]
      rcases followUp_offers setup (compact setup r) with none | ⟨texts, offer, offered⟩
      · rw [none]
        exact .inl rfl
      · rw [offered, List.append_assoc]
        exact .inr ⟨_, _, _, _, _, texts, offer, rfl, rfl⟩

theorem drive_discreet (resumed : Option (Session.Pending × Answer)) {r : Run σ}
    (new : r.events = []) (idle : r.session.pending = none) :
    Discreet setup.config.suggestions (drive setup (followUp setup) resumed r)
      (drive setup.silent (followUp setup.silent) resumed r) := by
  have busy : Busy r := ⟨by simp [new], idle⟩
  have opened : Reports (opening setup resumed, r) := by
    cases resumed <;> exact busy
  have ended := (work_steps setup resumed r).keep Step.reports opened
  have worked : work setup.silent resumed r = work setup resumed r := work_suggesting setup _ _ _
  unfold drive
  rw [worked]
  exact finish_discreet setup ended

end Run

def Alike {α : Type} (R : α → α → Prop) : Except Error α → Except Error α → Prop
  | .ok a, .ok b => R a b
  | .error e, .error e' => e = e'
  | _, _ => False

theorem Alike.map {α β : Type} {R : β → β → Prop} {f g : α → β} (x : Except Error α)
    (h : ∀ a, x = .ok a → R (f a) (g a)) : Alike R (x.map f) (x.map g) := by
  cases x with
  | ok a => exact h a rfl
  | error e => exact rfl

/-- A driver that may offer suggestions does the same as one that may not, and fails where it fails,
whatever models, tools, settings and cancellation do: only an offer may come in addition, and only
directly before `done`. -/
theorem suggestions_discreet (setup : Setup σ) (s : Session) (c : Cancellation) (world : σ) :
    Alike (Run.Discreet setup.config.suggestions) (setup.run s c world)
        (setup.silent.run s c world) ∧
      ∀ answer, Alike (Run.Discreet setup.config.suggestions)
        (setup.resume s answer c world) (setup.silent.resume s answer c world) := by
  constructor
  · have same : setup.silent.start s c world = setup.start s c world := rfl
    rw [Setup.run, Setup.run, same]
    refine .map _ fun r started => ?_
    obtain ⟨idle, -, rfl⟩ := Setup.start_eq_ok started
    exact Run.drive_discreet setup none rfl idle
  · intro answer
    refine .map _ fun begun started => ?_
    obtain ⟨-, fresh⟩ := Setup.startResumed_eq_ok started
    rw [fresh]
    exact Run.drive_discreet setup _ rfl rfl

namespace Sample

def curious : Setup Model.Playback :=
  { (occasion []).setup team with config := { suggestions := { enabled := true } } }

def answers : Model.Playback :=
  (occasion [[.text "hello"], [.text "Maybe [\"  \", \"touch it\"]?"]]).world

end Sample

/-- The blank one of two suggestions is left out. -/
theorem suggestions_discreet_sample :
    Alike (Run.Discreet Sample.curious.config.suggestions)
        (Sample.curious.run (Sample.session.addUser "go" Sample.noon) .never Sample.answers)
        (Sample.curious.silent.run (Sample.session.addUser "go" Sample.noon) .never
          Sample.answers) ∧
      ∃ r, Sample.curious.run (Sample.session.addUser "go" Sample.noon) .never Sample.answers =
          .ok r ∧
        r.events = [.tokenDelta "root" "hello", .followUpSuggestions "root" ["touch it"],
          .done "root" "end_turn" Usage.zero 0] :=
  ⟨(suggestions_discreet Sample.curious (Sample.session.addUser "go" Sample.noon) .never
    Sample.answers).1, _, rfl, rfl⟩

end Ensemble
