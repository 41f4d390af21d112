import Ensemble.Proofs.Run.Effects

/-!
# What happens beside a run

Only the search for suggestions happens beside a run, and it is a run itself: of one agent without
tools, on a session of its own that nobody else sees (`Suggested`). So what holds of every run holds
of it.
-/

namespace Ensemble.Run

variable {σ : Type} {setup : Setup σ}

theorem recordCancelled_aside (caller : String) (queue : List ToolCall) (r : Run σ) :
    (r.recordCancelled setup caller queue).aside = r.aside := by
  induction queue generalizing r with
  | nil => rfl
  | cons call rest ih => exact ih _

theorem recordTurn_aside (m : Model σ) (a : Assembly) (r : Run σ) :
    (r.recordTurn setup m a).aside = r.aside := by
  unfold recordTurn
  cases a.usage <;> rfl

theorem recordInterrupted_aside (why : Interruption) (a : Assembly) (r : Run σ) :
    (r.recordInterrupted setup why a).aside = r.aside := by
  unfold recordInterrupted
  split <;> rfl

theorem handoff_aside (caller : String) (call : ToolCall) (r : Run σ) :
    (r.handoff setup caller call).aside = r.aside := by
  rcases handoff_cases setup caller call r with ⟨text, h⟩ | ⟨args, -, h⟩ <;> rw [h] <;> rfl

theorem Step.aside {x y : Stage × Run σ} (h : Step setup x y) : y.2.aside = x.2.aside := by
  cases h with
  | @accepted left caller call rest answer r yes => cases answer.approvesSession <;> rfl
  | abandoned off => exact recordCancelled_aside _ _ _
  | dropped cancelled => exact recordCancelled_aside _ _ _
  | interrupted => exact recordInterrupted_aside _ _ _
  | answered => exact recordTurn_aside _ _ _
  | called => exact recordTurn_aside _ _ _
  | transferred => exact handoff_aside _ _ _
  | _ => rfl

theorem work_aside (setup : Setup σ) (resumed : Option (Session.Pending × Answer)) (r : Run σ) :
    (work setup resumed r).1.aside = r.aside :=
  (work_steps setup resumed r).keep (P := fun x => x.2.aside = r.aside)
    (fun step same => step.aside.trans same) rfl

theorem compact_aside (setup : Setup σ) (r : Run σ) : (compact setup r).aside = r.aside := by
  unfold compact
  split
  · dsimp only
    split <;> rfl
  · rfl

/-- The journal of a search for suggestions, which may not have come to a run. -/
inductive Suggested (σ : Type) : List Activity → Prop where
  | nothing : Suggested σ []
  | run {m : Model σ} {config : SuggestionsConfig} {lastUser lastAssistant : String}
      {setup : Setup σ} {r : Run σ} (alone : setup.team.agents = [Suggestions.agentOf m config])
      (own : r.session = Suggestions.sessionOf config lastUser lastAssistant setup.now)
      (new : r.journal = []) : Suggested σ (drive setup id none r).journal

theorem Suggested.of_nil {j : List Activity} (h : j = []) : Suggested σ j := h ▸ .nothing

theorem agents_of_build {agents : List (Agent σ)} {t : Team σ} (h : Team.build agents = .ok t) :
    t.agents = agents := by
  unfold Team.build at h
  split at h
  · cases h
  · dsimp only at h
    split at h
    · split at h
      · cases h
        rfl
      · cases h
    · cases h

/-- Either nobody is asked for suggestions, or the outcome is that of a run of an agent alone. -/
theorem generate_cases (m : Model σ) (lastUser lastAssistant : String) (config : SuggestionsConfig)
    (here : Surroundings) (now : Time.Timestamp) (c : Cancellation) (world : σ) :
    let sought := Suggestions.generate m lastUser lastAssistant config here now c world
    (sought.journal = [] ∧ sought.world = world) ∨
      ∃ (inner : Setup σ) (r : Run σ), inner.team.agents = [Suggestions.agentOf m config] ∧
        r.session = Suggestions.sessionOf config lastUser lastAssistant inner.now ∧
        r.journal = [] ∧ r.world = world ∧ sought.journal = (drive inner id none r).journal ∧
        sought.world = (drive inner id none r).world := by
  unfold Suggestions.generate
  dsimp only
  split
  · exact .inl ⟨rfl, rfl⟩
  split
  · exact .inl ⟨rfl, rfl⟩
  rename_i team built
  split
  · exact .inl ⟨rfl, rfl⟩
  rename_i r started
  have idle : (Suggestions.sessionOf config lastUser lastAssistant now).pending.isSome = false :=
    rfl
  simp only [Setup.start, idle, Bool.false_eq_true, if_false] at started
  split at started
  · cases started
  · cases started
    exact .inr ⟨_, _, agents_of_build built, rfl, rfl, rfl, rfl, rfl⟩

theorem suggested_generate (m : Model σ) (lastUser lastAssistant : String)
    (config : SuggestionsConfig) (here : Surroundings) (now : Time.Timestamp) (c : Cancellation)
    (world : σ) :
    Suggested σ
      (Suggestions.generate m lastUser lastAssistant config here now c world).journal := by
  rcases generate_cases m lastUser lastAssistant config here now c world with
    ⟨none, -⟩ | ⟨inner, r, alone, own, new, -, journal, -⟩
  · exact .of_nil none
  · rw [journal]
    exact .run alone own new

theorem suggested_followUp (setup : Setup σ) {r : Run σ} (new : r.aside = []) :
    Suggested σ (followUp setup r).aside := by
  unfold followUp
  dsimp only
  split
  · split
    · exact .of_nil new
    · split <;> exact suggested_generate _ _ _ _ _ _ _ _
  · exact .of_nil new

theorem suggested_finish (setup : Setup σ) (outcome : Outcome) {r : Run σ} (new : r.aside = []) :
    Suggested σ (finish setup (followUp setup) outcome r).aside := by
  cases outcome with
  | done reason => exact suggested_followUp setup ((compact_aside setup r).trans new)
  | suspended => exact .of_nil new
  | cancelled => exact .of_nil new
  | failed message => exact .of_nil new

theorem suggested_drive (setup : Setup σ) (resumed : Option (Session.Pending × Answer)) {r : Run σ}
    (new : r.aside = []) : Suggested σ (drive setup (followUp setup) resumed r).aside :=
  suggested_finish setup _ ((work_aside setup resumed r).trans new)

end Ensemble.Run
