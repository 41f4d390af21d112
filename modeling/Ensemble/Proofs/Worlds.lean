import Ensemble.Proofs.Life

/-!
# The world of models and tools

A run touches the world of its models and tools in two ways: it asks a model, or it executes a
tool. Each time it notes so in its journal, and nothing else it notes goes with a change of the
world (`Team.Moves`). So the journal of a run accounts for the world that the run leaves
(`Setup.run_accounted`), and what holds of the entries of a journal holds of what models and tools
were made to do.
-/

namespace Ensemble

variable {σ : Type}

/-- The entries that stand for something a model or a tool did. -/
def Activity.works : Activity → Bool
  | .asked .. | .summaryAsked .. => true
  | .settled _ _ how => how.isExecuted
  | .replied .. | .summaryReplied .. => false

namespace Team

/-- The world after a call of `caller` has been executed. -/
def worldAfter (t : Team σ) (caller : String) (call : ToolCall) (cancelled : Bool) (world : σ) :
    σ :=
  match t.agent caller with
  | .ok a => (a.tools.executeCall call cancelled world).2
  | .error _ => world

/-- How the world moves with one entry of a journal. -/
inductive Moves (t : Team σ) : Activity → σ → σ → Prop where
  | asked {agent : String} {request : Model.Request} {a : Agent σ} (found : t.agent agent = .ok a)
      (world : σ) :
      Moves t (.asked agent request) world (a.model.complete false request world).2
  | summaryAsked {agent : String} {request : Model.Request} {a : Agent σ}
      (found : t.agent agent = .ok a) (cancelled : Bool) (world : σ) :
      Moves t (.summaryAsked agent request) world (a.model.complete cancelled request world).2
  | executed (caller : String) (call : ToolCall) (approval : Approval) (accepted cancelled : Bool)
      (world : σ) :
      Moves t (.settled caller call (.executed approval accepted)) world
        (t.worldAfter caller call cancelled world)
  | idle {entry : Activity} (h : entry.works = false) (world : σ) : Moves t entry world world

/-- The entries of a journal, one after the other, lead from one world to the other. -/
inductive Worked (t : Team σ) : List Activity → σ → σ → Prop where
  | nil (world : σ) : Worked t [] world world
  | cons {entry : Activity} {rest : List Activity} {w₁ w₂ w₃ : σ} (first : t.Moves entry w₁ w₂)
      (later : Worked t rest w₂ w₃) : Worked t (entry :: rest) w₁ w₃

namespace Worked

variable {t : Team σ} {j k : List Activity} {w₁ w₂ w₃ : σ}

theorem single {entry : Activity} (h : t.Moves entry w₁ w₂) : t.Worked [entry] w₁ w₂ :=
  .cons h (.nil w₂)

theorem append (h : t.Worked j w₁ w₂) (h' : t.Worked k w₂ w₃) : t.Worked (j ++ k) w₁ w₃ := by
  induction h with
  | nil => exact h'
  | cons first _ ih => exact .cons first (ih h')

/-- Where no model is asked and no tool executed the world stays as it is. -/
theorem world_eq (h : t.Worked j w₁ w₂) (idle : ∀ entry ∈ j, entry.works = false) : w₂ = w₁ := by
  induction h with
  | nil => rfl
  | @cons entry rest w₁ w₂ w₃ first _ ih =>
    rw [ih fun e among => idle e (.tail _ among)]
    have quiet := idle entry (.head _)
    cases first with
    | idle => rfl
    | _ => cases quiet

end Worked

end Team

namespace Run

variable {setup : Setup σ}

/-- From one state of a run to a later one the journal accounts for the world. -/
def Advances (setup : Setup σ) (r r' : Run σ) : Prop :=
  ∃ more, r'.journal = r.journal ++ more ∧ setup.team.Worked more r.world r'.world

namespace Advances

variable {r r' r'' : Run σ}

theorem of_eq (journal : r'.journal = r.journal) (world : r'.world = r.world) :
    Advances setup r r' := by
  refine ⟨[], ?_, ?_⟩
  · rw [journal, List.append_nil]
  · rw [world]
    exact .nil r.world

theorem trans (h : Advances setup r r') (h' : Advances setup r' r'') : Advances setup r r'' := by
  obtain ⟨j, journal, worked⟩ := h
  obtain ⟨k, journal', worked'⟩ := h'
  exact ⟨j ++ k, by rw [journal', journal, List.append_assoc], worked.append worked'⟩

end Advances

theorem recordResult_advances (setup : Setup σ) {how : Settlement} (plain : how.isExecuted = false)
    (caller : String) (call : ToolCall) (content : String) (isError : Bool) (r : Run σ) :
    Advances setup r (r.recordResult setup caller call how content isError) := by
  have idle : (Activity.settled caller call how).works = false := plain
  exact ⟨[.settled caller call how], rfl, .single (.idle idle r.world)⟩

theorem recordCancelled_advances (setup : Setup σ) (caller : String) (queue : List ToolCall)
    (r : Run σ) : Advances setup r (r.recordCancelled setup caller queue) := by
  induction queue generalizing r with
  | nil => exact .of_eq rfl rfl
  | cons call rest ih =>
    exact (recordResult_advances setup rfl caller call cancelledText true r).trans (ih _)

theorem handoff_advances (setup : Setup σ) (caller : String) (call : ToolCall) (r : Run σ) :
    Advances setup r (r.handoff setup caller call) := by
  rcases handoff_cases setup caller call r with ⟨text, h⟩ | ⟨args, -, h⟩
  · rw [h]
    exact recordResult_advances setup rfl caller call text true r
  · rw [h]
    exact recordResult_advances setup rfl caller call (transferredText args.agent) false r

theorem execute_world (setup : Setup σ) (caller : String) (call : ToolCall) (accepted : Bool)
    (r : Run σ) :
    (r.execute setup caller call accepted).world =
      setup.team.worldAfter caller call r.look.cancel.requested r.world := by
  have replied : (r.execute setup caller call accepted).world =
      (r.look.callReply setup caller call).2 := rfl
  rw [replied, callReply, Team.worldAfter]
  cases setup.team.agent caller <;> rfl

theorem execute_advances (setup : Setup σ) (caller : String) (call : ToolCall) (accepted : Bool)
    (r : Run σ) : Advances setup r (r.execute setup caller call accepted) := by
  refine ⟨[.settled caller call (.executed (r.session.approvalOf call.name) accepted)], rfl, ?_⟩
  rw [execute_world]
  exact .single (.executed caller call _ accepted _ r.world)

theorem send_advances {r : Run σ} {a : Agent σ} {reply : Except ModelError (List Model.Step)}
    {world : σ} (found : setup.team.agent r.agent = .ok a)
    (answered : a.model.complete r.look.look.cancel.requested (requestOf setup r.session a)
      r.world = (reply, world))
    (going : r.look.look.cancel.requested = false) :
    Advances setup r (r.look.look.send (requestOf setup r.session a) world) := by
  refine ⟨[.asked r.agent (requestOf setup r.session a)], rfl, .single ?_⟩
  -- A model is asked only while nobody has cancelled.
  rw [going] at answered
  have moved : setup.team.Moves (.asked r.agent (requestOf setup r.session a)) r.world
      (a.model.complete false (requestOf setup r.session a) r.world).2 := .asked found r.world
  rwa [answered] at moved

theorem recordTurn_advances (m : Model σ) (a : Assembly) (r : Run σ) :
    Advances setup r (r.recordTurn setup m a) := by
  refine ⟨[.replied r.agent a.calls a.usage], (recordTurn_frame setup m a r).1, ?_⟩
  have still : (r.recordTurn setup m a).world = r.world := by
    unfold recordTurn
    cases a.usage <;> rfl
  rw [still]
  exact .single (.idle rfl r.world)

theorem recordInterrupted_advances (why : Interruption) (a : Assembly) (r : Run σ) :
    Advances setup r (r.recordInterrupted setup why a) := by
  unfold recordInterrupted
  split <;> exact .of_eq rfl rfl

theorem Step.advances {x y : Stage × Run σ} (h : Step setup x y) : Advances setup x.2 y.2 := by
  cases h with
  | @accepted left caller call rest answer r yes =>
    dsimp only
    split
    · exact execute_advances setup caller call true r.approveAll
    · exact execute_advances setup caller call true r
  | declined => exact recordResult_advances setup rfl _ _ _ _ _
  | abandoned => exact recordCancelled_advances setup _ _ _
  | refused found reply going => exact send_advances found reply going
  | interrupted found reply _ _ going =>
    exact (send_advances found reply going).trans (recordInterrupted_advances _ _ (takeIn _ _))
  | answered found reply _ _ _ going =>
    exact (send_advances found reply going).trans (recordTurn_advances _ _ (takeIn _ _))
  | called found reply _ _ _ going =>
    exact (send_advances found reply going).trans (recordTurn_advances _ _ (takeIn _ _))
  | dropped => exact recordCancelled_advances setup _ _ (look _)
  | @transferred left caller call rest r =>
    exact handoff_advances setup caller call (r.look.announce caller call)
  | unknown | denied => exact ⟨[.settled _ _ _], rfl, .single (.idle rfl _)⟩
  | @executed left caller call rest r =>
    exact execute_advances setup caller call false (r.look.announce caller call)
  | idle | stopped | exhausted | lost | withdrawn | finished | suspended => exact .of_eq rfl rfl

theorem Steps.advances {x y : Stage × Run σ} (h : Steps setup x y) : Advances setup x.2 y.2 :=
  h.keep (P := fun z => Advances setup x.2 z.2) (fun step before => before.trans step.advances)
    (.of_eq rfl rfl)

end Run

theorem Setup.summarize_worked (setup : Setup σ) (s : Session) (agent : String) (c : Cancellation)
    (world : σ) :
    setup.team.Worked (setup.summarize s agent c world).journal world
      (setup.summarize s agent c world).world := by
  unfold Setup.summarize
  dsimp only
  split
  · exact .nil world
  rename_i a found
  split
  · exact .nil world
  rename_i request _
  have asked : setup.team.Moves (.summaryAsked agent request) world
      (a.model.complete c.look.requested request world).2 :=
    .summaryAsked found c.look.requested world
  split
  · exact .single asked
  · split
    · exact .single asked
    · exact .cons asked (.single (.idle rfl _))

namespace Run

variable {setup : Setup σ}

theorem compact_advances (setup : Setup σ) (r : Run σ) : Advances setup r (compact setup r) := by
  unfold compact
  split
  · refine ⟨(setup.summarize r.session r.agent r.cancel r.world).journal, ?_, ?_⟩
    · dsimp only
      split <;> rfl
    · have worked := setup.summarize_worked r.session r.agent r.cancel r.world
      dsimp only
      split <;> exact worked
  · exact .of_eq rfl rfl

/-- Up to what follows it, a run that is driven is accounted for by its journal. -/
theorem drive_advances (setup : Setup σ) (followUp : Run σ → Run σ)
    (resumed : Option (Session.Pending × Answer)) (r : Run σ) :
    ∃ r' last, Advances setup r r' ∧ r'.aside = r.aside ∧ (last = followUp r' ∨ last = r') ∧
      (drive setup followUp resumed r).journal = last.journal ∧
      (drive setup followUp resumed r).aside = last.aside ∧
      (drive setup followUp resumed r).world = last.world := by
  have worked : Advances setup r (work setup resumed r).1 := (work_steps setup resumed r).advances
  have beside := work_aside setup resumed r
  have ended : drive setup followUp resumed r =
      finish setup followUp (work setup resumed r).2 (work setup resumed r).1 := rfl
  rw [ended]
  cases (work setup resumed r).2 with
  | done reason =>
    exact ⟨_, _, worked.trans (compact_advances setup _), (compact_aside setup _).trans beside,
      .inl rfl, rfl, rfl, rfl⟩
  | suspended | cancelled | failed => exact ⟨_, _, worked, beside, .inr rfl, rfl, rfl, rfl⟩

/-- How the world moves while suggestions are sought: not at all, or with the run of an agent that
has no tools and a team of its own. -/
inductive Sought : List Activity → σ → σ → Prop where
  | nothing (world : σ) : Sought [] world world
  | run {m : Model σ} {config : SuggestionsConfig} {t : Team σ} {j : List Activity} {w₁ w₂ : σ}
      (alone : t.agents = [Suggestions.agentOf m config]) (worked : t.Worked j w₁ w₂) :
      Sought j w₁ w₂

theorem Sought.world_eq {j : List Activity} {w₁ w₂ : σ} (h : Sought j w₁ w₂)
    (idle : ∀ entry ∈ j, entry.works = false) : w₂ = w₁ := by
  cases h with
  | nothing => rfl
  | run _ worked => exact worked.world_eq idle

theorem sought_generate (m : Model σ) (lastUser lastAssistant : String)
    (config : SuggestionsConfig) (here : Surroundings) (now : Time.Timestamp) (c : Cancellation)
    (world : σ) :
    let sought := Suggestions.generate m lastUser lastAssistant config here now c world
    Sought sought.journal world sought.world := by
  dsimp only
  rcases generate_cases m lastUser lastAssistant config here now c world with
    ⟨none, still⟩ | ⟨inner, r, alone, -, new, begun, journal, moved⟩
  · rw [none, still]
    exact .nothing world
  · obtain ⟨r', last, ⟨more, kept, worked⟩, -, nothing, noted, -, left⟩ :=
      drive_advances inner id none r
    have same : last = r' := by
      rcases nothing with same | same <;> exact same
    rw [new, List.nil_append] at kept
    rw [begun] at worked
    rw [journal, moved, noted, left, same, kept]
    exact .run alone worked

theorem sought_followUp (setup : Setup σ) {r : Run σ} (new : r.aside = []) :
    Sought (followUp setup r).aside r.world (followUp setup r).world := by
  have nothing : Sought r.aside r.world r.world := by
    rw [new]
    exact .nothing r.world
  unfold followUp
  dsimp only
  split
  · split
    · exact nothing
    · split <;> exact sought_generate _ _ _ _ _ _ _ _
  · exact nothing

end Run

/-- The world that a driver leaves is the one its journal leads to, and then that of its search for
suggestions. -/
def Run.Accounted (t : Team σ) (world : σ) (r : Run σ) : Prop :=
  ∃ between, t.Worked r.journal world between ∧ Run.Sought r.aside between r.world

variable {setup : Setup σ} {s : Session} {c : Cancellation} {world : σ} {r : Run σ}

theorem Setup.run_accounted
    (h : setup.run s c world = .ok r ∨ ∃ answer, setup.resume s answer c world = .ok r) :
    r.Accounted setup.team world := by
  obtain ⟨resumed, agent, -, rfl⟩ := Setup.started_eq_ok h
  obtain ⟨r', last, ⟨more, kept, worked⟩, new, followed, noted, beside, left⟩ :=
    Run.drive_advances setup (Run.followUp setup) resumed
      { session := { s with pending := none }, agent, cancel := c, world }
  rw [List.nil_append] at kept
  rw [Run.Accounted, noted, beside, left]
  refine ⟨r'.world, ?_⟩
  rcases followed with rfl | rfl
  · rw [(Run.quiet_followUp setup r').2, kept]
    exact ⟨worked, Run.sought_followUp setup new⟩
  · rw [kept, new]
    exact ⟨worked, .nothing last.world⟩

/-- A driver that notes nothing of a model or a tool leaves the world as it found it. -/
theorem Run.Accounted.world_eq {t : Team σ} (h : r.Accounted t world)
    (idle : ∀ entry ∈ r.journal ++ r.aside, entry.works = false) : r.world = world := by
  obtain ⟨between, worked, sought⟩ := h
  have still : between = world :=
    worked.world_eq fun entry among => idle entry (List.mem_append_left _ among)
  rw [sought.world_eq fun entry among => idle entry (List.mem_append_right _ among), still]

end Ensemble
