import Ensemble.Proofs.Life

/-!
# How a session grows

Whatever is done with a session, what has been said stays as it was said: the items before are a
prefix of the items after, and the particulars given to the session when it was created do not
change (`Session.Continues`). Where nothing comes of a request or of a summary because the provider
reports an error, the session is the very same.

Items are compared as wholes here, with the usage, the cost, the model and the time noted on them.
-/

namespace Ensemble

/-- What is settled when a session is created. -/
def Session.particulars (s : Session) :
    String × String × Time.Timestamp × Session.Permissions × Option String :=
  (s.id, s.title, s.createdAt, s.permissions, s.workingDir)

structure Session.Continues (s s' : Session) : Prop where
  items : s.items <+: s'.items
  particulars : s'.particulars = s.particulars

theorem Session.Continues.refl (s : Session) : s.Continues s := ⟨List.prefix_rfl, rfl⟩

theorem Session.Continues.id_eq {s s' : Session} (h : s.Continues s') : s'.id = s.id :=
  congrArg Prod.fst h.particulars

/-! ## Runs -/

namespace Run

variable {σ : Type} {setup : Setup σ}

theorem recordCancelled_particulars (caller : String) (queue : List ToolCall) (r : Run σ) :
    (r.recordCancelled setup caller queue).session.particulars = r.session.particulars := by
  induction queue generalizing r with
  | nil => rfl
  | cons call rest ih => exact ih _

theorem recordTurn_particulars (m : Model σ) (a : Assembly) (r : Run σ) :
    (r.recordTurn setup m a).session.particulars = r.session.particulars := by
  unfold recordTurn
  cases a.usage <;> rfl

theorem recordInterrupted_particulars (why : Interruption) (a : Assembly) (r : Run σ) :
    (r.recordInterrupted setup why a).session.particulars = r.session.particulars := by
  unfold recordInterrupted
  split <;> rfl

theorem handoff_particulars (caller : String) (call : ToolCall) (r : Run σ) :
    (r.handoff setup caller call).session.particulars = r.session.particulars := by
  rcases handoff_cases setup caller call r with ⟨text, h⟩ | ⟨args, -, h⟩ <;> rw [h] <;> rfl

theorem Step.particulars {x y : Stage × Run σ} (h : Step setup x y) :
    y.2.session.particulars = x.2.session.particulars := by
  cases h with
  | @accepted left caller call rest answer r yes => cases answer.approvesSession <;> rfl
  | abandoned off => exact recordCancelled_particulars _ _ _
  | dropped cancelled => exact recordCancelled_particulars _ _ _
  | interrupted => exact recordInterrupted_particulars _ _ _
  | answered => exact recordTurn_particulars _ _ _
  | called => exact recordTurn_particulars _ _ _
  | transferred => exact handoff_particulars _ _ _
  | _ => rfl

end Run

theorem Setup.summarize_particulars {σ : Type} (setup : Setup σ) (s : Session) (agent : String)
    (c : Cancellation) (world : σ) :
    (setup.summarize s agent c world).session.particulars = s.particulars :=
  setup.summarize_keep Session.particulars (fun _ _ _ => rfl) (fun _ _ _ => rfl) s agent c world

theorem Setup.summarize_continues {σ : Type} (setup : Setup σ) (s : Session) (agent : String)
    (c : Cancellation) (world : σ) :
    s.Continues (setup.summarize s agent c world).session := by
  refine ⟨?_, setup.summarize_particulars s agent c world⟩
  rcases (setup.summarize_summarises s agent c world []).items with same | ⟨text, now, added⟩
  · exact ⟨[], by simp [same]⟩
  · rw [added]
    exact List.prefix_append _ _

namespace Run

variable {σ : Type}

theorem compact_particulars (setup : Setup σ) (r : Run σ) :
    (compact setup r).session.particulars = r.session.particulars := by
  have h := setup.summarize_particulars r.session r.agent r.cancel r.world
  unfold compact
  split
  · dsimp only
    split <;> exact h
  · rfl

theorem finish_particulars (setup : Setup σ) {followUp : Run σ → Run σ} (quiet : Quiet followUp)
    (outcome : Outcome) (r : Run σ) :
    (finish setup followUp outcome r).session.particulars = r.session.particulars := by
  cases outcome with
  | done reason =>
    have h := compact_particulars setup r
    rw [← (quiet (compact setup r)).1] at h
    exact h
  | suspended => rfl
  | cancelled => rfl
  | failed message => rfl

theorem drive_continues (setup : Setup σ) {followUp : Run σ → Run σ} (quiet : Quiet followUp)
    (resumed : Option (Session.Pending × Answer)) {r : Run σ} {s : Session}
    (items : r.session.items = s.items) (particulars : r.session.particulars = s.particulars) :
    s.Continues (drive setup followUp resumed r).session := by
  have grown : s.items <+: (drive setup followUp resumed r).session.items :=
    drive_items_prefix setup quiet resumed items
  have worked : (work setup resumed r).1.session.particulars = s.particulars :=
    (work_steps setup resumed r).keep (P := fun x => x.2.session.particulars = s.particulars)
      (fun step same => step.particulars.trans same) particulars
  exact ⟨grown, (finish_particulars setup quiet _ _).trans worked⟩

end Run

/-! ## Requests that come to nothing -/

namespace Intake

/-- What was taken in as text is what was reported. -/
def Joined (i : Intake) : Prop := i.assembly.text = String.join i.pieces

theorem Joined.take {i i' : Intake} {d : Model.Delta} (h : i.Joined) (took : i.take d = .ok i') :
    i'.Joined := by
  cases d with
  | error message => cases took
  | text t =>
    cases took
    have joined : i.assembly.text = String.join i.pieces := h
    simp [Joined, textOf?, joined, String.join_append]
  | _ =>
    cases took
    simpa [Joined, textOf?] using h

theorem Joined.read {i : Intake} (h : i.Joined) (steps : List Model.Step) :
    (i.read steps).Joined := by
  induction steps generalizing i with
  | nil =>
    simp only [Intake.read]
    split <;> exact h
  | cons step rest ih =>
    have looked : i.look.Joined := h
    simp only [Intake.read]
    split
    · exact h
    cases step with
    | item reply cancels =>
      cases reply with
      | error e => exact h
      | ok d =>
        dsimp only
        split
        · rename_i i' took
          have joined : i'.Joined := looked.take took
          exact ih joined
        · exact h
    | checked d =>
      dsimp only
      split
      · rename_i i' took
        exact ih (looked.take took)
      · exact h
    | wait time => exact ih h

theorem read_joined (c : Cancellation) (steps : List Model.Step) :
    (Intake.read { cancel := c } steps).Joined :=
  Joined.read (i := { cancel := c }) rfl steps

end Intake

namespace Run

variable {σ : Type} {setup : Setup σ}

/-- Of a reply that breaks off something is kept only if it was cancelled after some text. -/
theorem recordInterrupted_eq_self {why : Interruption} {a : Assembly}
    (h : why ≠ .cancelled ∨ a.text = "") (r : Run σ) : r.recordInterrupted setup why a = r := by
  unfold recordInterrupted
  apply if_neg
  rintro ⟨cancelled, text⟩
  rcases h with other | silent
  · exact other cancelled
  · exact text silent

theorem recordInterrupted_events (why : Interruption) (a : Assembly) (r : Run σ) :
    (r.recordInterrupted setup why a).events = r.events := by
  unfold recordInterrupted
  split <;> rfl

theorem hear_error {m : Model σ} {r : Run σ} {reply : Except ModelError (List Model.Step)}
    {outcome : Outcome} (h : (hear setup m r reply).2 = .error outcome)
    (quiet : outcome ≠ .cancelled ∨ (hear setup m r reply).1.events = r.events) :
    (hear setup m r reply).1.session = r.session := by
  cases reply with
  | error e => rfl
  | ok steps =>
    cases broken : (Intake.read { cancel := r.cancel } steps).interruption with
    | none =>
      simp only [hear, broken] at h
      cases h
    | some why =>
      simp only [hear, broken] at h quiet ⊢
      rw [recordInterrupted_eq_self]
      · rfl
      rcases quiet with failed | silent
      · left
        rintro rfl
        cases h
        exact failed rfl
      · right
        have reported : r.events ++ (Intake.read { cancel := r.cancel } steps).pieces.map
            (Event.tokenDelta r.agent) = r.events :=
          (recordInterrupted_events why _ _).symm.trans silent
        rw [List.append_right_eq_self, List.map_eq_nil_iff] at reported
        have joined := Intake.read_joined r.cancel steps
        rwa [Intake.Joined, reported, String.join_nil] at joined

theorem callModel_error {r : Run σ} {outcome : Outcome}
    (h : (callModel setup r).2 = .error outcome)
    (quiet : outcome ≠ .cancelled ∨ (callModel setup r).1.events = r.events) :
    (callModel setup r).1.session = r.session := by
  cases found : setup.team.agent r.agent with
  | error e => simp only [callModel, found]
  | ok a =>
    cases cancelled : r.look.cancel.requested with
    | true =>
      simp only [callModel, found, cancelled, if_true]
      rfl
    | false =>
      obtain ⟨answer, world, reply⟩ : ∃ answer world,
          a.model.complete r.look.cancel.requested (requestOf setup r.session a) r.look.world =
            (answer, world) := ⟨_, _, rfl⟩
      rw [callModel_eq_hear found cancelled reply] at h quiet ⊢
      exact hear_error h quiet

theorem Step.failed {x : Stage × Run σ} {r' : Run σ} {outcome : Outcome} {message : String}
    (h : Step setup x (.closed outcome, r')) (failed : outcome = .failed message) :
    ∃ left r, x = (.asking (left + 1), r) ∧ callModel setup r.look = (r', .error outcome) := by
  cases h with
  | abandoned | stopped | exhausted | withdrawn | answered | dropped | suspended => cases failed
  | @lost left r e going missing =>
    have missing : setup.team.agent r.look.agent = .error e := missing
    exact ⟨left, r, rfl, by simp only [callModel, missing]⟩
  | @refused left r a e world found reply going =>
    exact ⟨left, r, rfl, callModel_eq_hear (r := r.look) found going reply⟩
  | @interrupted left r a steps world intake why found reply read broken going =>
    refine ⟨left, r, rfl, (callModel_eq_hear (r := r.look) found going reply).trans ?_⟩
    subst read
    simp only [hear, send, note, broken]
    rfl

/-- A run that fails ends with the request that failed, and keeps nothing of it. -/
theorem work_failed {resumed : Option (Session.Pending × Answer)} {r : Run σ} {message : String}
    (failed : (work setup resumed r).2 = .failed message) :
    ∃ left r', Steps setup (opening setup resumed, r) (.asking (left + 1), r') ∧
      callModel setup r'.look = ((work setup resumed r).1, .error (.failed message)) ∧
      (drive setup (followUp setup) resumed r).session = r'.session := by
  rcases (work_steps setup resumed r).cases_tail with same | ⟨x, steps, last⟩
  · cases resumed with
    | none => cases same
    | some both => cases same
  · obtain ⟨left, r', rfl, request⟩ := last.failed failed
    rw [failed] at request
    have unchanged : (callModel setup r'.look).1.session = r'.session :=
      callModel_error (congrArg Prod.snd request) (.inl (by rintro ⟨⟩))
    have ended : drive setup (followUp setup) resumed r =
        finish setup (followUp setup) (work setup resumed r).2 (work setup resumed r).1 := rfl
    refine ⟨left, r', steps, request, ?_⟩
    rw [request] at unchanged
    rw [ended, failed]
    exact unchanged

end Run

theorem Setup.summarize_failed {σ : Type} {setup : Setup σ} {s : Session} {agent : String}
    {c : Cancellation} {world : σ} {e : Error}
    (h : (setup.summarize s agent c world).outcome = .error e) :
    (setup.summarize s agent c world).session = s := by
  rcases setup.summarize_cases s agent c world with
    ⟨same, -⟩ | ⟨request, e', same, -⟩ | ⟨m, request, reading, -, whole, -⟩
  · exact same
  · exact same
  · rw [whole] at h
    cases h

/-! ## Moves -/

variable {σ : Type}

theorem Team.play_continues (t : Team σ) (s : Session) (m : Move σ) :
    s.Continues (t.play s m).session := by
  cases m with
  | say text now => exact ⟨List.prefix_append _ _, rfl⟩
  | run on =>
    simp only [Team.play]
    split
    · rename_i r ran
      obtain ⟨-, -, rfl⟩ := Setup.run_eq_ok ran
      exact Run.drive_continues _ (Run.quiet_followUp _) none rfl rfl
    · exact .refl s
  | resume on answer =>
    simp only [Team.play]
    split
    · rename_i r resumed
      obtain ⟨pending, -, rfl⟩ := Setup.resume_eq_ok resumed
      exact Run.drive_continues _ (Run.quiet_followUp _) _ rfl rfl
    · exact .refl s
  | summarize on agent => exact (on.setup t).summarize_continues s agent on.cancel on.world

/-- Sessions only grow, whatever is done with them. A request that fails, or of which nothing is
reported, leaves the session as it was, and a run that fails leaves it as it was before the request
that failed; so does a summary that fails. -/
theorem sessions_only_grow (σ : Type) :
    (∀ (t : Team σ) (s : Session) (m : Move σ), s.Continues (t.play s m).session) ∧
      (∀ (setup : Setup σ) (r : Run σ) (outcome : Outcome),
        (Run.callModel setup r).2 = .error outcome →
          outcome ≠ .cancelled ∨ (Run.callModel setup r).1.events = r.events →
            (Run.callModel setup r).1.session = r.session) ∧
      (∀ (setup : Setup σ) (resumed : Option (Session.Pending × Answer)) (r : Run σ)
        (message : String), (Run.work setup resumed r).2 = .failed message →
          ∃ left r', Run.Steps setup (Run.opening setup resumed, r) (.asking (left + 1), r') ∧
            Run.callModel setup r'.look =
              ((Run.work setup resumed r).1, .error (.failed message)) ∧
            (Run.drive setup (Run.followUp setup) resumed r).session = r'.session) ∧
      ∀ (setup : Setup σ) (s : Session) (agent : String) (c : Cancellation) (world : σ) (e : Error),
        (setup.summarize s agent c world).outcome = .error e →
          (setup.summarize s agent c world).session = s :=
  ⟨fun t s m => t.play_continues s m, fun _ _ _ h quiet => Run.callModel_error h quiet,
    fun _ _ _ _ failed => Run.work_failed failed, fun _ _ _ _ _ _ h => Setup.summarize_failed h⟩

namespace Sample

def broken : Model.Playback :=
  { turns := [.ok [.item (.ok (.text "so far")) false, .item (.error (.stream "lost")) false]] }

def setup : Setup Model.Playback := (occasion []).setup team

def begun : Run Model.Playback :=
  { session := session.addUser "go" noon, agent := "root", cancel := .never, world := broken }

end Sample

/-- A request, a run and a summary fail after some text. -/
theorem sessions_only_grow_sample :
    (Run.callModel Sample.setup Sample.begun).1.events = [.tokenDelta "root" "so far"] ∧
      (Run.callModel Sample.setup Sample.begun).1.session = Sample.begun.session ∧
      (∃ left r', Run.Steps Sample.setup (.asking 50, Sample.begun) (.asking (left + 1), r') ∧
        Run.callModel Sample.setup r'.look =
          ((Run.work Sample.setup none Sample.begun).1,
            .error (.failed ((ModelError.stream "lost").toError "sample").message)) ∧
        (Run.drive Sample.setup (Run.followUp Sample.setup) none Sample.begun).session =
          r'.session) ∧
      (Sample.setup.summarize Sample.begun.session "root" .never Sample.broken).session =
        Sample.begun.session := by
  obtain ⟨-, request, run, summary⟩ := sessions_only_grow Model.Playback
  exact ⟨rfl, request Sample.setup Sample.begun _ rfl (.inl (by rintro ⟨⟩)),
    run Sample.setup none Sample.begun _ rfl,
    summary Sample.setup Sample.begun.session "root" .never Sample.broken _ rfl⟩

end Ensemble
