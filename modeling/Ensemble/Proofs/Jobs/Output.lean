import Ensemble.Proofs.Jobs.Histories

/-!
# The output that results show

Callers look at a job while its process writes, its readers copy and its waiter waits. What a result
shows of a stream is what was copied when the caller read it. Whoever has learned of the end reads all
that the process ever wrote, however long the streams outlived the process; before that each
look shows at least what an earlier one showed (`observed_output`).
-/

namespace Ensemble.Jobs.Supervisor

open Text.Utf8 (decodeLossy)

def copied (s : Supervisor) (i : Nat) (c : Channel) : List UInt8 :=
  ((s.job? i).map fun j => (j.stream c).copied).getD []

/-- A result of a call about a job: its end, if that is told, and its output. The caller may have
started the job, or ask for the one that is in the background under a pid. -/
inductive Reports (s : Supervisor) (i : Nat) : Option Exit → Output → Prop where
  | completed {requested : Bool} {exit : Exit} {output : Output} {s' : Supervisor}
      (result : s.conclude i .completed requested = some (.completed exit output, s')) :
      Reports s i (some exit) output
  | background {wake : Wake} {requested requested' : Bool} {pid : Nat} {output : Output}
      {s' : Supervisor}
      (result : s.conclude i wake requested = some (.background pid output requested', s')) :
      Reports s i none output
  | ended {pid now : Nat} {exit : Exit} {output : Output} {s' : Supervisor}
      (held : s.background.lookup pid = some i)
      (result : s.logs pid now = (.completed exit output, s')) : Reports s i (some exit) output
  | running {pid now elapsed : Nat} {output : Output} {s' : Supervisor}
      (held : s.background.lookup pid = some i)
      (result : s.logs pid now = (.running output elapsed, s')) : Reports s i none output

variable {s : Supervisor} {ds d₁ d₂ d₃ : List Deed} {i pid now : Nat} {j : Job} {c : Channel}
  {e : Option Exit} {output : Output}

theorem copied_eq (here : s.job? i = some j) : s.copied i c = (j.stream c).copied := by
  rw [copied, here]
  rfl

theorem conclude_of_job (here : s.job? i = some j) (wake : Wake) (requested : Bool) :
    s.conclude i wake requested =
      match wake, j.announced with
      | .cancelled, _ => some (.interrupted j.output, s)
      | .completed, some exit => some (.completed exit j.output, s)
      | _, _ => some (.background j.pid j.output requested, s.keep i j) := by
  cases wake <;> cases told : j.announced <;> simp only [conclude, here, told]

theorem logs_of_held (held : s.background.lookup pid = some i) (here : s.job? i = some j) :
    s.logs pid now =
      match j.announced with
      | none => (.running j.output (now - j.started), s)
      | some exit =>
        (.completed exit j.output,
          { s with background := s.background.filter fun e => e.1 != pid }) := by
  cases told : j.announced <;> simp only [logs, held, Option.bind_some, here, told]

theorem Reports.job (h : Reports s i e output) :
    ∃ j, s.job? i = some j ∧ output = j.output ∧ ∀ exit, e = some exit → j.announced = some exit := by
  cases found : s.job? i with
  | none =>
    cases h with
    | completed result | background result =>
      rw [conclude, found] at result
      cases result
    | ended held result | running held result =>
      rw [logs, held, Option.bind_some, found] at result
      cases result
  | some j =>
    refine ⟨j, rfl, ?_⟩
    -- Whether the end of the job is announced decides which reports there can be.
    cases told : j.announced with
    | none =>
      cases h with
      | completed result =>
        rw [conclude_of_job found, told] at result
        cases result
      | @background wake _ _ _ _ _ result =>
        rw [conclude_of_job found, told] at result
        cases wake <;> cases result
        all_goals exact ⟨rfl, fun _ never => by cases never⟩
      | ended held result =>
        rw [logs_of_held held found, told] at result
        cases result
      | running held result =>
        rw [logs_of_held held found, told] at result
        cases result
        exact ⟨rfl, fun _ never => by cases never⟩
    | some exit =>
      cases h with
      | completed result =>
        rw [conclude_of_job found, told] at result
        cases result
        exact ⟨rfl, fun _ same => same⟩
      | @background wake _ _ _ _ _ result =>
        rw [conclude_of_job found, told] at result
        cases wake <;> cases result
        exact ⟨rfl, fun _ never => by cases never⟩
      | ended held result =>
        rw [logs_of_held held found, told] at result
        cases result
        exact ⟨rfl, fun _ same => same⟩
      | running held result =>
        rw [logs_of_held held found, told] at result
        cases result

theorem copied_prefix (s : Supervisor) (ds : List Deed) (i : Nat) (c : Channel) :
    s.copied i c <+: (s.after ds).copied i c := by
  cases here : s.job? i with
  | none =>
    have nothing : s.copied i c = [] := by rw [copied, here]; rfl
    rw [nothing]
    exact List.nil_prefix
  | some j =>
    obtain ⟨j', there, follows⟩ := job?_after here ds
    rw [copied_eq here, copied_eq there]
    exact follows.copied c

/-- What was copied of a stream at the announcement is all that is ever written to it. -/
theorem copied_of_announced (empty : s.jobs = []) (h : Lawful s (d₁ ++ d₂))
    (here : (s.after d₁).job? i = some j) {exit : Exit} (told : j.announced = some exit)
    (c : Channel) : (s.after d₁).copied i c = writtenIn i c (d₁ ++ d₂) := by
  have finished := (h.of_append.accounts empty here).finished told c
  obtain ⟨j', there, follows⟩ := job?_after here d₂
  rw [← after_append] at there
  have all := (h.accounts empty there).copied_of_announced (follows.announced exit told) c
  rw [copied_eq here, ← all, follows.finished c finished]

/-- Reads of a stream only bring more, from whatever deeds lie between them, and the output of a
result is what was read. Once a result tells of the end, from this moment on every read brings all that
the process writes in the whole history. -/
theorem observed_output {quickTimeout : Nat} (h : Lawful { quickTimeout } (d₁ ++ d₂ ++ d₃))
    (i : Nat) :
    let first := after { quickTimeout } d₁
    let later := after { quickTimeout } (d₁ ++ d₂)
    (∀ c, first.copied i c <+: later.copied i c) ∧
      ∀ e output, Reports first i e output →
        output = ⟨decodeLossy (first.copied i .stdout), decodeLossy (first.copied i .stderr)⟩ ∧
        (e.isSome → ∀ c, first.copied i c = writtenIn i c (d₁ ++ d₂ ++ d₃) ∧
          later.copied i c = writtenIn i c (d₁ ++ d₂ ++ d₃)) := by
  refine ⟨fun c => ?_, fun e output report => ?_⟩
  · rw [after_append]
    exact copied_prefix _ d₂ i c
  · obtain ⟨j, here, rfl, told⟩ := report.job
    constructor
    · rw [copied_eq here, copied_eq here]
      rfl
    · intro ends c
      obtain ⟨exit, rfl⟩ := Option.isSome_iff_exists.mp ends
      obtain ⟨j', there, follows⟩ := job?_after here d₂
      rw [← after_append] at there
      have later := copied_of_announced rfl h there (follows.announced exit (told exit rfl)) c
      rw [List.append_assoc] at h ⊢
      exact ⟨copied_of_announced rfl h here (told exit rfl) c, by rwa [List.append_assoc] at later⟩

/-- A process ends before its reader has copied all that it wrote. Its waiter looks too early first. -/
def lagging : List Deed :=
  [.start 7 0, .keep 0 7, .event (.wrote 0 .stdout [65, 66]), .event (.copied 0 .stdout 1),
    .event (.ended 0 (.exited 3)), .event (.announced 0), .event (.closed 0 .stdout),
    .event (.copied 0 .stdout 1), .event (.closed 0 .stderr), .event (.announced 0)]

theorem lawful_lagging : Lawful {} lagging := lawful_of_possible (by decide)

theorem observed_output_lagging :
    Reports (after {} (lagging.take 6)) 0 none ⟨"A", ""⟩ ∧
      Reports (after {} lagging) 0 (some (.exited 3)) ⟨"AB", ""⟩ ∧
      (after {} (lagging.take 6)).copied 0 .stdout <+: (after {} lagging).copied 0 .stdout ∧
      (after {} lagging).copied 0 .stdout = writtenIn 0 .stdout lagging := by
  have held : (after {} (lagging.take 6)).background.lookup 7 = some 0 := rfl
  have held' : (after {} lagging).background.lookup 7 = some 0 := rfl
  have asked : (after {} (lagging.take 6)).logs 7 9 = (.running ⟨"A", ""⟩ 9, _) := rfl
  have asked' : (after {} lagging).logs 7 9 = (.completed (.exited 3) ⟨"AB", ""⟩, _) := rfl
  have early : Lawful {} (lagging.take 6 ++ lagging.drop 6 ++ []) := lawful_lagging
  have late : Lawful {} (lagging ++ [] ++ []) := lawful_lagging
  have told := (observed_output late 0).2 _ _ (.ended held' asked')
  exact ⟨.running held asked, .ended held' asked', (observed_output early 0).1 .stdout,
    (told.2 rfl .stdout).1⟩

end Ensemble.Jobs.Supervisor
