import Mathlib.Data.List.Induction
import Ensemble.Jobs.Supervisor

/-!
# Histories of a supervisor

What goes on around a supervisor is a list of deeds: what processes, readers and waiters do, and
between that what callers do, in any order. Each deed is one of the library's functions
(`Supervisor.act`); which deeds can come next is up to the system (`Supervisor.Possible`).

A job only notices its own events (`job?_act`), so that what is true of it at some moment is read off
the deeds so far (`Job.Accounts`): its streams carry what was written to them, its end is the one of
its process, and it was announced only when nothing was left to read.
-/

namespace Ensemble.Jobs

namespace Supervisor

inductive Deed where
  | event (e : Event)
  | start (pid now : Nat)
  /-- Who started the job with this pid waits no longer, and it runs on in the background. -/
  | keep (job pid : Nat)
  | ask (pid now : Nat)
  | shutdown

def act (s : Supervisor) : Deed → Supervisor
  | .event e => s.apply e
  | .start pid now => s.started pid now
  | .keep i _ => ((s.conclude i .timedOut false).map (·.2)).getD s
  | .ask pid now => (s.logs pid now).2
  | .shutdown => s.shutdown.2

def after (s : Supervisor) (ds : List Deed) : Supervisor := ds.foldl act s

def kept (ds : List Deed) : List Nat :=
  ds.filterMap fun
    | .keep i _ => some i
    | _ => none

/-- What can come next. A stream is written while somebody holds its other end, a process ends once,
a new process gets the pid of none that has not been waited for, and a caller leaves its job to the
background once. -/
def Possible (s : Supervisor) (done : List Deed) : Deed → Prop
  | .event (.wrote i c _) => ∃ j ∈ s.job? i, (j.stream c).closed = false
  | .event (.ended i _) => ∃ j ∈ s.job? i, j.exit = none
  | .start pid _ => ∀ j ∈ s.jobs, j.exit = none → j.pid ≠ pid
  | .keep i pid => (∃ j ∈ s.job? i, j.pid = pid) ∧ i ∉ kept done
  | _ => True

instance (s : Supervisor) (done : List Deed) : (d : Deed) → Decidable (Possible s done d)
  | .event (.wrote i c _) => inferInstanceAs (Decidable (∃ j ∈ s.job? i, (j.stream c).closed = false))
  | .event (.ended i _) => inferInstanceAs (Decidable (∃ j ∈ s.job? i, j.exit = none))
  | .start pid _ => inferInstanceAs (Decidable (∀ j ∈ s.jobs, j.exit = none → j.pid ≠ pid))
  | .keep i pid =>
    inferInstanceAs (Decidable ((∃ j ∈ s.job? i, j.pid = pid) ∧ i ∉ kept done))
  | .event (.copied ..) | .event (.closed ..) | .event (.announced _) | .ask .. | .shutdown =>
    .isTrue trivial

/-- Every deed was possible when it came. -/
inductive Lawful (s : Supervisor) : List Deed → Prop where
  | nil : Lawful s []
  | snoc {ds : List Deed} {d : Deed} (before : Lawful s ds) (possible : Possible (s.after ds) ds d) :
      Lawful s (ds ++ [d])

variable {s : Supervisor} {ds es : List Deed} {d : Deed}

@[simp] theorem after_nil (s : Supervisor) : s.after [] = s := rfl

@[simp] theorem after_append (s : Supervisor) (ds es : List Deed) :
    s.after (ds ++ es) = (s.after ds).after es := List.foldl_append

@[simp] theorem after_cons (s : Supervisor) (d : Deed) (ds : List Deed) :
    s.after (d :: ds) = (s.act d).after ds := rfl

theorem after_snoc (s : Supervisor) (ds : List Deed) (d : Deed) :
    s.after (ds ++ [d]) = (s.after ds).act d := by
  rw [after_append, after_cons, after_nil]

theorem Lawful.last (h : Lawful s (ds ++ [d])) : Lawful s ds ∧ Possible (s.after ds) ds d := by
  generalize whole : ds ++ [d] = all at h
  cases h with
  | nil => simp at whole
  | snoc before possible =>
    obtain ⟨rfl, same⟩ := List.append_inj' whole rfl
    cases same
    exact ⟨before, possible⟩

theorem Lawful.of_append (h : Lawful s (ds ++ es)) : Lawful s ds := by
  induction es using List.reverseRecOn with
  | nil => rwa [List.append_nil] at h
  | append_singleton es d ih =>
    rw [← List.append_assoc] at h
    exact ih h.last.1

theorem lawful_of_possible
    (h : ∀ n, (inside : n < ds.length) → Possible (s.after (ds.take n)) (ds.take n) ds[n]) :
    Lawful s ds := by
  have first (n : Nat) (inside : n ≤ ds.length) : Lawful s (ds.take n) := by
    induction n with
    | zero => exact .nil
    | succ n ih =>
      rw [List.take_succ_eq_append_getElem inside]
      exact (ih (Nat.le_of_succ_le inside)).snoc (h n inside)
  have all := first ds.length (Nat.le_refl _)
  rwa [List.take_length] at all

theorem Lawful.possible (h : Lawful s (ds ++ d :: es)) : Possible (s.after ds) ds d := by
  rw [List.append_cons] at h
  exact h.of_append.last.2

theorem kept_append (ds es : List Deed) : kept (ds ++ es) = kept ds ++ kept es :=
  List.filterMap_append

theorem mem_kept {i : Nat} : i ∈ kept ds ↔ ∃ pid, Deed.keep i pid ∈ ds := by
  simp only [kept, List.mem_filterMap]
  constructor
  · rintro ⟨d, among, same⟩
    split at same
    · cases same
      exact ⟨_, among⟩
    · cases same
  · rintro ⟨pid, among⟩
    exact ⟨_, among, rfl⟩

end Supervisor

/-! ## What a job notices -/

namespace Stream

theorem copied_write (s : Stream) (bytes : List UInt8) : (s.write bytes).copied = s.copied := by
  unfold write
  split <;> rfl

theorem written_write (s : Stream) (bytes : List UInt8) (opened : s.closed = false) :
    (s.write bytes).written = s.written ++ bytes := by
  simp [write, written, opened]

theorem written_copy (s : Stream) (count : Nat) : (s.copy count).written = s.written := by
  simp [copy, written]

theorem isFinished_iff {s : Stream} : s.isFinished = true ↔ s.closed = true ∧ s.waiting = [] := by
  simp [isFinished]

theorem written_of_isFinished {s : Stream} (h : s.isFinished = true) : s.written = s.copied := by
  rw [written, (isFinished_iff.mp h).2, List.append_nil]

theorem write_of_isFinished (s : Stream) (h : s.isFinished = true) (bytes : List UInt8) :
    s.write bytes = s := by
  rw [write, if_pos (isFinished_iff.mp h).1]

theorem copy_of_isFinished (s : Stream) (h : s.isFinished = true) (count : Nat) :
    s.copy count = s := by
  obtain ⟨copied, waiting, closed⟩ := s
  obtain ⟨-, rfl⟩ := isFinished_iff.mp h
  simp [copy]

theorem close_of_isFinished (s : Stream) (h : s.isFinished = true) : s.close = s := by
  obtain ⟨copied, waiting, closed⟩ := s
  obtain ⟨rfl, -⟩ := isFinished_iff.mp h
  rfl

end Stream

def Event.job : Event → Nat
  | .wrote i _ _ => i
  | .copied i _ _ => i
  | .closed i _ => i
  | .ended i _ => i
  | .announced i => i

namespace Job

open Supervisor (Deed)

def react (j : Job) : Event → Job
  | .wrote _ c bytes => j.onStream c (·.write bytes)
  | .copied _ c count => j.onStream c (·.copy count)
  | .closed _ c => j.onStream c .close
  | .ended _ exit => Supervisor.endJob exit j
  | .announced _ => { j with announced := j.announced.or j.ready? }

def notice (i : Nat) (j : Job) : Deed → Job
  | .event e => if e.job = i then j.react e else j
  | _ => j

variable {i : Nat} {j : Job} {d : Deed} {c : Channel}

theorem stream_onStream (j : Job) (c c' : Channel) (f : Stream → Stream) :
    (j.onStream c f).stream c' = if c' = c then f (j.stream c') else j.stream c' := by
  cases c <;> cases c' <;> rfl

theorem ready?_eq_some {exit : Exit} :
    j.ready? = some exit ↔ (∀ c, (j.stream c).isFinished = true) ∧ j.exit = some exit := by
  have all : (∀ c, (j.stream c).isFinished = true) ↔
      j.stdout.isFinished = true ∧ j.stderr.isFinished = true :=
    ⟨fun h => ⟨h .stdout, h .stderr⟩, fun h c => by cases c; exacts [h.1, h.2]⟩
  rw [all, ready?]
  split
  · rename_i finished
    simp only [Bool.and_eq_true] at finished
    simp [finished]
  · rename_i unfinished
    simp only [Bool.and_eq_true] at unfinished
    simp [unfinished]

/-- A job some time later. Whatever is known of it stays so; its streams may bring more, until they
were read to their end. -/
structure Follows (j j' : Job) : Prop where
  pid : j'.pid = j.pid
  started : j'.started = j.started
  exit : ∀ e, j.exit = some e → j'.exit = some e
  announced : ∀ e, j.announced = some e → j'.announced = some e
  copied : ∀ c, (j.stream c).copied <+: (j'.stream c).copied
  finished : ∀ c, (j.stream c).isFinished = true → j'.stream c = j.stream c

theorem Follows.refl (j : Job) : j.Follows j where
  pid := rfl
  started := rfl
  exit _ h := h
  announced _ h := h
  copied _ := List.prefix_refl _
  finished _ _ := rfl

theorem Follows.trans {j j' j'' : Job} (h : j.Follows j') (h' : j'.Follows j'') : j.Follows j'' where
  pid := h'.pid.trans h.pid
  started := h'.started.trans h.started
  exit e known := h'.exit e (h.exit e known)
  announced e known := h'.announced e (h.announced e known)
  copied c := (h.copied c).trans (h'.copied c)
  finished c done := by
    have same := h.finished c done
    rw [h'.finished c (by rwa [same]), same]

theorem follows_onStream (j : Job) (c : Channel) {f : Stream → Stream}
    (grows : ∀ s, s.copied <+: (f s).copied) (rests : ∀ s, s.isFinished = true → f s = s) :
    j.Follows (j.onStream c f) where
  pid := by cases c <;> rfl
  started := by cases c <;> rfl
  exit _ h := by cases c <;> exact h
  announced _ h := by cases c <;> exact h
  copied c' := by
    rw [stream_onStream]
    split
    · exact grows _
    · exact List.prefix_refl _
  finished c' done := by rw [stream_onStream, rests _ done, ite_self]

theorem follows_react (j : Job) (e : Event) : j.Follows (j.react e) := by
  cases e with
  | wrote _ c bytes =>
    exact j.follows_onStream c (fun s => s.copied_write bytes ▸ List.prefix_refl _)
      fun s done => s.write_of_isFinished done bytes
  | copied _ c count =>
    exact j.follows_onStream c (fun s => List.prefix_append _ _)
      fun s done => s.copy_of_isFinished done count
  | closed _ c =>
    exact j.follows_onStream c (fun s => List.prefix_refl _) fun s done => s.close_of_isFinished done
  | ended _ exit =>
    refine { Follows.refl j with exit := fun e known => ?_ }
    simp only [react, Supervisor.endJob, known, Option.some_or]
  | announced =>
    refine { Follows.refl j with announced := fun e known => ?_ }
    simp only [react, known, Option.some_or]

theorem follows_notice (j : Job) (i : Nat) (d : Deed) : j.Follows (j.notice i d) := by
  cases d with
  | event e =>
    rw [notice]
    split
    · exact j.follows_react e
    · exact .refl j
  | _ => exact .refl j

end Job

namespace Supervisor

variable {s : Supervisor} {ds es : List Deed} {d : Deed} {i : Nat} {j : Job}

theorem job?_onJob (s : Supervisor) (k i : Nat) (f : Job → Job) :
    (s.onJob k f).job? i = (s.job? i).map fun j => if k = i then f j else j := by
  simp only [onJob, job?, List.getElem?_modify]
  rfl

theorem jobs_keep (s : Supervisor) (i pid : Nat) : (s.act (.keep i pid)).jobs = s.jobs := by
  simp only [act, conclude]
  cases s.job? i <;> rfl

theorem jobs_ask (s : Supervisor) (pid now : Nat) : (s.act (.ask pid now)).jobs = s.jobs := by
  simp only [act, logs]
  split
  · rfl
  · split <;> rfl

theorem job?_announce (s : Supervisor) (k i : Nat) :
    (s.announce k).job? i =
      (s.job? i).map fun j => if k = i then j.react (.announced k) else j := by
  by_cases same : k = i
  · subst same
    unfold announce
    cases here : s.job? k with
    | none => simp [here]
    | some j =>
      have still (same : j.announced.or j.ready? = j.announced) : j.react (.announced k) = j := by
        rw [Job.react, same]
      cases told : j.announced with
      | some exit => simp [here, told, still (by rw [told, Option.some_or])]
      | none =>
        cases ready : j.ready? with
        | none => simp [here, told, ready, still (by rw [told, ready, Option.none_or])]
        | some exit =>
          simp only [told, ready]
          refine (job?_onJob s k k _).trans ?_
          simp [here, Job.react, told, ready]
  · have other : (s.announce k).job? i = s.job? i := by
      unfold announce
      split
      · rfl
      · split
        · refine (job?_onJob s k i _).trans ?_
          simp [same]
        · rfl
    simp [other, same]

theorem job?_apply (s : Supervisor) (e : Event) (i : Nat) :
    (s.apply e).job? i = (s.job? i).map fun j => j.notice i (.event e) := by
  cases e with
  | announced k => exact job?_announce s k i
  | _ => exact job?_onJob s _ i _

/-- A job notices its own events, and nothing else. -/
theorem job?_act (h : s.job? i = some j) (d : Deed) : (s.act d).job? i = some (j.notice i d) := by
  cases d with
  | event e => rw [act, job?_apply, h, Option.map_some]
  | start pid now =>
    have inside : i < s.jobs.length := (List.getElem?_eq_some_iff.mp h).1
    exact (List.getElem?_append_left inside).trans h
  | keep k pid => rwa [job?, jobs_keep]
  | ask pid now => rwa [job?, jobs_ask]
  | shutdown => exact h

theorem started_of_act (nobody : s.job? i = none) (h : (s.act d).job? i = some j) :
    i = s.jobs.length ∧ ∃ pid now, d = .start pid now ∧ j = { pid, started := now } := by
  cases d with
  | event e =>
    rw [act, job?_apply, nobody] at h
    cases h
  | start pid now =>
    have outside : s.jobs.length ≤ i := List.getElem?_eq_none_iff.mp nobody
    have new : [({ pid, started := now } : Job)][i - s.jobs.length]? = some j :=
      (List.getElem?_append_right outside).symm.trans h
    obtain ⟨inside, same⟩ := List.getElem?_eq_some_iff.mp new
    have first : i - s.jobs.length = 0 := by simpa using inside
    simp only [first, List.getElem_cons_zero] at same
    exact ⟨by omega, pid, now, rfl, same.symm⟩
  | keep k pid =>
    rw [job?, jobs_keep] at h
    cases nobody.symm.trans h
  | ask pid now =>
    rw [job?, jobs_ask] at h
    cases nobody.symm.trans h
  | shutdown => cases nobody.symm.trans h

theorem job?_after (h : s.job? i = some j) (ds : List Deed) :
    ∃ j', (s.after ds).job? i = some j' ∧ j.Follows j' := by
  induction ds generalizing s j with
  | nil => exact ⟨j, h, .refl j⟩
  | cons d ds ih =>
    obtain ⟨j', there, follows⟩ := ih (job?_act h d)
    exact ⟨j', there, (j.follows_notice i d).trans follows⟩

theorem job?_none_of_after (h : (s.after (ds ++ es)).job? i = none) :
    (s.after ds).job? i = none := by
  cases here : (s.after ds).job? i with
  | none => rfl
  | some j =>
    obtain ⟨j', there, -⟩ := job?_after here es
    rw [after_append, there] at h
    cases h

/-! ## What the deeds tell of a job -/

def Deed.bytes (i : Nat) (c : Channel) : Deed → List UInt8
  | .event (.wrote k c' bytes) => if k = i ∧ c' = c then bytes else []
  | _ => []

def writtenIn (i : Nat) (c : Channel) (ds : List Deed) : List UInt8 := ds.flatMap (Deed.bytes i c)

theorem writtenIn_snoc (i : Nat) (c : Channel) (ds : List Deed) (d : Deed) :
    writtenIn i c (ds ++ [d]) = writtenIn i c ds ++ d.bytes i c := by
  simp [writtenIn]

end Supervisor

namespace Job

open Supervisor (Deed writtenIn)

/-- What is known of the job with an index after some deeds. -/
structure Accounts (j : Job) (i : Nat) (ds : List Deed) : Prop where
  written : ∀ c, (j.stream c).written = writtenIn i c ds
  exit : ∀ e, j.exit = some e ↔ Deed.event (.ended i e) ∈ ds
  announced : ∀ e, j.announced = some e → j.ready? = some e

variable {i : Nat} {j : Job} {ds : List Deed} {d : Deed}

theorem Follows.ready {j' : Job} (h : j.Follows j') {e : Exit} (ready : j.ready? = some e) :
    j'.ready? = some e := by
  obtain ⟨finished, ended⟩ := ready?_eq_some.mp ready
  refine ready?_eq_some.mpr ⟨fun c => ?_, h.exit e ended⟩
  rw [h.finished c (finished c)]
  exact finished c

theorem written_notice
    (opened : ∀ c bytes, d = .event (.wrote i c bytes) → (j.stream c).closed = false) (c : Channel) :
    ((j.notice i d).stream c).written = (j.stream c).written ++ d.bytes i c := by
  cases d with
  | event e =>
    by_cases mine : e.job = i
    · subst mine
      cases e with
      | wrote k c' bytes =>
        simp only [notice, react, stream_onStream, Event.job, Deed.bytes, if_true, true_and]
        by_cases same : c = c'
        · subst same
          rw [if_pos rfl, if_pos rfl, Stream.written_write _ _ (opened c bytes rfl)]
        · rw [if_neg same, if_neg (Ne.symm same), List.append_nil]
      | copied k c' count =>
        simp only [notice, react, stream_onStream, if_true, Deed.bytes, List.append_nil]
        split
        · exact Stream.written_copy _ _
        · rfl
      | closed k c' =>
        simp only [notice, react, stream_onStream, if_true, Deed.bytes, List.append_nil]
        split <;> rfl
      | ended | announced =>
        simp only [notice, if_true, Deed.bytes, List.append_nil]
        cases c <;> rfl
    · have nothing : (Deed.event e).bytes i c = [] := by
        cases e with
        | wrote k c' bytes => exact if_neg fun same => mine same.1
        | _ => rfl
      rw [notice, if_neg mine, nothing, List.append_nil]
  | _ => exact (List.append_nil _).symm

theorem exit_notice (alive : ∀ e, d = .event (.ended i e) → j.exit = none) (e : Exit) :
    (j.notice i d).exit = some e ↔ j.exit = some e ∨ d = .event (.ended i e) := by
  cases d with
  | event event =>
    by_cases mine : event.job = i
    · subst mine
      simp only [notice, if_true]
      cases event with
      | ended k exit =>
        have silent := alive exit rfl
        simp [react, Supervisor.endJob, silent, Event.job]
      | wrote k c | copied k c | closed k c => cases c <;> simp [react, onStream]
      | announced k => simp [react]
    · have other : event ≠ .ended i e := by
        rintro rfl
        exact mine rfl
      simp [notice, if_neg mine, other]
  | _ => simp [notice]

theorem announced_notice {e : Exit} (h : (j.notice i d).announced = some e) :
    j.announced = some e ∨ j.announced = none ∧ j.ready? = some e := by
  cases d with
  | event event =>
    simp only [notice] at h
    split at h
    · cases event with
      | announced k =>
        cases known : j.announced with
        | some exit => exact .inl (by simpa [react, known] using h)
        | none => exact .inr ⟨rfl, by simpa [react, known] using h⟩
      | wrote k c | copied k c | closed k c => cases c <;> exact .inl h
      | ended => exact .inl h
    · exact .inl h
  | _ => exact .inl h

theorem Accounts.notice (h : j.Accounts i ds)
    (opened : ∀ c bytes, d = .event (.wrote i c bytes) → (j.stream c).closed = false)
    (alive : ∀ e, d = .event (.ended i e) → j.exit = none) :
    (j.notice i d).Accounts i (ds ++ [d]) where
  written c := by
    rw [written_notice opened, h.written c, Supervisor.writtenIn_snoc]
  exit e := by
    rw [exit_notice alive, h.exit e, List.mem_append, List.mem_singleton, eq_comm (a := d)]
  announced e known := by
    refine (j.follows_notice i d).ready ?_
    rcases announced_notice known with before | ⟨-, now⟩
    · exact h.announced e before
    · exact now

theorem Accounts.finished {e : Exit} (h : j.Accounts i ds) (told : j.announced = some e)
    (c : Channel) : (j.stream c).isFinished = true :=
  (ready?_eq_some.mp (h.announced e told)).1 c

/-- Who was told of the end reads everything that was written. -/
theorem Accounts.copied_of_announced {e : Exit} (h : j.Accounts i ds) (told : j.announced = some e)
    (c : Channel) : (j.stream c).copied = writtenIn i c ds := by
  rw [← h.written c, Stream.written_of_isFinished (h.finished told c)]

theorem Accounts.ended_of_announced {e : Exit} (h : j.Accounts i ds) (told : j.announced = some e) :
    Deed.event (.ended i e) ∈ ds :=
  (h.exit e).mp (ready?_eq_some.mp (h.announced e told)).2

end Job

namespace Supervisor

variable {s : Supervisor} {ds es : List Deed} {d : Deed} {i : Nat} {j : Job}

theorem Lawful.silent (h : Lawful s ds) (nobody : (s.after ds).job? i = none) :
    (∀ c, writtenIn i c ds = []) ∧ ∀ exit, Deed.event (.ended i exit) ∉ ds := by
  induction h with
  | nil => exact ⟨fun c => rfl, by simp⟩
  | @snoc ds d before possible ih =>
    have nobody' := job?_none_of_after nobody
    obtain ⟨nothing, never⟩ := ih nobody'
    constructor
    · intro c
      rw [writtenIn_snoc, nothing c, List.nil_append]
      unfold Deed.bytes
      split
      · split
        · rename_i same
          obtain ⟨rfl, rfl⟩ := same
          obtain ⟨j, here, -⟩ := possible
          cases nobody'.symm.trans here
        · rfl
      · rfl
    · intro exit among
      rcases List.mem_append.mp among with old | new
      · exact never exit old
      · cases List.mem_singleton.mp new
        obtain ⟨j, here, -⟩ := possible
        cases nobody'.symm.trans here

theorem Lawful.accounts (empty : s.jobs = []) (h : Lawful s ds)
    (here : (s.after ds).job? i = some j) : j.Accounts i ds := by
  induction h generalizing j with
  | nil =>
    have inside := (List.getElem?_eq_some_iff.mp here).1
    simp [empty] at inside
  | @snoc ds d before possible ih =>
    rw [after_snoc] at here
    -- The job was started just now, with nothing said of it so far, or the deed adds to it.
    cases there : (s.after ds).job? i with
    | none =>
      obtain ⟨-, pid, now, rfl, rfl⟩ := started_of_act there here
      obtain ⟨nothing, never⟩ := before.silent there
      constructor
      · intro c
        rw [writtenIn_snoc, nothing c]
        cases c <;> rfl
      · intro e
        constructor
        · intro known
          cases known
        · intro among
          rcases List.mem_append.mp among with old | new
          · exact (never e old).elim
          · cases List.mem_singleton.mp new
      · intro e known
        cases known
    | some j₀ =>
      cases (job?_act there d).symm.trans here
      refine (ih there).notice ?_ ?_
      · rintro c bytes rfl
        obtain ⟨j', same, opened⟩ := possible
        cases there.symm.trans same
        exact opened
      · rintro e rfl
        obtain ⟨j', same, alive⟩ := possible
        cases there.symm.trans same
        exact alive

end Supervisor

end Ensemble.Jobs
