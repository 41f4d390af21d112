import Ensemble.Proofs.Jobs.Output

/-!
# Commands in the background

The table has one entry for each pid. An entry leaves it in two ways: somebody asks for the pid after
the end was announced, and is told of it (`Collected`), or another job with this pid moves to the
background. The system may give a pid away again as soon as its process was waited for, so the second
can happen to an entry whose end nobody was told yet. Unless it does, asking tells that the job
is running until its end is announced, then once of its end, and then of nothing (`background_told`).
-/

namespace Ensemble.Jobs.Supervisor

variable {s : Supervisor} {ds es : List Deed} {d : Deed} {i k pid now : Nat} {j : Job}

/-! ## The table -/

theorem lookup_filter_ne {β : Type} (table : List (Nat × β)) (pid q : Nat) :
    (table.filter fun e => e.1 != q).lookup pid = if pid = q then none else table.lookup pid := by
  induction table with
  | nil => simp
  | cons entry table ih =>
    obtain ⟨key, value⟩ := entry
    rw [List.filter_cons]
    by_cases removed : key = q
    · subst removed
      simp only [bne_self_eq_false, Bool.false_eq_true, if_false, ih, List.lookup_cons]
      split
      · rfl
      · rename_i other
        rw [beq_false_of_ne other]
    · have stays : (key != q) = true := by simpa using removed
      simp only [stays, if_true, List.lookup_cons, ih]
      by_cases found : pid = key
      · subst found
        simp [removed]
      · simp [beq_false_of_ne found]

theorem lookup_keep (here : s.job? k = some j) (q : Nat) :
    (s.act (.keep k q)).background.lookup pid =
      if pid = j.pid then some k else s.background.lookup pid := by
  have moved : (s.act (.keep k q)).background =
      s.background.filter (fun e => e.1 != j.pid) ++ [(j.pid, k)] := by
    simp only [act, conclude_of_job here]
    rfl
  rw [moved, List.lookup_append, lookup_filter_ne]
  split
  · rename_i same
    subst same
    simp
  · rename_i other
    simp [List.lookup_cons, beq_false_of_ne other]

theorem lookup_ask (q now : Nat) :
    (s.act (.ask q now)).background.lookup pid =
      if pid = q ∧ (∃ i ∈ s.background.lookup q, ∃ j ∈ s.job? i, j.announced.isSome) then none
      else s.background.lookup pid := by
  rw [act]
  cases held : s.background.lookup q with
  | none => simp [logs, held]
  | some i =>
    cases here : s.job? i with
    | none => simp [logs, held, here]
    | some j =>
      rw [logs_of_held held here]
      cases told : j.announced with
      | none => simp [here, told]
      | some exit => simp [lookup_filter_ne, here, told]

theorem background_event (e : Event) : (s.act (.event e)).background = s.background := by
  cases e with
  | announced k =>
    simp only [act, apply, announce]
    split
    · rfl
    · split <;> rfl
  | _ => rfl

/-- An entry changes only when somebody asks for its pid, or a job with this pid is kept. -/
theorem lookup_act (possible : Possible s ds d) (unasked : ∀ now, d ≠ .ask pid now)
    (unkept : ∀ k, d ≠ .keep k pid) :
    (s.act d).background.lookup pid = s.background.lookup pid := by
  cases d with
  | event e => rw [background_event]
  | keep k q =>
    obtain ⟨⟨j, here, rfl⟩, -⟩ := possible
    rw [lookup_keep here, if_neg]
    rintro rfl
    exact unkept k rfl
  | ask q now =>
    rw [lookup_ask, if_neg]
    rintro ⟨rfl, -⟩
    exact unasked now rfl
  | start | shutdown => rfl

theorem lookup_of_act (h : (s.act d).background.lookup pid = some i) :
    s.background.lookup pid = some i ∨
      (∃ q, d = .keep i q) ∧ ∃ j, s.job? i = some j ∧ j.pid = pid := by
  cases d with
  | event e =>
    rw [background_event] at h
    exact .inl h
  | keep k q =>
    cases here : s.job? k with
    | none =>
      have stays : s.act (.keep k q) = s := by rw [act, conclude, here]; rfl
      rw [stays] at h
      exact .inl h
    | some j =>
      rw [lookup_keep here] at h
      split at h
      · rename_i same
        cases h
        exact .inr ⟨⟨q, rfl⟩, j, here, same.symm⟩
      · exact .inl h
  | ask q now =>
    rw [lookup_ask] at h
    split at h
    · cases h
    · exact .inl h
  | start | shutdown => exact .inl h

theorem held_job (empty : s.background = []) (ds : List Deed)
    (held : (s.after ds).background.lookup pid = some i) :
    i ∈ kept ds ∧ ∃ j, (s.after ds).job? i = some j ∧ j.pid = pid := by
  induction ds using List.reverseRecOn with
  | nil =>
    rw [after_nil, empty] at held
    cases held
  | append_singleton ds d ih =>
    rw [after_snoc] at held ⊢
    rw [kept_append, List.mem_append]
    have persists {j : Job} (here : (s.after ds).job? i = some j) (same : j.pid = pid) :
        ∃ j, ((s.after ds).act d).job? i = some j ∧ j.pid = pid :=
      ⟨_, job?_act here d, (j.follows_notice i d).pid.trans same⟩
    rcases lookup_of_act held with before | ⟨⟨q, rfl⟩, j, here, same⟩
    · obtain ⟨among, j, here, same⟩ := ih before
      exact ⟨.inl among, persists here same⟩
    · exact ⟨.inr (mem_kept.mpr ⟨q, .head _⟩), persists here same⟩

theorem Lawful.not_held (h : Lawful s (ds ++ es)) (moved : i ∈ kept ds)
    (gone : ∀ pid, (s.after ds).background.lookup pid ≠ some i) (pid : Nat) :
    (s.after (ds ++ es)).background.lookup pid ≠ some i := by
  induction es using List.reverseRecOn generalizing pid with
  | nil =>
    rw [List.append_nil]
    exact gone pid
  | append_singleton es d ih =>
    rw [← List.append_assoc] at h ⊢
    obtain ⟨before, possible⟩ := h.last
    rw [after_snoc]
    intro held
    rcases lookup_of_act held with there | ⟨⟨q, rfl⟩, -⟩
    · exact ih before pid there
    · refine possible.2 ?_
      rw [kept_append]
      exact List.mem_append_left _ moved

/-! ## Pids that are given again -/

/-- Of two jobs with one pid the first had been waited for before the other was started. -/
theorem Lawful.ended_of_pid (empty : s.jobs = []) (h : Lawful s ds) (order : i < k) {j j' : Job}
    (first : (s.after ds).job? i = some j) (second : (s.after ds).job? k = some j')
    (same : j.pid = j'.pid) : ∃ exit, j.exit = some exit := by
  induction h generalizing j j' with
  | nil =>
    have inside := (List.getElem?_eq_some_iff.mp first).1
    simp [empty] at inside
  | @snoc ds d before possible ih =>
    rw [after_snoc] at first second
    have inside : i < (s.after ds).jobs.length := by
      cases there : (s.after ds).job? k with
      | some j₁ => exact Nat.lt_trans order (List.getElem?_eq_some_iff.mp there).1
      | none => exact (started_of_act there second).1 ▸ order
    obtain ⟨j₀, here⟩ : ∃ j₀, (s.after ds).job? i = some j₀ := ⟨_, List.getElem?_eq_getElem inside⟩
    cases (job?_act here d).symm.trans first
    have follows := j₀.follows_notice i d
    -- Only the start of the second job says anything new: its pid is of no process that still runs.
    cases there : (s.after ds).job? k with
    | some j₁ =>
      cases (job?_act there d).symm.trans second
      have pids := (j₁.follows_notice k d).pid
      obtain ⟨exit, ended⟩ := ih here there (by rw [← follows.pid, same, pids])
      exact ⟨exit, follows.exit exit ended⟩
    | none =>
      obtain ⟨-, pid, now, rfl, rfl⟩ := started_of_act there second
      cases ended : j₀.exit with
      | some exit => exact ⟨exit, follows.exit exit ended⟩
      | none =>
        have fresh := possible j₀ (List.mem_of_getElem? here) ended
        exact (fresh (follows.pid.symm.trans same)).elim

/-! ## From the moment on when a job was kept -/

def Collected (s : Supervisor) (i pid : Nat) (ds : List Deed) : Prop :=
  ∃ before now rest, ds = before ++ .ask pid now :: rest ∧
    ∃ j ∈ (s.after before).job? i, j.announced.isSome

def Replaced (pid : Nat) (ds : List Deed) : Prop := ∃ k, Deed.keep k pid ∈ ds

theorem collected_snoc :
    Collected s i pid (ds ++ [d]) ↔
      Collected s i pid ds ∨
        (∃ now, d = .ask pid now) ∧ ∃ j ∈ (s.after ds).job? i, j.announced.isSome := by
  constructor
  · rintro ⟨before, now, rest, split, told⟩
    rcases List.eq_nil_or_concat rest with rfl | ⟨rest, last, rfl⟩
    · obtain ⟨rfl, same⟩ := List.append_inj' split rfl
      cases same
      exact .inr ⟨⟨now, rfl⟩, told⟩
    · rw [List.concat_eq_append, ← List.cons_append, ← List.append_assoc] at split
      obtain ⟨rfl, -⟩ := List.append_inj' split rfl
      exact .inl ⟨before, now, rest, rfl, told⟩
  · rintro (⟨before, now, rest, rfl, told⟩ | ⟨⟨now, rfl⟩, told⟩)
    · exact ⟨before, now, rest ++ [d], by simp, told⟩
    · exact ⟨ds, now, [], rfl, told⟩

/-- While no other job takes the pid, the entry stays until the end is collected. -/
theorem lookup_after_keep (h : Lawful s (ds ++ es))
    (held : (s.after ds).background.lookup pid = some i) (alone : ¬ Replaced pid es) :
    (Collected (s.after ds) i pid es → (s.after (ds ++ es)).background.lookup pid = none) ∧
      (¬ Collected (s.after ds) i pid es →
        (s.after (ds ++ es)).background.lookup pid = some i) := by
  induction es using List.reverseRecOn with
  | nil =>
    rw [List.append_nil]
    refine ⟨?_, fun _ => held⟩
    rintro ⟨before, now, rest, split, -⟩
    simp at split
  | append_singleton es d ih =>
    rw [← List.append_assoc] at h ⊢
    obtain ⟨before, possible⟩ := h.last
    obtain ⟨gone, stays⟩ := ih before fun ⟨k, among⟩ => alone ⟨k, List.mem_append_left _ among⟩
    rw [after_snoc, collected_snoc, ← after_append]
    -- Whoever asks for the pid changes its entry just when this collects the end; nothing else does.
    by_cases asks : ∃ now, d = .ask pid now
    · obtain ⟨now, rfl⟩ := asks
      rw [lookup_ask]
      by_cases collected : Collected (s.after ds) i pid es
      · rw [gone collected, ite_self]
        exact ⟨fun _ => rfl, fun not => (not (.inl collected)).elim⟩
      · rw [stays collected]
        constructor
        · rintro (earlier | ⟨-, told⟩)
          · exact (collected earlier).elim
          · exact if_pos ⟨rfl, i, rfl, told⟩
        · intro not
          refine if_neg ?_
          rintro ⟨-, i', same, told⟩
          cases same
          exact not (.inr ⟨⟨now, rfl⟩, told⟩)
    · have steady := lookup_act possible (fun now same => asks ⟨now, same⟩) fun k same =>
        alone ⟨k, by rw [same]; simp⟩
      rw [steady]
      constructor
      · rintro (earlier | ⟨asked, -⟩)
        · exact gone earlier
        · exact (asks asked).elim
      · exact fun not => stays fun earlier => not (.inl earlier)

theorem held_of_keep (possible : Possible s ds (.keep i pid)) :
    (s.act (.keep i pid)).background.lookup pid = some i := by
  obtain ⟨⟨j, here, same⟩, -⟩ := possible
  rw [lookup_keep here, if_pos same.symm]

theorem Lawful.job_of_keep (h : Lawful s (ds ++ .keep i pid :: es)) :
    i ∉ kept ds ∧ ∃ j, (s.after (ds ++ .keep i pid :: es)).job? i = some j ∧ j.pid = pid := by
  obtain ⟨⟨j, here, same⟩, new⟩ := h.possible
  obtain ⟨j', there, follows⟩ := job?_after here (.keep i pid :: es)
  exact ⟨new, j', by rwa [after_append], follows.pid.trans same⟩

theorem Lawful.not_held_of_replaced (empty : s.background = [])
    (h : Lawful s (ds ++ .keep i pid :: es)) (replaced : Replaced pid es) (q : Nat) :
    (s.after (ds ++ .keep i pid :: es)).background.lookup q ≠ some i := by
  obtain ⟨k, among⟩ := replaced
  obtain ⟨first, rest, rfl⟩ := List.append_of_mem among
  have regroup : ds ++ .keep i pid :: (first ++ .keep k pid :: rest) =
      ds ++ .keep i pid :: first ++ .keep k pid :: rest := by simp
  rw [regroup] at h ⊢
  obtain ⟨-, j, here, same⟩ := h.of_append.job_of_keep
  obtain ⟨⟨j', there, pid'⟩, new⟩ := h.possible
  have moved : i ∈ kept (ds ++ .keep i pid :: first) := mem_kept.mpr ⟨pid, by simp⟩
  rw [List.append_cons] at h ⊢
  refine h.not_held (by rw [kept_append]; exact List.mem_append_left _ moved) (fun q => ?_) q
  rw [after_snoc, lookup_keep there]
  split
  · intro same
    cases same
    exact new moved
  · rename_i other
    intro held
    obtain ⟨-, j₁, again, mine⟩ := held_job empty _ held
    cases here.symm.trans again
    exact other (mine.symm.trans (same.trans pid'.symm))

/-- While no other job takes the pid, asking for it tells of this job, and of its end once. -/
theorem Lawful.logs_of_alone (h : Lawful s (ds ++ .keep i pid :: es)) (alone : ¬ Replaced pid es)
    (here : (s.after (ds ++ .keep i pid :: es)).job? i = some j) (now : Nat) :
    (¬ Collected (s.after (ds ++ [.keep i pid])) i pid es →
      ((s.after (ds ++ .keep i pid :: es)).logs pid now).1 =
        match j.announced with
        | none => .running j.output (now - j.started)
        | some exit => .completed exit j.output) ∧
      (Collected (s.after (ds ++ [.keep i pid])) i pid es →
        ((s.after (ds ++ .keep i pid :: es)).logs pid now).1 = .notFound) := by
  have entered : (s.after (ds ++ [.keep i pid])).background.lookup pid = some i := by
    simpa using held_of_keep h.possible
  rw [List.append_cons ds _ es] at h here ⊢
  obtain ⟨gone, stays⟩ := lookup_after_keep h entered alone
  constructor
  · intro waiting
    rw [logs_of_held (stays waiting) here]
    cases j.announced <;> rfl
  · intro collected
    rw [logs, gone collected]
    rfl

/-- Of two jobs that were kept under one pid the process of one had been waited for. -/
theorem Lawful.ended_of_keep (empty : s.jobs = []) (h : Lawful s (ds ++ .keep i pid :: es))
    (here : (s.after (ds ++ .keep i pid :: es)).job? i = some j) (among : .keep k pid ∈ es) :
    ∃ j', (s.after (ds ++ .keep i pid :: es)).job? k = some j' ∧
      (i < k ∧ (∃ exit, j.exit = some exit) ∨ k < i ∧ ∃ exit, j'.exit = some exit) := by
  obtain ⟨-, j₀, here₀, mine⟩ := h.job_of_keep
  cases here.symm.trans here₀
  obtain ⟨first, rest, rfl⟩ := List.append_of_mem among
  have regroup : ds ++ .keep i pid :: (first ++ .keep k pid :: rest) =
      ds ++ .keep i pid :: first ++ .keep k pid :: rest := by simp
  rw [regroup] at h here ⊢
  obtain ⟨new, j', there, same⟩ := h.job_of_keep
  have pids : j.pid = j'.pid := mine.trans same.symm
  have other : i ≠ k := by
    rintro rfl
    exact new (mem_kept.mpr ⟨pid, by simp⟩)
  refine ⟨j', there, ?_⟩
  rcases Nat.lt_or_gt_of_ne other with order | order
  · exact .inl ⟨order, h.ended_of_pid empty order here there pids⟩
  · exact .inr ⟨order, h.ended_of_pid empty order there here pids.symm⟩

open Text.Utf8 (decodeLossy)

/-- What asking for the pid of a job tells at any moment after it was moved to the background. As long
as no other job has taken the pid: that it runs until its end is announced, then the end of its own
process with all of its output, and nothing once that was told. A job that takes the pid puts the entry
out for good, told or not. It can do so when the process of one of the two, the one that was started
first, has been waited for. -/
theorem background_told {quickTimeout : Nat} {before mid : List Deed} {i pid : Nat}
    (h : Lawful { quickTimeout } (before ++ .keep i pid :: mid)) (now : Nat) :
    let ds := before ++ .keep i pid :: mid
    let entered := after { quickTimeout } (before ++ [.keep i pid])
    let s := after { quickTimeout } ds
    ∃ j, s.job? i = some j ∧ j.pid = pid ∧
      (∀ exit, j.announced = some exit → .event (.ended i exit) ∈ ds ∧
        j.output = ⟨decodeLossy (writtenIn i .stdout ds), decodeLossy (writtenIn i .stderr ds)⟩) ∧
      (¬ Replaced pid mid →
        (¬ Collected entered i pid mid → (s.logs pid now).1 =
          match j.announced with
          | none => .running j.output (now - j.started)
          | some exit => .completed exit j.output) ∧
        (Collected entered i pid mid → (s.logs pid now).1 = .notFound)) ∧
      (Replaced pid mid → ∀ q, s.background.lookup q ≠ some i) ∧
      ∀ k, .keep k pid ∈ mid → ∃ j', s.job? k = some j' ∧
        (i < k ∧ (∃ exit, j.exit = some exit) ∨ k < i ∧ ∃ exit, j'.exit = some exit) := by
  intro ds entered s
  obtain ⟨-, j, here, same⟩ := h.job_of_keep
  refine ⟨j, here, same, ?_, fun alone => h.logs_of_alone alone here now,
    h.not_held_of_replaced rfl, fun k among => h.ended_of_keep rfl here among⟩
  intro exit told
  have accounts := h.accounts rfl here
  refine ⟨accounts.ended_of_announced told, ?_⟩
  rw [← accounts.copied_of_announced told .stdout, ← accounts.copied_of_announced told .stderr]
  rfl

/-- The end of the job can be had until another one moves to the background under its pid. -/
theorem background_told_lagging :
    ((after {} lagging).logs 7 9).1 = .completed (.exited 3) ⟨"AB", ""⟩ ∧
      Lawful {} (lagging ++ [.start 7 5, .keep 1 7]) ∧
      ∀ q, (after {} (lagging ++ [.start 7 5, .keep 1 7])).background.lookup q ≠ some 0 := by
  have again : Lawful {} (lagging ++ [.start 7 5, .keep 1 7]) := lawful_of_possible (by decide)
  have once : Lawful {} (lagging.take 1 ++ .keep 0 7 :: lagging.drop 2) := lawful_lagging
  have twice : Lawful {} (lagging.take 1 ++ .keep 0 7 ::
      (lagging.drop 2 ++ [.start 7 5, .keep 1 7])) := again
  obtain ⟨j, here, -, -, alone, -⟩ := background_told once 9
  obtain ⟨-, -, -, -, -, taken, -⟩ := background_told twice 9
  refine ⟨?_, again, taken ⟨1, by simp⟩⟩
  refine ((alone ?_).1 ?_).trans ?_
  · rintro ⟨k, among⟩
    simp [lagging] at among
  · rintro ⟨before, now, rest, split, -⟩
    have among : Deed.ask 7 now ∈ lagging.drop 2 := by simp [split]
    simp [lagging] at among
  · cases here
    rfl

end Ensemble.Jobs.Supervisor
