import Ensemble.Proofs.Life

/-!
# Calls and results in a transcript

`Orderly` says how a transcript may go on: while calls wait for their results, the only thing an
agent may add is the result of the first of them, under the name of the agent that made it. What
waits at the end of an orderly transcript is what the session is suspended on, and nothing else.
Every step of a run keeps it that way (`Books`), hence so does every move of a session.

Where the results are found after a reply is read off from that (`Orderly.results`).
-/

namespace Ensemble

open Session (Item isAssistant)

/-- How a transcript goes on while some calls wait for their results, and the calls that wait at
its end. -/
inductive Orderly :
    List (String × ToolCall) → List Item → List (String × ToolCall) → Prop where
  | nil (due : List (String × ToolCall)) : Orderly due [] due
  | summary {due due' : List (String × ToolCall)} {rest : List Item} (text : String)
      (now : Time.Timestamp) (h : Orderly due rest due') :
      Orderly due (.summary text now :: rest) due'
  | spoken {due due' : List (String × ToolCall)} {rest : List Item} {m : Authored}
      (role : m.message.role = .user) (calls : m.message.calls = []) (h : Orderly due rest due') :
      Orderly due (.message m :: rest) due'
  | turn {due' : List (String × ToolCall)} {rest : List Item} {m : Authored}
      (role : m.message.role = .assistant)
      (h : Orderly (m.message.calls.map (m.author, ·)) rest due') :
      Orderly [] (.message m :: rest) due'
  | result {due due' : List (String × ToolCall)} {rest : List Item} {m : Authored}
      {call : ToolCall} (role : m.message.role = .tool) (calls : m.message.calls = [])
      (id : m.message.toolCallId = some call.id) (h : Orderly due rest due') :
      Orderly ((m.author, call) :: due) (.message m :: rest) due'

namespace Orderly

variable {due due' due'' : List (String × ToolCall)} {xs ys : List Item}

theorem append (h : Orderly due xs due') (h' : Orderly due' ys due'') :
    Orderly due (xs ++ ys) due'' := by
  induction h with
  | nil => exact h'
  | summary text now _ ih => exact .summary text now (ih h')
  | spoken role calls _ ih => exact .spoken role calls (ih h')
  | turn role _ ih => exact .turn role (ih h')
  | result role calls id _ ih => exact .result role calls id (ih h')

theorem split (h : Orderly due (xs ++ ys) due'') :
    ∃ due', Orderly due xs due' ∧ Orderly due' ys due'' := by
  induction xs generalizing due with
  | nil => exact ⟨due, .nil due, h⟩
  | cons item xs ih =>
    cases h with
    | summary text now h =>
      obtain ⟨due', front, back⟩ := ih h
      exact ⟨due', .summary text now front, back⟩
    | spoken role calls h =>
      obtain ⟨due', front, back⟩ := ih h
      exact ⟨due', .spoken role calls front, back⟩
    | turn role h =>
      obtain ⟨due', front, back⟩ := ih h
      exact ⟨due', .turn role front, back⟩
    | result role calls id h =>
      obtain ⟨due', front, back⟩ := ih h
      exact ⟨due', .result role calls id front, back⟩

theorem of_turn {m : Authored} (h : Orderly due (.message m :: xs) due')
    (role : m.message.role = .assistant) :
    due = [] ∧ Orderly (m.message.calls.map (m.author, ·)) xs due' := by
  cases h with
  | spoken user => rw [role] at user; cases user
  | turn _ h => exact ⟨rfl, h⟩
  | result tool => rw [role] at tool; cases tool

theorem of_result {m : Authored} (h : Orderly due (.message m :: xs) due')
    (role : m.message.role = .tool) :
    ∃ call rest, due = (m.author, call) :: rest ∧ m.message.toolCallId = some call.id ∧
      Orderly rest xs due' := by
  cases h with
  | spoken user => rw [role] at user; cases user
  | turn assistant => rw [role] at assistant; cases assistant
  | result _ _ id h => exact ⟨_, _, rfl, id, h⟩

theorem spoken_all {items : List Item}
    (h : ∀ item ∈ items, ∃ author text now, item = .message ⟨author, .user text, now⟩) :
    Orderly due items due := by
  induction items with
  | nil => exact .nil due
  | cons item items ih =>
    obtain ⟨author, text, now, rfl⟩ := h item (.head _)
    exact .spoken rfl rfl (ih fun other among => h other (.tail _ among))

end Orderly

def Session.outstanding (s : Session) : List (String × ToolCall) :=
  match s.pending with
  | none => []
  | some p => p.calls.map (p.agent, ·)

theorem Session.outstanding_of_none {s : Session} (idle : s.pending = none) :
    s.outstanding = [] := by
  rw [outstanding, idle]

theorem Session.outstanding_congr {s s' : Session} (h : s'.pending = s.pending) :
    s'.outstanding = s.outstanding := by
  rw [outstanding, h, outstanding]

theorem Session.outstanding_of_some {s : Session} {p : Pending} (waits : s.pending = some p) :
    s.outstanding = p.calls.map (p.agent, ·) := by
  rw [outstanding, waits]

theorem Session.pending_of_outstanding {s : Session} {p : Pending} (waits : s.pending = some p)
    (nonempty : p.calls ≠ []) {author : String} {calls : List ToolCall}
    (h : s.outstanding = calls.map (author, ·)) : p.agent = author ∧ p.calls = calls := by
  obtain ⟨agent, waiting⟩ := p
  rw [outstanding_of_some waits] at h
  have same : waiting = calls := by
    simpa [Function.comp_def] using congrArg (List.map Prod.snd) h
  subst same
  cases waiting with
  | nil => exact (nonempty rfl).elim
  | cons call rest => exact ⟨congrArg Prod.fst (List.cons.inj h).1, rfl⟩

/-- The transcript is orderly, and the session waits exactly for what it lacks. -/
structure InOrder (s : Session) : Prop where
  orderly : Orderly [] s.items s.outstanding
  waits : ∀ p, s.pending = some p → p.calls ≠ []

namespace InOrder

variable {s s' : Session} {j j' : List Activity}

theorem say (h : InOrder s) (text : String) (now : Time.Timestamp) : InOrder (s.addUser text now) :=
  ⟨h.orderly.append (.spoken rfl rfl (.nil _)), h.waits⟩

theorem summarise (h : InOrder s) (sum : Summarises s j s' j') : InOrder s' := by
  refine ⟨?_, sum.pending ▸ h.waits⟩
  rw [Session.outstanding_congr sum.pending]
  rcases sum.items with same | ⟨text, now, added⟩
  · rw [same]
    exact h.orderly
  · rw [added]
    exact h.orderly.append (.summary text now (.nil _))

end InOrder

/-! ## Runs -/

namespace Run

variable {σ : Type} {setup : Setup σ}

/-- The transcript lacks the results of the calls that the run or the session holds; a run that
works has left nothing to the session. -/
structure Books (x : Stage × Run σ) : Prop where
  orderly : Orderly [] x.2.session.items (x.1.waiting ++ x.2.session.outstanding)
  idle : x.1.isClosed = false → x.2.session.pending = none
  waits : ∀ p, x.2.session.pending = some p → p.calls ≠ []

theorem Books.of_idle {x : Stage} {r : Run σ} (idle : r.session.pending = none)
    (orderly : Orderly [] r.session.items x.waiting) : Books (x, r) := by
  refine ⟨?_, fun _ => idle, ?_⟩
  · rwa [Session.outstanding_of_none idle, List.append_nil]
  · intro p waits
    rw [idle] at waits
    cases waits

theorem Books.lacks {x : Stage} {r : Run σ} (h : Books (x, r)) (working : x.isClosed = false) :
    Orderly [] r.session.items x.waiting := by
  have orderly := h.orderly
  rwa [Session.outstanding_of_none (h.idle working), List.append_nil] at orderly

theorem Settles.orderly {caller : String} {call : ToolCall} {how : Settlement} {s s' : Session}
    {j j' : List Activity} {due : List (String × ToolCall)}
    (h : Settles setup caller call how s j s' j')
    (before : Orderly [] s.items ((caller, call) :: due)) : Orderly [] s'.items due := by
  obtain ⟨content, later, items, briefings⟩ := h.items
  have spoken : Orderly due later due := .spoken_all fun item among => by
    obtain ⟨target, text, rfl⟩ := briefings item among
    exact ⟨target, text, setup.now, rfl⟩
  rw [items]
  exact before.append (.result (m := ⟨caller, .toolResult call.id content, setup.now⟩) rfl rfl rfl
    spoken)

theorem Books.settle {x : Stage} {left : Nat} {caller : String} {call : ToolCall}
    {rest : List ToolCall} {how : Settlement} {r r' : Run σ} (h : Books (x, r))
    (before : x.waiting = (call :: rest).map (caller, ·))
    (settles : Settles setup caller call how r.session r.journal r'.session r'.journal) :
    Books (.calling left caller rest, r') := by
  have working := Stage.working_of_waiting before
  have orderly := h.orderly
  rw [before] at orderly
  refine ⟨?_, fun _ => settles.pending.trans (h.idle working), settles.pending ▸ h.waits⟩
  rw [Session.outstanding_congr settles.pending]
  exact settles.orderly orderly

theorem Effect.books {x y : Stage × Run σ} (h : Effect setup x y) (hx : Books x) : Books y := by
  cases h with
  | idled working before onward after session journal =>
    have orderly := hx.lacks working
    rw [before, ← session] at orderly
    exact .of_idle ((congrArg Session.pending session).trans (hx.idle working)) (by rwa [after])
  | @unanswered left outcome a r r' found journal session =>
    have orderly := hx.lacks rfl
    rcases session with same | ⟨text, said⟩
    · exact .of_idle (by rw [same]; exact hx.idle rfl) (by rw [same]; exact orderly)
    · refine .of_idle (by rw [said]; exact hx.idle rfl) ?_
      rw [said]
      exact orderly.append (.turn rfl (.nil []))
  | replied found journal role items pending permissions approved onward after =>
    refine .of_idle (pending.trans (hx.idle rfl)) ?_
    rw [items, after]
    exact (hx.lacks rfl).append (.turn role (.nil _))
  | accepted yes settles => exact hx.settle rfl settles
  | executed found allowed settles => exact hx.settle rfl settles
  | settled before plain settles => exact hx.settle before settles
  | @cancelled x caller queue r r' before working session journal =>
    have idle := hx.idle working
    have orderly := hx.lacks working
    rw [← session] at idle
    rw [before, ← session] at orderly
    have ended := @recordCancelled_keep σ setup caller
      (fun queue s _ => s.pending = none ∧ Orderly [] s.items (queue.map (caller, ·)))
      (fun settles before => ⟨settles.pending.trans before.1, settles.orderly before.2⟩) queue r'
      ⟨idle, orderly⟩
    exact .of_idle ended.1 ended.2
  | @suspended left caller call rest tool r r' found asks session journal =>
    have orderly := hx.lacks rfl
    refine ⟨?_, by simp [Stage.isClosed], ?_⟩
    · rw [session]
      exact orderly
    · rw [session]
      rintro p ⟨⟩
      exact List.cons_ne_nil call rest

theorem drive_inOrder {followUp : Run σ → Run σ} (quiet : Quiet followUp)
    {resumed : Option (Session.Pending × Answer)} {r : Run σ}
    (h : Books (opening setup resumed, r)) : InOrder (drive setup followUp resumed r).session := by
  obtain ⟨outcome, r', steps, sum⟩ := drive_ends setup quiet resumed r
  have ended : Books (.closed outcome, r') := steps.keep (fun step => step.effect.books) h
  have order : InOrder r'.session := ⟨ended.orderly, ended.waits⟩
  exact order.summarise sum

end Run

/-! ## Sessions -/

variable {σ : Type}

theorem Team.Plays.inOrder {t : Team σ} {s : Session} {m : Move σ} {played : Played}
    (h : t.Plays s m played) (hs : InOrder s) : InOrder played.session := by
  have orderly := hs.orderly
  cases h with
  | said text now => exact hs.say text now
  | refused => exact hs
  | ran on agent idle =>
    rw [Session.outstanding_of_none idle] at orderly
    exact Run.drive_inOrder (Run.quiet_followUp _) (Run.Books.of_idle idle orderly)
  | resumed on answer agent pending waits =>
    rw [Session.outstanding_of_some waits] at orderly
    exact Run.drive_inOrder (Run.quiet_followUp _) (Run.Books.of_idle rfl orderly)
  | summarised on agent played sum => exact hs.summarise sum

structure Session.Fresh (s : Session) : Prop where
  items : s.items = []
  pending : s.pending = none

theorem Session.Fresh.inOrder {s : Session} (fresh : s.Fresh) : InOrder s := by
  constructor
  · rw [fresh.items, Session.outstanding_of_none fresh.pending]
    exact .nil []
  · intro p waits
    rw [fresh.pending] at waits
    cases waits

theorem Team.after_inOrder (t : Team σ) {s : Session} (fresh : s.Fresh) (moves : List (Move σ)) :
    InOrder (t.after s moves) :=
  t.after_keep (P := InOrder) (fun s m h => (t.play_plays s m).inOrder h) fresh.inOrder moves

/-! ## Where the results are -/

/-- Who got a result, and the identifier of its call. -/
def Session.result? : Item → Option (String × Option String)
  | .message m => if m.message.role = .tool then some (m.author, m.message.toolCallId) else none
  | .summary _ _ => none

/-- The results before the next reply. -/
def Session.resultsBefore (items : List Item) : List (String × Option String) :=
  (items.takeWhile fun item => !isAssistant item).filterMap Session.result?

theorem Session.resultsBefore_turn {item : Item} (h : isAssistant item = true) (rest : List Item) :
    resultsBefore (item :: rest) = [] := by
  rw [resultsBefore, List.takeWhile_cons_of_neg (by simp [h])]
  rfl

theorem Session.resultsBefore_other {item : Item} (h : isAssistant item = false)
    (rest : List Item) :
    resultsBefore (item :: rest) = (result? item).toList ++ resultsBefore rest := by
  rw [resultsBefore, List.takeWhile_cons_of_pos (by simp [h]), List.filterMap_cons]
  cases result? item <;> rfl

/-- The first results in what follows are those of the first calls that wait, in their order; only
a next reply makes sure that none is missing. -/
theorem Orderly.results {due due' : List (String × ToolCall)} {items : List Item}
    (h : Orderly due items due') :
    ∃ k ≤ due.length,
      Session.resultsBefore items = (due.take k).map (fun made => (made.1, some made.2.id)) ∧
        (items.any isAssistant = true → k = due.length) ∧
        (items.any isAssistant = false → due' = due.drop k) := by
  induction h with
  | nil due => exact ⟨0, Nat.zero_le _, rfl, by simp, fun _ => rfl⟩
  | @summary due due' rest text now _ ih =>
    have quiet : isAssistant (.summary text now) = false := rfl
    rwa [Session.resultsBefore_other quiet, List.any_cons, quiet, Bool.false_or]
  | @spoken due due' rest m role calls _ ih =>
    have quiet : isAssistant (.message m) = false := by rw [isAssistant, role]; rfl
    have silent : Session.result? (.message m) = none := by simp [Session.result?, role]
    rwa [Session.resultsBefore_other quiet, silent, List.any_cons, quiet, Bool.false_or]
  | @turn due' rest m role _ ih =>
    have turn : isAssistant (.message m) = true := by rw [isAssistant, role]; rfl
    refine ⟨0, Nat.le_refl 0, Session.resultsBefore_turn turn rest, fun _ => rfl, ?_⟩
    intro last
    rw [List.any_cons, turn, Bool.true_or] at last
    cases last
  | @result due due' rest m call role calls id _ ih =>
    obtain ⟨k, le, results, all, left⟩ := ih
    have quiet : isAssistant (.message m) = false := by rw [isAssistant, role]; rfl
    have found : Session.result? (.message m) = some (m.author, some call.id) := by
      simp [Session.result?, role, id]
    rw [Session.resultsBefore_other quiet, found, List.any_cons, quiet, Bool.false_or]
    refine ⟨k + 1, Nat.succ_le_succ le, ?_, fun next => congrArg (· + 1) (all next), left⟩
    rw [results]
    rfl

/-- Wherever a session has got to: behind a reply of `author` with some calls come the results of
the first `k` of them, under its name and in their order, until the next reply. None is missing,
except from the last reply of a suspended session, and there it is what the session waits for.
No other results are stored. -/
theorem stored_results (t : Team σ) {s₀ : Session} (fresh : s₀.Fresh) (moves : List (Move σ)) :
    let s := t.after s₀ moves
    (∀ before m after, s.items = before ++ .message m :: after → m.message.role = .assistant →
      ∃ k ≤ m.message.calls.length,
        Session.resultsBefore after =
          (m.message.calls.take k).map (fun call => (m.author, some call.id)) ∧
        (after.any isAssistant = true ∨ s.pending = none → k = m.message.calls.length) ∧
        ∀ p, after.any isAssistant = false → s.pending = some p →
          p.agent = m.author ∧ p.calls = m.message.calls.drop k ∧ p.calls ≠ []) ∧
      Session.resultsBefore s.items = [] := by
  intro s
  have order : InOrder s := t.after_inOrder fresh moves
  constructor
  · intro before m after split role
    have orderly := order.orderly
    rw [split] at orderly
    obtain ⟨due, -, rest⟩ := orderly.split
    obtain ⟨k, le, results, all, left⟩ := (rest.of_turn role).2.results
    rw [List.length_map] at le all
    refine ⟨k, le, ?_, ?_, ?_⟩
    · rw [results, ← List.map_take, List.map_map]
      rfl
    · rintro (next | idle)
      · exact all next
      · cases next : after.any isAssistant with
        | true => exact all next
        | false =>
          have gone := left next
          rw [Session.outstanding_of_none idle, ← List.map_drop, eq_comm, List.map_eq_nil_iff,
            List.drop_eq_nil_iff] at gone
          omega
    · intro p last waits
      have rest := left last
      rw [← List.map_drop] at rest
      have nonempty := order.waits p waits
      obtain ⟨agent, calls⟩ := Session.pending_of_outstanding waits nonempty rest
      exact ⟨agent, calls, nonempty⟩
  · obtain ⟨k, le, results, -⟩ := order.orderly.results
    rw [results, List.take_nil]
    rfl

/-- The user has accepted the first of two calls, and is asked about the second. -/
theorem stored_results_suspended :
    ∃ k ≤ 2, [("root", some "1")] =
        ([Sample.call "1", Sample.call "2"].take k).map (fun call => ("root", some call.id)) ∧
      [Sample.call "2"] = [Sample.call "1", Sample.call "2"].drop k := by
  have fresh : Sample.session.Fresh := ⟨rfl, rfl⟩
  obtain ⟨k, le, results, -, left⟩ := (stored_results Sample.team fresh (Sample.suspended ++
    [.resume (Sample.occasion []) .accept])).1
    [.message ⟨"", .user "go", Sample.noon⟩]
    ⟨"root", .assistant "" [Sample.call "1", Sample.call "2"], Sample.noon⟩
    [.message ⟨"root", .toolResult "1" "touched", Sample.noon⟩] rfl rfl
  exact ⟨k, le, results, (left ⟨"root", [Sample.call "2"]⟩ rfl rfl).2.1⟩

end Ensemble
