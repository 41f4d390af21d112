import Ensemble.Proofs.Transcript

/-!
# Calls issued and calls settled

The calls of a session are numbered as the replies issue them, over all its moves. They are settled
in that order and each of them once, and those that are not settled yet are the ones the session is
suspended on (`Team.journal_balanced`). So the settlement of a number is all that ever happens to
the call of that number, also when identifiers repeat.
-/

namespace Ensemble

namespace Activity

/-- The calls that a reply issues, with who made them. -/
def issued : Activity → List (String × ToolCall)
  | .replied agent calls _ => calls.map (agent, ·)
  | _ => []

def settled? : Activity → Option ((String × ToolCall) × Settlement)
  | .settled caller call how => some ((caller, call), how)
  | _ => none

end Activity

def issuedIn (j : List Activity) : List (String × ToolCall) := j.flatMap Activity.issued

def settledIn (j : List Activity) : List ((String × ToolCall) × Settlement) :=
  j.filterMap Activity.settled?

@[simp] theorem issuedIn_append (j k : List Activity) :
    issuedIn (j ++ k) = issuedIn j ++ issuedIn k := List.flatMap_append

@[simp] theorem settledIn_append (j k : List Activity) :
    settledIn (j ++ k) = settledIn j ++ settledIn k := List.filterMap_append

theorem issuedIn_summaries {j : List Activity} (h : ∀ entry ∈ j, entry.isSummary = true) :
    issuedIn j = [] := by
  apply List.flatMap_eq_nil_iff.mpr
  intro entry among
  rcases Activity.eq_of_isSummary (h entry among) with ⟨agent, request, rfl⟩ | ⟨agent, usage, rfl⟩
  · rfl
  · rfl

theorem settledIn_summaries {j : List Activity} (h : ∀ entry ∈ j, entry.isSummary = true) :
    settledIn j = [] :=
  filterMap_summaries (fun _ _ => rfl) (fun _ _ => rfl) h

/-- Of `owed` and what `j` issues, `left` is what `j` has not settled. -/
def Balanced (owed : List (String × ToolCall)) (j : List Activity)
    (left : List (String × ToolCall)) : Prop :=
  owed ++ issuedIn j = (settledIn j).map Prod.fst ++ left

namespace Balanced

variable {owed left left' : List (String × ToolCall)} {j k : List Activity}

theorem nil (owed : List (String × ToolCall)) : Balanced owed [] owed := by
  simp [Balanced, issuedIn, settledIn]

theorem append (h : Balanced owed j left) (h' : Balanced left k left') :
    Balanced owed (j ++ k) left' := by
  unfold Balanced at h h' ⊢
  calc owed ++ issuedIn (j ++ k)
      = owed ++ issuedIn j ++ issuedIn k := by rw [issuedIn_append, List.append_assoc]
    _ = (settledIn j).map Prod.fst ++ (left ++ issuedIn k) := by rw [h, List.append_assoc]
    _ = (settledIn j).map Prod.fst ++ ((settledIn k).map Prod.fst ++ left') := by rw [h']
    _ = (settledIn (j ++ k)).map Prod.fst ++ left' := by
      rw [settledIn_append, List.map_append, List.append_assoc]

theorem append_quiet (h : Balanced owed j left) (issues : issuedIn k = [])
    (settles : settledIn k = []) : Balanced owed (j ++ k) left := by
  refine h.append ?_
  rw [Balanced, issues, settles, List.append_nil, List.map_nil, List.nil_append]

theorem settle {caller : String} {call : ToolCall} (h : Balanced owed j ((caller, call) :: left))
    (how : Settlement) : Balanced owed (j ++ [.settled caller call how]) left := by
  refine h.append ?_
  simp [Balanced, issuedIn, settledIn, Activity.issued, Activity.settled?]

end Balanced

namespace Run

variable {σ : Type} {setup : Setup σ} {owed : List (String × ToolCall)}

/-- The run or the session holds the calls that are not settled. -/
structure Accounts (owed : List (String × ToolCall)) (x : Stage × Run σ) : Prop where
  balanced : Balanced owed x.2.journal (x.1.waiting ++ x.2.session.outstanding)
  idle : x.1.isClosed = false → x.2.session.pending = none

theorem Accounts.of_idle {x : Stage} {r : Run σ} (idle : r.session.pending = none)
    (balanced : Balanced owed r.journal x.waiting) : Accounts owed (x, r) := by
  constructor
  · rwa [Session.outstanding_of_none idle, List.append_nil]
  · intro _
    exact idle

theorem Accounts.holds {x : Stage} {r : Run σ} (h : Accounts owed (x, r))
    (working : x.isClosed = false) : Balanced owed r.journal x.waiting := by
  have balanced := h.balanced
  rwa [Session.outstanding_of_none (h.idle working), List.append_nil] at balanced

theorem Accounts.settle {x : Stage} {left : Nat} {caller : String} {call : ToolCall}
    {rest : List ToolCall} {how : Settlement} {r r' : Run σ} (h : Accounts owed (x, r))
    (before : x.waiting = (call :: rest).map (caller, ·))
    (settles : Settles setup caller call how r.session r.journal r'.session r'.journal) :
    Accounts owed (.calling left caller rest, r') := by
  have working := Stage.working_of_waiting before
  have balanced := h.holds working
  rw [before] at balanced
  refine .of_idle (settles.pending.trans (h.idle working)) ?_
  rw [settles.journal]
  exact balanced.settle how

theorem Effect.accounts {x y : Stage × Run σ} (h : Effect setup x y) (hx : Accounts owed x) :
    Accounts owed y := by
  cases h with
  | idled working before onward after session journal =>
    have balanced := hx.holds working
    rw [before, ← journal] at balanced
    exact .of_idle ((congrArg Session.pending session).trans (hx.idle working)) (by rwa [after])
  | @unanswered left outcome a r r' found journal session =>
    have balanced : Balanced owed r'.journal [] := by
      rw [journal]
      exact (hx.holds rfl).append_quiet rfl rfl
    rcases session with same | ⟨text, said⟩
    · exact .of_idle (by rw [same]; exact hx.idle rfl) balanced
    · exact .of_idle (by rw [said]; exact hx.idle rfl) balanced
  | replied found journal role items pending permissions approved onward after =>
    refine .of_idle (pending.trans (hx.idle rfl)) ?_
    rw [journal, after]
    refine (hx.holds rfl).append ?_
    simp [Balanced, issuedIn, settledIn, Activity.issued, Activity.settled?, Stage.waiting]
  | accepted yes settles => exact hx.settle rfl settles
  | executed found allowed settles => exact hx.settle rfl settles
  | settled before plain settles => exact hx.settle before settles
  | @cancelled x caller queue r r' before working session journal =>
    have idle := hx.idle working
    have balanced := hx.holds working
    rw [← session] at idle
    rw [before, ← journal] at balanced
    have ended := @recordCancelled_keep σ setup caller
      (fun queue s j => s.pending = none ∧ Balanced owed j (queue.map (caller, ·)))
      (fun settles before => ⟨settles.pending.trans before.1, by
        rw [settles.journal]; exact before.2.settle _⟩) queue r' ⟨idle, balanced⟩
    exact .of_idle ended.1 ended.2
  | suspended found asks session journal =>
    have balanced := hx.holds rfl
    constructor
    · rw [session, journal]
      exact balanced
    · intro working
      cases working

theorem drive_balanced {followUp : Run σ → Run σ} (quiet : Quiet followUp)
    {resumed : Option (Session.Pending × Answer)} {r : Run σ}
    (h : Accounts owed (opening setup resumed, r)) :
    Balanced owed (drive setup followUp resumed r).journal
      (drive setup followUp resumed r).session.outstanding := by
  obtain ⟨outcome, r', steps, sum⟩ := drive_ends setup quiet resumed r
  have ended : Accounts owed (.closed outcome, r') :=
    steps.keep (P := Accounts owed) (fun step => step.effect.accounts) h
  obtain ⟨more, journal, summaries⟩ := sum.journal
  rw [journal, Session.outstanding_congr sum.pending]
  exact ended.balanced.append_quiet (issuedIn_summaries summaries) (settledIn_summaries summaries)

end Run

/-! ## Sessions -/

variable {σ : Type} {t : Team σ}

theorem Team.Plays.balanced {s : Session} {m : Move σ} {played : Played}
    (h : t.Plays s m played) :
    Balanced s.outstanding played.journal played.session.outstanding := by
  cases h with
  | said text now => exact .nil _
  | refused => exact .nil _
  | ran on agent idle =>
    rw [Session.outstanding_of_none idle]
    exact Run.drive_balanced (Run.quiet_followUp _) (.of_idle idle (.nil _))
  | resumed on answer agent pending waits =>
    rw [Session.outstanding_of_some waits]
    exact Run.drive_balanced (Run.quiet_followUp _) (.of_idle rfl (.nil _))
  | summarised on agent played sum =>
    obtain ⟨more, journal, summaries⟩ := sum.journal
    rw [journal, Session.outstanding_congr sum.pending]
    exact (Balanced.nil _).append_quiet (issuedIn_summaries summaries)
      (settledIn_summaries summaries)

/-- Over any moves, the calls that are not settled are those the session is suspended on. -/
theorem Team.journal_balanced (t : Team σ) (s : Session) (moves : List (Move σ)) :
    Balanced s.outstanding (t.journal s moves) (t.after s moves).outstanding := by
  induction moves generalizing s with
  | nil => exact .nil _
  | cons m rest ih => exact (t.play_plays s m).balanced.append (ih _)

end Ensemble
