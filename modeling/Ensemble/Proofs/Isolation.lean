import Ensemble.Proofs.Echoes
import Ensemble.Proofs.Requests

/-!
# Nobody sees the calls of others

Every item of a session has an origin in what was done with it (`Origin`): each passage of a run is
the origin of what it adds (`Passage.origin`), and so everything that moves add has one
(`Team.after_sourced`). What makes calls or answers them comes from a turn of its author
(`Origin.madeBy`), and an agent sees such a message only if it takes the author for itself or for
the user (`View.told_foreign`).

The user's name is empty. A team may have an agent of that name, since names have to be different
and nothing else, and then no view tells the two apart.
-/

namespace Ensemble

open Session (Item)
open View (Authorship narrateItem)

/-! ## Origins -/

/-- A turn that was dispatched to an agent and made these calls. -/
def TurnIn (j : List Activity) (agent : String) (calls : List ToolCall) : Prop :=
  ∃ front request usage back, j = front ++ .asked agent request :: .replied agent calls usage :: back

structure Message.Simple (m : Message) : Prop where
  calls : m.toolCalls = none
  result : m.toolCallId = none

def Message.Structured (m : Message) : Prop := m.calls ≠ [] ∨ m.role = .tool

theorem Message.Simple.not_structured {m : Message} (simple : m.Simple) (role : m.role ≠ .tool) :
    ¬ m.Structured := by
  rintro (calls | tool)
  · exact calls (by rw [Message.calls, simple.calls]; rfl)
  · exact role tool

/-- Where an item comes from, if `j` tells all that was done. -/
inductive Origin (j : List Activity) : Item → Prop where
  | summary (text : String) (now : Time.Timestamp) : Origin j (.summary text now)
  | said {m : Authored} (role : m.message.role = .user) (simple : m.message.Simple) :
      Origin j (.message m)
  | turn {m : Authored} (role : m.message.role = .assistant) (alone : m.message.toolCallId = none)
      (turn : TurnIn j m.author m.message.calls) : Origin j (.message m)
  | interrupted {m : Authored} (role : m.message.role = .assistant) (simple : m.message.Simple) :
      Origin j (.message m)
  | result {m : Authored} {call : ToolCall} {how : Settlement} (role : m.message.role = .tool)
      (id : m.message.toolCallId = some call.id) (calls : m.message.calls = [])
      (settled : .settled m.author call how ∈ j) : Origin j (.message m)

section Append

variable {j k : List Activity} {agent : String} {calls : List ToolCall} {item : Item}

theorem TurnIn.append_left (h : TurnIn j agent calls) : TurnIn (j ++ k) agent calls := by
  obtain ⟨front, request, usage, back, rfl⟩ := h
  exact ⟨front, request, usage, back ++ k, by simp⟩

theorem TurnIn.append_right (h : TurnIn k agent calls) : TurnIn (j ++ k) agent calls := by
  obtain ⟨front, request, usage, back, rfl⟩ := h
  exact ⟨j ++ front, request, usage, back, by simp⟩

theorem Origin.append_left (h : Origin j item) : Origin (j ++ k) item := by
  cases h with
  | summary text now => exact .summary text now
  | said role simple => exact .said role simple
  | turn role alone turn => exact .turn role alone turn.append_left
  | interrupted role simple => exact .interrupted role simple
  | result role id calls settled => exact .result role id calls (List.mem_append_left k settled)

theorem Origin.append_right (h : Origin k item) : Origin (j ++ k) item := by
  cases h with
  | summary text now => exact .summary text now
  | said role simple => exact .said role simple
  | turn role alone turn => exact .turn role alone turn.append_right
  | interrupted role simple => exact .interrupted role simple
  | result role id calls settled => exact .result role id calls (List.mem_append_right j settled)

end Append

namespace Passage

variable {now : Time.Timestamp}

theorem origin (p : Passage) : ∀ item ∈ (p.trace now).items, Origin (p.trace now).journal item := by
  intro item among
  cases p with
  | answered agent request pieces calls bill =>
    obtain rfl := List.mem_singleton.mp among
    have made : ((Message.assistant (String.join pieces) calls).billed bill).calls = calls := by
      cases bill <;> cases calls <;> rfl
    have turn : TurnIn [.asked agent request, .replied agent calls (bill.map Prod.fst)] agent
        ((Message.assistant (String.join pieces) calls).billed bill).calls := by
      rw [made]
      exact ⟨[], request, _, [], rfl⟩
    cases bill with
    | none => exact .turn rfl rfl turn
    | some bill => exact .turn rfl rfl turn
  | interrupted agent request pieces =>
    simp only [trace] at among
    split at among
    · cases among
    · obtain rfl := List.mem_singleton.mp among
      exact .interrupted rfl ⟨rfl, rfl⟩
  | settled caller call how content isError =>
    obtain rfl := List.mem_singleton.mp among
    exact .result rfl rfl rfl (.head _)
  | switched source target briefing =>
    obtain rfl := List.mem_singleton.mp among
    exact .said rfl ⟨rfl, rfl⟩
  | compacted agent request usage text =>
    obtain rfl := List.mem_singleton.mp among
    exact .summary text now
  | failed | started | uncompacted | remarked => cases among

theorem origins (ps : List Passage) :
    ∀ item ∈ (traces now ps).items, Origin (traces now ps).journal item := by
  induction ps with
  | nil => simp
  | cons p ps ih =>
    intro item among
    rcases List.mem_append.mp among with here | later
    · exact (p.origin item here).append_left
    · exact (ih item later).append_right

theorem turns {ps : List Passage} {agent : String} {calls : List ToolCall} {usage : Option Usage}
    (replied : .replied agent calls usage ∈ (traces now ps).journal) :
    TurnIn (traces now ps).journal agent calls := by
  induction ps with
  | nil => simp at replied
  | cons p ps ih =>
    rcases List.mem_append.mp replied with here | later
    · have first : TurnIn (p.trace now).journal agent calls := by
        cases p with
        | answered agent' request pieces calls' bill =>
          simp only [trace, List.mem_cons, reduceCtorEq, false_or, List.not_mem_nil, or_false,
            Activity.replied.injEq] at here
          obtain ⟨rfl, rfl, rfl⟩ := here
          exact ⟨[], request, _, [], rfl⟩
        | uncompacted agent' request reply =>
          cases reply <;> simp [trace] at here
        | _ => simp [trace] at here
      exact first.append_left
    · exact (ih later).append_right

end Passage

/-! ## Moves -/

/-- All that is added to a session comes from what was done with it. -/
structure Sourced (s s' : Session) (j : List Activity) : Prop where
  items : ∃ new, s'.items = s.items ++ new ∧ ∀ item ∈ new, Origin j item
  turns : ∀ agent calls usage, .replied agent calls usage ∈ j → TurnIn j agent calls

namespace Sourced

variable {s s' s'' : Session} {j k : List Activity}

theorem same (h : s'.items = s.items) : Sourced s s' [] :=
  ⟨⟨[], by simp [h], by simp⟩, by simp⟩

theorem append (h : Sourced s s' j) (h' : Sourced s' s'' k) : Sourced s s'' (j ++ k) := by
  obtain ⟨new, items, origins⟩ := h.items
  obtain ⟨more, items', origins'⟩ := h'.items
  constructor
  · refine ⟨new ++ more, by rw [items', items, List.append_assoc], ?_⟩
    intro item among
    rcases List.mem_append.mp among with among | among
    · exact (origins item among).append_left
    · exact (origins' item among).append_right
  · intro agent calls usage replied
    rcases List.mem_append.mp replied with replied | replied
    · exact (h.turns agent calls usage replied).append_left
    · exact (h'.turns agent calls usage replied).append_right

theorem of_summary (h : Summarises s [] s' j) : Sourced s s' j := by
  obtain ⟨more, rfl, summaries⟩ := h.journal
  constructor
  · rcases h.items with same | ⟨text, now, added⟩
    · exact ⟨[], by simp [same], by simp⟩
    · refine ⟨[.summary text now], added, ?_⟩
      intro item among
      rw [List.mem_singleton.mp among]
      exact .summary text now
  · intro agent calls usage replied
    cases summaries _ replied

end Sourced

variable {σ : Type}

theorem Run.Echoes.sourced {setup : Setup σ} {s : Session} {r : Run σ} (h : Run.Echoes setup s r) :
    Sourced s r.session r.journal := by
  obtain ⟨ps, told⟩ := h.told
  have items : r.session.items = s.items ++ (Passage.traces setup.now ps).items :=
    congrArg Trace.items told
  have journal : r.journal = (Passage.traces setup.now ps).journal := congrArg Trace.journal told
  rw [journal]
  exact ⟨⟨_, items, Passage.origins ps⟩, fun _ _ _ replied => Passage.turns replied⟩

namespace Team

theorem Plays.sourced {t : Team σ} {s : Session} {m : Move σ} {played : Played}
    (h : t.Plays s m played) : Sourced s played.session played.journal := by
  cases h with
  | said text now =>
    refine ⟨⟨[.message ⟨userAuthor, .user text, now⟩], rfl, ?_⟩, by simp⟩
    intro item among
    rw [List.mem_singleton.mp among]
    exact .said rfl ⟨rfl, rfl⟩
  | refused => exact .same rfl
  | ran on agent idle => exact (Run.drive_echoes rfl idle).sourced
  | resumed on answer agent pending waits => exact (Run.drive_echoes rfl rfl).sourced
  | summarised on agent played sum => exact .of_summary sum

theorem after_sourced (t : Team σ) (s : Session) (moves : List (Move σ)) :
    Sourced s (t.after s moves) (t.journal s moves) := by
  induction moves generalizing s with
  | nil => exact .same rfl
  | cons m rest ih => exact (t.play_plays s m).sourced.append (ih _)

theorem asked_known (t : Team σ) {s : Session} (order : InOrder s) (moves : List (Move σ))
    {agent : String} {request : Model.Request} (asked : .asked agent request ∈ t.journal s moves) :
    agent ∈ t.names := by
  induction moves generalizing s with
  | nil => cases asked
  | cons m rest ih =>
    have plays := t.play_plays s m
    rcases List.mem_append.mp asked with now | later
    · obtain ⟨-, a, found, -⟩ := plays.asked order now
      rw [← name_of_get? found]
      exact List.mem_map_of_mem (List.mem_of_find?_eq_some found)
    · exact ih (plays.inOrder order) later

end Team

/-- In a session that was begun afresh every call that has a result was made in a turn. -/
theorem Team.settled_turn (t : Team σ) {s : Session} (fresh : s.Fresh) (moves : List (Move σ))
    {caller : String} {call : ToolCall} {how : Settlement}
    (settled : .settled caller call how ∈ t.journal s moves) :
    ∃ calls, TurnIn (t.journal s moves) caller calls ∧ call ∈ calls := by
  have balanced := t.journal_balanced s moves
  rw [Session.outstanding_of_none fresh.pending, Balanced, List.nil_append] at balanced
  have among : ((caller, call), how) ∈ settledIn (t.journal s moves) :=
    List.mem_filterMap.mpr ⟨_, settled, rfl⟩
  have issued : (caller, call) ∈ issuedIn (t.journal s moves) := by
    rw [balanced]
    exact List.mem_append_left _ (List.mem_map_of_mem among)
  obtain ⟨entry, there, made⟩ := List.mem_flatMap.mp issued
  cases entry with
  | replied agent calls usage =>
    obtain ⟨other, isCall, same⟩ := List.mem_map.mp made
    cases same
    exact ⟨calls, (t.after_sourced s moves).turns _ _ _ there, isCall⟩
  | _ => cases made

/-! ## Views -/

namespace View

theorem pairedFrom_sublist (seen : List String) (messages : List Message) :
    (pairedFrom seen messages).Sublist messages := by
  induction messages generalizing seen with
  | nil => exact .slnil
  | cons m rest ih =>
    rcases pairedFrom_cons seen m rest with ⟨kept, -⟩ | ⟨dropped, -⟩
    · rw [kept]
      exact (ih _).cons_cons m
    · rw [dropped]
      exact (ih _).cons m

theorem trimWith_sublist (policy : TrimPolicy) (max : Nat) (messages : List Message) :
    (trimWith policy max messages).Sublist messages := by
  unfold trimWith
  split
  · exact List.nil_sublist messages
  · exact (pairedFrom_sublist _ _).trans (List.drop_sublist _ _)

theorem told_of_conversation {s : Session} {a : Agent σ} {v : Message}
    (among : v ∈ conversation s a) :
    ∃ m, .message m ∈ s.items ∧ narrateItem a.name (.message m) = some v := by
  have told : v ∈ s.tail.filterMap (narrateItem a.name) := by
    unfold conversation at among
    split at among
    · exact (trimWith_sublist _ _ _).subset among
    · exact among
  obtain ⟨item, inTail, tells⟩ := List.mem_filterMap.mp told
  cases item with
  | summary text now => cases tells
  | message m => exact ⟨m, s.tail_suffix.subset inTail, tells⟩

theorem of_cases {σ : Type} {here : Surroundings} {s : Session} {a : Agent σ} {t : Team σ}
    {v : Message} (among : v ∈ View.of here s a t) :
    v.role = .system ∧ v.Simple ∨
      ∃ m, .message m ∈ s.items ∧ narrateItem a.name (.message m) = some v := by
  rcases List.mem_append.mp among with zone | conversation
  · exact .inl (zones_all (P := fun v => v.role = .system ∧ v.Simple)
      (fun _ h => ⟨h.1, h.2.calls, h.2.result⟩) (fun _ => ⟨rfl, rfl, rfl⟩) here s a t v zone)
  · exact .inr (told_of_conversation conversation)

theorem own_iff {viewer author : String} :
    Authorship.of viewer author = .own ↔ author = userAuthor ∨ author = viewer := by
  unfold Authorship.of userAuthor
  split
  · rename_i own
    simpa using own
  · rename_i foreign
    simpa using foreign

theorem told_foreign {viewer : String} {m : Authored} {v : Message}
    (foreign : Authorship.of viewer m.author ≠ .own) (role : m.message.role ≠ .system)
    (tells : narrateItem viewer (.message m) = some v) : v.role = .user ∧ v.Simple := by
  cases authorship : Authorship.of viewer m.author with
  | own => exact (foreign authorship).elim
  | foreign author =>
    rw [narrateItem, authorship] at tells
    rcases narrate_foreign tells with ⟨text, rfl⟩ | ⟨system, -⟩
    · exact ⟨rfl, rfl, rfl⟩
    · exact (role system).elim

end View

inductive MadeBy (j : List Activity) (agent : String) (v : Message) : Prop where
  | turn (role : v.role = .assistant) (turn : TurnIn j agent v.calls)
  | result {calls : List ToolCall} {call : ToolCall} (role : v.role = .tool)
      (turn : TurnIn j agent calls) (made : call ∈ calls) (id : v.toolCallId = some call.id)

theorem MadeBy.asked {j : List Activity} {agent : String} {v : Message} (h : MadeBy j agent v) :
    ∃ request, .asked agent request ∈ j := by
  have asked {calls : List ToolCall} (turn : TurnIn j agent calls) :
      ∃ request, .asked agent request ∈ j := by
    obtain ⟨front, request, usage, back, rfl⟩ := turn
    exact ⟨request, by simp⟩
  cases h with
  | turn role turn => exact asked turn
  | result role turn => exact asked turn

theorem Origin.role {j : List Activity} {m : Authored} (h : Origin j (.message m)) :
    m.message.role ≠ .system := by
  intro system
  cases h with
  | said role | turn role | interrupted role | result role =>
    rw [role] at system
    cases system

/-- What calls something or answers a call was made in a turn of its author. -/
theorem Origin.madeBy {t : Team σ} {s : Session} (fresh : s.Fresh) {moves : List (Move σ)}
    {m : Authored} (h : Origin (t.journal s moves) (.message m))
    (structured : m.message.Structured) :
    MadeBy (t.journal s moves) m.author m.message := by
  cases h with
  | said role simple => exact (simple.not_structured (by simp [role]) structured).elim
  | turn role alone turn => exact .turn role turn
  | interrupted role simple => exact (simple.not_structured (by simp [role]) structured).elim
  | result role id calls settled =>
    obtain ⟨made, turn, among⟩ := t.settled_turn fresh moves settled
    exact .result role turn among id

/-- Of the calls and results in a session an agent sees those of its own turns. All that others do
is told to it as something the user says. Only where an agent of the team has the name of the user,
which is empty, everyone sees what that agent does as well. -/
theorem views_isolated (t : Team σ) {s₀ : Session} (fresh : s₀.Fresh) (moves : List (Move σ))
    (here : Surroundings) (a : Agent σ) :
    let s := t.after s₀ moves
    let j := t.journal s₀ moves
    (∀ v ∈ View.of here s a t, v.Structured →
      ∃ author, MadeBy j author v ∧
        (author = a.name ∨ author = userAuthor ∧ userAuthor ∈ t.names)) ∧
    (∀ v ∈ View.of here s a t, v.role = .system ∧ v.Simple ∨
      ∃ m, .message m ∈ s.items ∧ narrateItem a.name (.message m) = some v) ∧
    ∀ m v, .message m ∈ s.items → m.author ≠ a.name → m.author ≠ userAuthor →
      narrateItem a.name (.message m) = some v → v.role = .user ∧ v.Simple := by
  intro s j
  have origin {m : Authored} (among : .message m ∈ s.items) : Origin j (.message m) := by
    obtain ⟨new, items, origins⟩ := (t.after_sourced s₀ moves).items
    rw [fresh.items, List.nil_append] at items
    exact origins _ (items ▸ among)
  refine ⟨?_, fun v among => View.of_cases among, ?_⟩
  rotate_left
  · intro m v among other agent tells
    refine View.told_foreign ?_ (origin among).role tells
    rw [Ne, View.own_iff]
    rintro (user | viewer)
    · exact agent user
    · exact other viewer
  intro v among structured
  rcases View.of_cases among with ⟨role, simple⟩ | ⟨m, inSession, tells⟩
  · exact (simple.not_structured (by simp [role]) structured).elim
  by_cases own : Authorship.of a.name m.author = .own
  · rw [narrateItem_own own] at tells
    cases tells
    have made : MadeBy j m.author m.message := (origin inSession).madeBy fresh structured
    refine ⟨m.author, ?_, ?_⟩
    · cases made with
      | turn role turn => exact .turn role turn
      | result role turn among id => exact .result role turn among id
    · rcases View.own_iff.mp own with user | viewer
      · obtain ⟨request, asked⟩ := made.asked
        rw [user] at asked ⊢
        exact .inr ⟨rfl, t.asked_known fresh.inOrder moves asked⟩
      · exact .inl viewer
  · obtain ⟨role, simple⟩ := View.told_foreign own (origin inSession).role tells
    exact (simple.not_structured (by simp [role]) structured).elim

namespace Sample

/-- An agent with the name of the user, and a helper that is never asked. -/
def nameless : Team Model.Playback where
  agents := [member "" [], member "helper" []]
  root := member "" []
  distinct := by simp [member]
  known := by simp [member]
  root_mem := .head _

def touched : List (Move Model.Playback) :=
  [.say "go" noon, .run (occasion [[.callStart "1" "touch", .done none none], [.text "done"]])]

end Sample

/-- The helper sees calls and results, and none of them is its own. -/
theorem views_isolated_sample :
    let view := View.of Sample.setup.here (Sample.nameless.after Sample.session Sample.touched)
      (Sample.member "helper" []) Sample.nameless
    let j := Sample.nameless.journal Sample.session Sample.touched
    (∃ v ∈ view, v.calls = [Sample.call "1"]) ∧
      ∀ v ∈ view, v.Structured → MadeBy j userAuthor v := by
  intro view j
  have asked : askedIn j = ["", ""] := by rfl
  constructor
  · have shown : view.any (fun v => v.calls == [Sample.call "1"]) = true := by rfl
    obtain ⟨v, among, calls⟩ := List.any_eq_true.mp shown
    exact ⟨v, among, eq_of_beq calls⟩
  · intro v among structured
    have fresh : Sample.session.Fresh := ⟨rfl, rfl⟩
    obtain ⟨author, made, helper | ⟨user, -⟩⟩ :=
      (views_isolated Sample.nameless fresh Sample.touched Sample.setup.here
        (Sample.member "helper" [])).1 v among structured
    · obtain ⟨request, dispatched⟩ := made.asked
      have among : author ∈ askedIn j := List.mem_filterMap.mpr ⟨_, dispatched, rfl⟩
      rw [asked, helper] at among
      simp [Sample.member] at among
    · rwa [← user]

end Ensemble
