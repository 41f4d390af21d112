import Ensemble.Proofs.Transcript
import Ensemble.Proofs.View.Pairing

/-!
# The requests of a session

A view begins behind the latest summary. In an orderly transcript every call of the view has its
results (`answered_told`), and every result has its call, unless the summary came while the session
was suspended: then the results of the calls that waited stand behind the summary, and their calls
before it (`Cut`). Trimming drops such results. A view that is not trimmed shows them to the agent
that made the calls.

Requests are read off the journal; that no model is asked otherwise is `Setup.run_accounted`.
-/

namespace Ensemble

open Session (Item isAssistant)
open View (Authorship narrateItem)

/-! ## Orderly transcripts -/

def Session.enter (due : List (String × ToolCall)) : Item → List (String × ToolCall)
  | .message m =>
    match m.message.role with
    | .assistant => m.message.calls.map (m.author, ·)
    | .tool => due.tail
    | .user | .system => due
  | .summary _ _ => due

/-- The calls that wait at the end of a transcript. -/
def Session.due (items : List Item) : List (String × ToolCall) := items.foldl Session.enter []

namespace Orderly

variable {due due' : List (String × ToolCall)} {items : List Item}

theorem foldl_enter (h : Orderly due items due') : items.foldl Session.enter due = due' := by
  induction h with
  | nil => rfl
  | summary text now _ ih => exact ih
  | spoken role calls _ ih => rwa [List.foldl_cons, Session.enter, role]
  | turn role _ ih => rwa [List.foldl_cons, Session.enter, role]
  | result role calls id _ ih => rwa [List.foldl_cons, Session.enter, role]

theorem plain (h : Orderly due items due') {m : Authored} (among : .message m ∈ items)
    (role : m.message.role ≠ .assistant) : m.message.calls = [] := by
  induction h with
  | nil => cases among
  | summary text now _ ih =>
    rcases List.mem_cons.mp among with same | among
    · cases same
    · exact ih among
  | spoken _ calls _ ih =>
    rcases List.mem_cons.mp among with same | among
    · cases same
      exact calls
    · exact ih among
  | turn assistant _ ih =>
    rcases List.mem_cons.mp among with same | among
    · cases same
      exact (role assistant).elim
    · exact ih among
  | result _ calls _ _ ih =>
    rcases List.mem_cons.mp among with same | among
    · cases same
      exact calls
    · exact ih among

/-- The calls that wait together are all of one agent. -/
theorem one_author (h : Orderly due items due')
    (before : ∃ author, ∀ made ∈ due, made.1 = author) :
    ∃ author, ∀ made ∈ due', made.1 = author := by
  induction h with
  | nil => exact before
  | summary text now _ ih => exact ih before
  | spoken role calls _ ih => exact ih before
  | @turn due' rest m role _ ih =>
    apply ih
    exists m.author
    intro made among
    obtain ⟨call, -, rfl⟩ := List.mem_map.mp among
    rfl
  | result role calls id _ ih =>
    obtain ⟨author, all⟩ := before
    exact ih ⟨author, fun made among => all made (.tail _ among)⟩

theorem origin (h : Orderly due items due') {made : String × ToolCall} (waits : made ∈ due') :
    made ∈ due ∨ ∃ m, .message m ∈ items ∧ m.message.role = .assistant ∧ m.author = made.1 ∧
      made.2 ∈ m.message.calls := by
  induction h with
  | nil => exact .inl waits
  | summary text now _ ih =>
    rcases ih waits with before | ⟨m, among, found⟩
    · exact .inl before
    · exact .inr ⟨m, .tail _ among, found⟩
  | spoken role calls _ ih =>
    rcases ih waits with before | ⟨m, among, found⟩
    · exact .inl before
    · exact .inr ⟨m, .tail _ among, found⟩
  | @turn due' rest reply role _ ih =>
    rcases ih waits with before | ⟨m, among, found⟩
    · obtain ⟨call, hcall, rfl⟩ := List.mem_map.mp before
      exact .inr ⟨reply, .head _, role, rfl, hcall⟩
    · exact .inr ⟨m, .tail _ among, found⟩
  | result role calls id _ ih =>
    rcases ih waits with before | ⟨m, among, found⟩
    · exact .inl (.tail _ before)
    · exact .inr ⟨m, .tail _ among, found⟩

theorem answered (h : Orderly due items []) {made : String × ToolCall} (waited : made ∈ due) :
    ∃ m, .message m ∈ items ∧ m.message.role = .tool ∧ m.author = made.1 ∧
      m.message.toolCallId = some made.2.id := by
  generalize last : ([] : List (String × ToolCall)) = due' at h
  induction h with
  | nil =>
    subst last
    cases waited
  | summary text now _ ih =>
    obtain ⟨m, among, found⟩ := ih waited last
    exact ⟨m, .tail _ among, found⟩
  | spoken role calls _ ih =>
    obtain ⟨m, among, found⟩ := ih waited last
    exact ⟨m, .tail _ among, found⟩
  | turn => cases waited
  | @result due due' rest result call role calls id _ ih =>
    rcases List.mem_cons.mp waited with rfl | waited
    · exact ⟨result, .head _, role, rfl, id⟩
    · obtain ⟨m, among, found⟩ := ih waited last
      exact ⟨m, .tail _ among, found⟩

/-- The first call that waits gets its result before there is another reply. -/
theorem first_result {made : String × ToolCall} (h : Orderly (made :: due) items []) :
    ∃ before m after, items = before ++ .message m :: after ∧ m.message.role = .tool ∧
      m.author = made.1 ∧ ∀ item ∈ before, isAssistant item = false := by
  generalize first : made :: due = waiting at h
  generalize last : ([] : List (String × ToolCall)) = due' at h
  induction h with
  | nil =>
    subst last
    cases first
  | summary text now _ ih =>
    obtain ⟨before, m, after, rfl, role, author, quiet⟩ := ih first last
    exact ⟨.summary text now :: before, m, after, rfl, role, author, by simpa [isAssistant]⟩
  | @spoken due due' rest said user calls _ ih =>
    obtain ⟨before, m, after, rfl, role, author, quiet⟩ := ih first last
    refine ⟨.message said :: before, m, after, rfl, role, author, ?_⟩
    simpa [isAssistant, user] using quiet
  | turn => cases first
  | @result due due' rest m call role calls id _ ih =>
    cases first
    exact ⟨[], m, rest, rfl, role, rfl, by simp⟩

end Orderly

/-! ## What is told -/

theorem narrateItem_own {viewer : String} {m : Authored}
    (own : Authorship.of viewer m.author = .own) :
    narrateItem viewer (.message m) = some { m.message with checkpoint := false } := by
  rw [narrateItem, own, View.narrate]

/-- What others did is told in the words of the user, and what the system says in its own. -/
theorem View.narrate_foreign {m told : Message} {author : String}
    (tells : View.narrate m (.foreign author) = some told) :
    (∃ text, told = .user text) ∨ m.role = .system ∧ told = .system m.content := by
  simp only [View.narrate] at tells
  split at tells
  · split at tells
    · cases tells
    · exact .inl ⟨_, (Option.some.inj tells).symm⟩
  · split at tells
    · cases tells
    · exact .inl ⟨_, (Option.some.inj tells).symm⟩
  · exact .inl ⟨_, (Option.some.inj tells).symm⟩
  · rename_i system
    exact .inr ⟨system, (Option.some.inj tells).symm⟩

theorem narrateItem_cases {viewer : String} {item : Item} {told : Message}
    (h : narrateItem viewer item = some told) :
    (∃ m, item = .message m ∧ Authorship.of viewer m.author = .own ∧
        told = { m.message with checkpoint := false }) ∨
      (told.role = .user ∨ told.role = .system) ∧ told.calls = [] := by
  cases item with
  | summary text now => cases h
  | message m =>
    cases authorship : Authorship.of viewer m.author with
    | own =>
      rw [narrateItem_own authorship] at h
      cases h
      exact .inl ⟨m, rfl, authorship, rfl⟩
    | foreign author =>
      rw [narrateItem, authorship] at h
      rcases View.narrate_foreign h with ⟨text, rfl⟩ | ⟨-, rfl⟩
      · exact .inr ⟨.inl rfl, rfl⟩
      · exact .inr ⟨.inr rfl, rfl⟩

theorem filterMap_split {α β : Type} {f : α → Option β} {xs : List α} {before after : List β}
    {y : β} (h : xs.filterMap f = before ++ y :: after) :
    ∃ front x back, xs = front ++ x :: back ∧ front.filterMap f = before ∧ f x = some y ∧
      back.filterMap f = after := by
  obtain ⟨front, others, rfl, rfl, rest⟩ := List.filterMap_eq_append_iff.mp h
  obtain ⟨silent, x, back, rfl, hidden, shown, rfl⟩ := List.filterMap_eq_cons_iff.mp rest
  refine ⟨front ++ silent, x, back, by rw [List.append_assoc], ?_, shown, rfl⟩
  rw [List.filterMap_append, List.filterMap_eq_nil_iff.mpr hidden, List.append_nil]

section Told

variable {viewer : String} {due due' : List (String × ToolCall)} {items : List Item}

theorem plain_told (h : Orderly due items due') :
    Plain (items.filterMap (narrateItem viewer)) := by
  intro told among role
  obtain ⟨item, inItems, tells⟩ := List.mem_filterMap.mp among
  rcases narrateItem_cases tells with ⟨m, rfl, -, rfl⟩ | ⟨-, calls⟩
  · exact h.plain inItems role
  · exact calls

theorem answered_told (h : Orderly due items []) :
    Answered (items.filterMap (narrateItem viewer)) := by
  intro before told after split role c hc
  obtain ⟨front, item, back, rfl, -, tells, rfl⟩ := filterMap_split split
  obtain ⟨waiting, -, rest⟩ := h.split
  rcases narrateItem_cases tells with ⟨m, rfl, own, rfl⟩ | ⟨-, calls⟩
  · obtain ⟨-, rest⟩ := rest.of_turn role
    obtain ⟨result, among, isResult, author, id⟩ := rest.answered (List.mem_map.mpr ⟨c, hc, rfl⟩)
    have own' : Authorship.of viewer result.author = .own := by rw [author]; exact own
    exact ⟨_, List.mem_filterMap.mpr ⟨_, among, narrateItem_own own'⟩, isResult, id⟩
  · rw [calls] at hc
    cases hc

/-- A view that begins while no call of the viewer waits has the call of every result. -/
theorem called_told (h : Orderly due items due')
    (whole : ∀ made ∈ due, Authorship.of viewer made.1 ≠ .own) :
    Called (items.filterMap (narrateItem viewer)) := by
  intro before told after split role
  obtain ⟨front, item, back, rfl, rfl, tells, -⟩ := filterMap_split split
  obtain ⟨waiting, first, rest⟩ := h.split
  rcases narrateItem_cases tells with ⟨m, rfl, own, rfl⟩ | ⟨other, -⟩
  · obtain ⟨call, others, rfl, id, -⟩ := rest.of_result role
    rcases first.origin (.head _) with waited | ⟨reply, among, assistant, author, made⟩
    · exact (whole _ waited own).elim
    · have own' : Authorship.of viewer reply.author = .own := by rw [author]; exact own
      exact ⟨_, List.mem_filterMap.mpr ⟨_, among, narrateItem_own own'⟩, assistant, call, made, id⟩
  · rcases other with other | other <;> rw [other] at role <;> cases role

/-- A view that begins while a call of the viewer waits has a result without its call. -/
theorem not_called_told {made : String × ToolCall} (h : Orderly (made :: due) items [])
    (own : Authorship.of viewer made.1 = .own) :
    ¬ Called (items.filterMap (narrateItem viewer)) := by
  obtain ⟨front, m, back, rfl, role, author, quiet⟩ := h.first_result
  have told : narrateItem viewer (.message m) = some { m.message with checkpoint := false } :=
    narrateItem_own (by rw [author]; exact own)
  intro called
  obtain ⟨caller, among, assistant, -⟩ := called (front.filterMap (narrateItem viewer))
    { m.message with checkpoint := false } (back.filterMap (narrateItem viewer))
    (by rw [List.filterMap_append, List.filterMap_cons_some told]) role
  obtain ⟨item, inFront, tells⟩ := List.mem_filterMap.mp among
  rcases narrateItem_cases tells with ⟨reply, rfl, -, rfl⟩ | ⟨other, -⟩
  · have reply := quiet _ inFront
    simp only [isAssistant, beq_eq_false_iff_ne, ne_eq] at reply
    exact reply assistant
  · rcases other with other | other <;> rw [other] at assistant <;> cases assistant

end Told

/-! ## The latest summary -/

namespace Session

theorem sinceSummary_messages {items : List Item} (h : ∀ item ∈ items, ∃ m, item = .message m) :
    sinceSummary items = (none, items) := by
  induction items with
  | nil => rfl
  | cons item items ih =>
    obtain ⟨m, rfl⟩ := h item (.head _)
    simp only [sinceSummary, ih fun other among => h other (.tail _ among)]

theorem sinceSummary_append {more : List Item} (h : ∀ item ∈ more, ∃ m, item = .message m)
    (items : List Item) :
    sinceSummary (items ++ more) = ((sinceSummary items).1, (sinceSummary items).2 ++ more) := by
  induction items with
  | nil => simp only [List.nil_append, sinceSummary_messages h, sinceSummary]
  | cons item items ih =>
    simp only [List.cons_append, sinceSummary, ih]
    rcases sinceSummary items with ⟨_ | text, tail⟩
    · cases item <;> rfl
    · rfl

theorem sinceSummary_cases (items : List Item) :
    sinceSummary items = (none, items) ∨
      ∃ front text now tail, items = front ++ .summary text now :: tail ∧
        sinceSummary items = (some text, tail) := by
  induction items with
  | nil => exact .inl rfl
  | cons item items ih =>
    rcases ih with never | ⟨front, text, now, tail, rfl, latest⟩
    · cases item with
      | message m => exact .inl (by simp only [sinceSummary, never])
      | summary text now =>
        exact .inr ⟨[], text, now, items, rfl, by simp only [sinceSummary, never]⟩
    · exact .inr ⟨item :: front, text, now, tail, rfl, by simp only [sinceSummary, latest]⟩

theorem tail_suffix (s : Session) : s.tail <:+ s.items := by
  rcases sinceSummary_cases s.items with never | ⟨front, text, now, tail, items, latest⟩
  · exact ⟨[], by simp [Session.tail, never]⟩
  · rw [Session.tail, latest, items]
    exact (List.suffix_cons _ tail).trans (List.suffix_append front _)

/-- What the latest summary stands for. -/
def folded (s : Session) : List Item := s.items.take (s.items.length - s.tail.length)

theorem folded_append_tail (s : Session) : s.folded ++ s.tail = s.items := by
  obtain ⟨front, split⟩ := s.tail_suffix
  have items : s.items = front ++ s.tail := split.symm
  have size : s.items.length - s.tail.length = front.length := by
    rw [items, List.length_append, Nat.add_sub_cancel]
  rw [folded, size]
  conv => lhs; rw [items, List.take_left]
  exact split

/-- `s'` is `s` with more messages, but no other summary. -/
def Grown (s s' : Session) : Prop :=
  ∃ more, s'.items = s.items ++ more ∧ ∀ item ∈ more, ∃ m, item = .message m

theorem Grown.refl (s : Session) : Grown s s := ⟨[], by simp, by simp⟩

theorem Grown.add {s s' s'' : Session} (h : Grown s s') {more : List Item}
    (items : s''.items = s'.items ++ more) (messages : ∀ item ∈ more, ∃ m, item = .message m) :
    Grown s s'' := by
  obtain ⟨before, items', messages'⟩ := h
  refine ⟨before ++ more, ?_, ?_⟩
  · rw [items, items', List.append_assoc]
  · intro item among
    rcases List.mem_append.mp among with among | among
    · exact messages' item among
    · exact messages item among

theorem Grown.folded {s s' : Session} (h : Grown s s') : s'.folded = s.folded := by
  obtain ⟨more, items, messages⟩ := h
  have tail : s'.tail = s.tail ++ more := by
    rw [Session.tail, items, sinceSummary_append messages]
    rfl
  rw [Session.folded, tail, items, List.length_append, List.length_append, Nat.add_sub_add_right,
    List.take_append_of_le_length (Nat.sub_le _ _)]
  rfl

end Session

/-- The latest summary came while calls of `viewer` waited for their results. -/
def Cut (s : Session) (viewer : String) : Prop :=
  ∃ made ∈ Session.due s.folded, Authorship.of viewer made.1 = .own

variable {σ : Type}

theorem answered_conversation {s : Session} (h : Orderly [] s.items []) (a : Agent σ) :
    Answered (View.conversation s a) := by
  rw [← s.folded_append_tail] at h
  obtain ⟨due, -, after⟩ := h.split
  unfold View.conversation
  cases a.historyLimit with
  | some max => exact (View.paired_trimWith _ max (plain_told after) (answered_told after)).answered
  | none => exact answered_told after

theorem paired_conversation {s : Session} (h : Orderly [] s.items []) (a : Agent σ) :
    Paired (View.conversation s a) ↔ a.historyLimit.isSome = true ∨ ¬ Cut s a.name := by
  rw [← s.folded_append_tail] at h
  obtain ⟨due, before, after⟩ := h.split
  have waited : Session.due s.folded = due := before.foldl_enter
  unfold View.conversation
  cases a.historyLimit with
  | some max =>
    refine iff_of_true (View.paired_trimWith _ max (plain_told after) (answered_told after)) ?_
    exact .inl rfl
  | none =>
    constructor
    · rintro ⟨called, -⟩
      refine .inr fun ⟨made, among, own⟩ => ?_
      rw [waited] at among
      obtain ⟨author, all⟩ := before.one_author ⟨"", by simp⟩
      cases due with
      | nil => cases among
      | cons first rest =>
        rw [all made among, ← all first (.head _)] at own
        exact not_called_told after own called
    · rintro (limited | whole)
      · cases limited
      · refine ⟨called_told after fun made among own => whole ⟨made, ?_, own⟩, answered_told after⟩
        rwa [waited]

theorem requestOf_messages (setup : Setup σ) (s : Session) (a : Agent σ) :
    (Run.requestOf setup s a).messages = View.of setup.here s a setup.team := by
  unfold Run.requestOf Model.Request.withTools
  split <;> rfl

theorem answered_request (setup : Setup σ) {s : Session} (h : Orderly [] s.items [])
    (a : Agent σ) : Answered (Run.requestOf setup s a).messages := by
  rw [requestOf_messages, View.of, answered_system_append (View.zones_system _ _ _ _)]
  exact answered_conversation h a

theorem paired_request (setup : Setup σ) {s : Session} (h : Orderly [] s.items []) (a : Agent σ) :
    Paired (Run.requestOf setup s a).messages ↔
      a.historyLimit.isSome = true ∨ ¬ Cut s a.name := by
  rw [requestOf_messages, View.of, paired_system_append (View.zones_system _ _ _ _),
    paired_conversation h]

/-! ## Runs -/

namespace Run

variable {setup : Setup σ} {s : Session}

/-- An agent asked when no call waited, in a session that had grown out of `s`. -/
def AskedFrom (setup : Setup σ) (s : Session) (agent : String) (request : Model.Request) : Prop :=
  ∃ a s', setup.team.get? agent = some a ∧ s.Grown s' ∧ Orderly [] s'.items [] ∧
    request = requestOf setup s' a

theorem AskedFrom.answered {agent : String} {request : Model.Request}
    (h : AskedFrom setup s agent request) : Answered request.messages := by
  obtain ⟨a, s', -, -, orderly, rfl⟩ := h
  exact answered_request setup orderly a

theorem AskedFrom.paired_iff {agent : String} {request : Model.Request}
    (h : AskedFrom setup s agent request) :
    ∃ a, setup.team.get? agent = some a ∧
      (Paired request.messages ↔ a.historyLimit.isSome = true ∨ ¬ Cut s a.name) := by
  obtain ⟨a, s', found, grown, orderly, rfl⟩ := h
  refine ⟨a, found, ?_⟩
  rw [paired_request setup orderly a, Cut, grown.folded, Cut]

/-- Since `s` only messages have been added, and all requests have been made from there. -/
structure Asks (setup : Setup σ) (s s' : Session) (j : List Activity) : Prop where
  grown : s.Grown s'
  asked : ∀ agent request, .asked agent request ∈ j → AskedFrom setup s agent request

theorem Asks.settle {caller : String} {call : ToolCall} {how : Settlement} {s' s'' : Session}
    {j j' : List Activity} (h : Asks setup s s' j)
    (settles : Settles setup caller call how s' j s'' j') : Asks setup s s'' j' := by
  obtain ⟨content, later, items, briefings⟩ := settles.items
  constructor
  · apply h.grown.add items
    intro item among
    rcases List.mem_cons.mp among with rfl | among
    · exact ⟨_, rfl⟩
    · obtain ⟨target, text, rfl⟩ := briefings item among
      exact ⟨_, rfl⟩
  · intro agent request among
    rw [settles.journal] at among
    rcases List.mem_append.mp among with among | among
    · exact h.asked agent request among
    · cases List.mem_singleton.mp among

theorem Asks.ask {left : Nat} {r r' : Run σ} {a : Agent σ} (books : Books (.asking (left + 1), r))
    (h : Asks setup s r.session r.journal) (found : setup.team.get? r.agent = some a)
    (more : List Activity) (said : List Session.Item)
    (journal : r'.journal = r.journal ++ .asked r.agent (requestOf setup r.session a) :: more)
    (replies : ∀ agent request, .asked agent request ∉ more)
    (messages : ∀ item ∈ said, ∃ m, item = .message m)
    (items : r'.session.items = r.session.items ++ said) :
    Asks setup s r'.session r'.journal := by
  constructor
  · exact h.grown.add items messages
  · intro agent request among
    rw [journal] at among
    rcases List.mem_append.mp among with among | among
    · exact h.asked agent request among
    · rcases List.mem_cons.mp among with now | among
      · cases now
        exact ⟨a, r.session, found, h.grown, books.lacks rfl, rfl⟩
      · exact (replies agent request among).elim

theorem Effect.asks {x y : Stage × Run σ} (h : Effect setup x y) (books : Books x)
    (hx : Asks setup s x.2.session x.2.journal) : Asks setup s y.2.session y.2.journal := by
  cases h with
  | idled working before onward after session journal =>
    rwa [← session, ← journal] at hx
  | @unanswered left outcome a r r' found journal session =>
    rcases session with same | ⟨text, said⟩
    · exact hx.ask books found [] [] journal (by simp) (by simp) (by rw [same, List.append_nil])
    · exact hx.ask books found [] [.message ⟨r.agent, .assistant text, setup.now⟩] journal
        (by simp) (by simp) (by rw [said]; rfl)
  | @replied left y a message usage r r' found journal role items =>
    exact hx.ask books found [.replied r.agent message.calls usage]
      [.message ⟨r.agent, message, setup.now⟩] journal (by simp) (by simp) items
  | accepted yes settles => exact hx.settle settles
  | executed found allowed settles => exact hx.settle settles
  | settled before plain settles => exact hx.settle settles
  | @cancelled x caller queue r r' before working session journal =>
    dsimp only at hx
    rw [← session, ← journal] at hx
    exact @recordCancelled_keep σ setup caller (fun _ s' j => Asks setup s s' j)
      (fun settles before => before.settle settles) queue r' hx
  | suspended found asks session journal =>
    dsimp only at hx ⊢
    rw [session, journal]
    exact ⟨hx.grown, hx.asked⟩

theorem drive_asked {followUp : Run σ → Run σ} (quiet : Quiet followUp)
    {resumed : Option (Session.Pending × Answer)} {r : Run σ}
    (books : Books (opening setup resumed, r)) (new : r.journal = []) {agent : String}
    {request : Model.Request}
    (asked : .asked agent request ∈ (drive setup followUp resumed r).journal) :
    AskedFrom setup r.session agent request := by
  obtain ⟨outcome, r', steps, sum⟩ := drive_ends setup quiet resumed r
  have opened : Asks setup r.session r.session r.journal := by
    rw [new]
    exact ⟨.refl _, by simp⟩
  have ended : Books (.closed outcome, r') ∧ Asks setup r.session r'.session r'.journal :=
    steps.keep (P := fun x => Books x ∧ Asks setup r.session x.2.session x.2.journal)
      (fun step h => ⟨step.effect.books h.1, step.effect.asks h.1 h.2⟩) ⟨books, opened⟩
  obtain ⟨more, journal, summaries⟩ := sum.journal
  rw [journal] at asked
  rcases List.mem_append.mp asked with asked | asked
  · exact ended.2.asked agent request asked
  · cases summaries _ asked

end Run

/-! ## Sessions -/

theorem Run.Suggested.paired {j : List Activity} (h : Run.Suggested σ j) {agent : String}
    {request : Model.Request} (asked : .asked agent request ∈ j) : Paired request.messages := by
  cases h with
  | nothing => cases asked
  | @run m config lastUser lastAssistant setup r alone own new =>
    have books : Run.Books (Run.opening setup none, r) := by
      refine .of_idle (by rw [own]; rfl) ?_
      rw [own]
      exact .spoken rfl rfl (.nil [])
    obtain ⟨a, found, paired⟩ := (Run.drive_asked Run.quiet_id books new asked).paired_iff
    refine paired.mpr (.inr ?_)
    rw [own]
    rintro ⟨made, among, -⟩
    cases among

theorem Team.Plays.asked {t : Team σ} {s : Session} {m : Move σ} {played : Played}
    (h : t.Plays s m played) (order : InOrder s) {agent : String} {request : Model.Request}
    (asked : .asked agent request ∈ played.journal) :
    Answered request.messages ∧ ∃ a, t.get? agent = some a ∧
      (Paired request.messages ↔ a.historyLimit.isSome = true ∨ ¬ Cut s a.name) := by
  have orderly := order.orderly
  cases h with
  | said text now => cases asked
  | refused => cases asked
  | ran on agent idle =>
    rw [Session.outstanding_of_none idle] at orderly
    have made := Run.drive_asked (Run.quiet_followUp _) (.of_idle idle orderly) rfl asked
    exact ⟨made.answered, made.paired_iff⟩
  | resumed on answer agent pending waits =>
    rw [Session.outstanding_of_some waits] at orderly
    have made := Run.drive_asked (Run.quiet_followUp _) (.of_idle rfl orderly) rfl asked
    exact ⟨made.answered, made.paired_iff⟩
  | summarised on agent played sum =>
    obtain ⟨more, journal, summaries⟩ := sum.journal
    rw [journal] at asked
    cases summaries _ asked

/-- Wherever a session has got to, every call in the requests of its next move has its result. The
requests are paired, except those of an agent that sees its whole history when the latest summary
came while calls of its own waited. -/
theorem requests_paired (t : Team σ) {s₀ : Session} (fresh : s₀.Fresh) (moves : List (Move σ))
    (m : Move σ) :
    let s := t.after s₀ moves
    (∀ agent request, .asked agent request ∈ (t.play s m).journal →
      Answered request.messages ∧ ∃ a, t.get? agent = some a ∧
        (Paired request.messages ↔ a.historyLimit.isSome = true ∨ ¬ Cut s a.name)) ∧
      ∀ agent request, .asked agent request ∈ (t.play s m).aside → Paired request.messages := by
  intro s
  have order : InOrder s := t.after_inOrder fresh moves
  have plays : t.Plays s m (t.play s m) := t.play_plays s m
  exact ⟨fun agent request asked => plays.asked order asked,
    fun agent request asked => plays.suggested.paired asked⟩

/-- The user has the session summarised while it is suspended, -/
def Sample.summarised : Session :=
  Sample.team.after Sample.session (Sample.suspended ++
    [.summarize (Sample.occasion [[.text "The user wants it touched."]]) "root"])

/-- and only then accepts its calls. -/
def Sample.accepted : Played :=
  Sample.team.play Sample.summarised (.resume (Sample.occasion []) .acceptForSession)

theorem requests_paired_sample :
    ∃ request, .asked "root" request ∈ Sample.accepted.journal ∧ Answered request.messages ∧
      ¬ Paired request.messages := by
  have waited : Session.due Sample.summarised.folded =
      [("root", Sample.call "1"), ("root", Sample.call "2")] := by rfl
  have cut : Cut Sample.summarised "root" := by
    refine ⟨("root", Sample.call "1"), ?_, rfl⟩
    rw [waited]
    exact .head _
  have asks : Sample.accepted.journal.any
      (fun | .asked agent _ => agent == "root" | _ => false) = true := by rfl
  obtain ⟨entry, among, asked⟩ := List.any_eq_true.mp asks
  cases entry with
  | asked agent request =>
    cases eq_of_beq asked
    have fresh : Sample.session.Fresh := ⟨rfl, rfl⟩
    obtain ⟨answered, a, found, paired⟩ :=
      (requests_paired Sample.team fresh _ _).1 "root" request among
    have same : Sample.agent = a := Option.some.inj found
    refine ⟨request, among, answered, ?_⟩
    intro h
    rcases paired.mp h with limited | whole
    · rw [← same] at limited
      cases limited
    · rw [← same] at whole
      exact whole cut
  | _ => cases asked

end Ensemble
