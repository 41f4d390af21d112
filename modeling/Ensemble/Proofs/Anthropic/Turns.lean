import Mathlib.Data.List.Chain
import Ensemble.Anthropic.Conversation

/-!
# The turns of a conversation

Turns are joined from the end of the conversation. Each says something and none has the speaker of
its neighbour (`alternating_turns`); read one after the other they say what the messages say
(`uttered_turns`).

A conversation may answer the calls of each message of the assistant before its next message. Then
the turn behind one of the assistant opens with the results the assistant waits for (`fed_turns`):
whatever else stands in between, and whatever is joined to either turn, makes no calls and brings
no results.
-/

namespace Ensemble.Anthropic

variable {messages : List Message} {later : List Turn}

/-! ## What is said -/

def uttered (m : Message) : List (Speaker × Block) :=
  match m.role with
  | .system => []
  | .user => [(.user, .text m.content)]
  | .assistant =>
    (if m.content = "" then [] else [(.assistant, .text m.content)])
      ++ m.calls.map fun c => (.assistant, .toolUse c.id c.name (inputOf c))
  | .tool => [(.user, .toolResult (m.toolCallId.getD "") m.content none)]

def Turn.uttered (t : Turn) : List (Speaker × Block) := t.blocks.map (t.speaker, ·)

/-- Speakers take turns, and each says something. -/
structure Alternating (turns : List Turn) : Prop where
  speakers : (turns.map (·.speaker)).IsChain (· ≠ ·)
  spoken : ∀ t ∈ turns, t.blocks ≠ []

theorem uttered_eq (m : Message) :
    uttered m = ((spoken? m).map fun said => said.2.map (said.1, ·)).getD [] := by
  unfold uttered spoken?
  cases m.role with
  | assistant => by_cases h : m.content = "" <;> simp [h, Function.comp_def]
  | system | user | tool => rfl

theorem joinTurn_cases (speaker : Speaker) (blocks : List Block) (later : List Turn) :
    (∃ t rest, later = t :: rest ∧ t.speaker = speaker ∧
        joinTurn speaker blocks later = ⟨speaker, blocks ++ t.blocks⟩ :: rest) ∨
      (∀ t ∈ later.head?, t.speaker ≠ speaker) ∧
        joinTurn speaker blocks later = ⟨speaker, blocks⟩ :: later := by
  cases later with
  | nil => exact .inr ⟨nofun, rfl⟩
  | cons t rest =>
    by_cases same : t.speaker = speaker
    · exact .inl ⟨t, rest, rfl, same, if_pos same⟩
    · refine .inr ⟨?_, if_neg same⟩
      rintro _ ⟨⟩
      exact same

theorem uttered_joinTurn (speaker : Speaker) (blocks : List Block) (later : List Turn) :
    (joinTurn speaker blocks later).flatMap Turn.uttered =
      blocks.map (speaker, ·) ++ later.flatMap Turn.uttered := by
  rcases joinTurn_cases speaker blocks later with ⟨t, rest, rfl, rfl, joined⟩ | ⟨-, begun⟩
  · rw [joined]
    simp [Turn.uttered]
  · rw [begun, List.flatMap_cons]
    rfl

theorem Alternating.joinTurn (h : Alternating later) (speaker : Speaker) {blocks : List Block}
    (filled : blocks ≠ []) : Alternating (joinTurn speaker blocks later) := by
  rcases joinTurn_cases speaker blocks later with ⟨t, rest, rfl, rfl, joined⟩ | ⟨other, begun⟩
  · rw [joined]
    refine ⟨h.speakers, List.forall_mem_cons.mpr ⟨?_, (List.forall_mem_cons.mp h.spoken).2⟩⟩
    exact List.append_ne_nil_of_left_ne_nil filled _
  · rw [begun]
    refine ⟨h.speakers.cons ?_, List.forall_mem_cons.mpr ⟨filled, h.spoken⟩⟩
    intro speaker' next
    rw [List.head?_map] at next
    obtain ⟨t, first, rfl⟩ := Option.map_eq_some_iff.mp next
    exact (other t first).symm

theorem turns_cons (m : Message) (rest : List Message) :
    (uttered m = [] ∧ turns (m :: rest) = turns rest) ∨
      ∃ speaker blocks, blocks ≠ [] ∧ spoken? m = some (speaker, blocks) ∧
        turns (m :: rest) = joinTurn speaker blocks (turns rest) := by
  rw [uttered_eq, turns]
  cases said : spoken? m with
  | none => exact .inl ⟨rfl, rfl⟩
  | some contribution =>
    obtain ⟨speaker, _ | ⟨block, blocks⟩⟩ := contribution
    · exact .inl ⟨rfl, rfl⟩
    · exact .inr ⟨speaker, _, List.cons_ne_nil _ _, rfl, rfl⟩

theorem alternating_turns (messages : List Message) : Alternating (turns messages) := by
  induction messages with
  | nil => exact ⟨.nil, nofun⟩
  | cons m rest ih =>
    rcases turns_cons m rest with ⟨-, passed⟩ | ⟨speaker, blocks, filled, -, joined⟩
    · rwa [passed]
    · rw [joined]
      exact ih.joinTurn speaker filled

theorem uttered_turns (messages : List Message) :
    (turns messages).flatMap Turn.uttered = messages.flatMap uttered := by
  induction messages with
  | nil => rfl
  | cons m rest ih =>
    rw [List.flatMap_cons]
    rcases turns_cons m rest with ⟨nothing, passed⟩ | ⟨speaker, blocks, -, said, joined⟩
    · rw [passed, nothing, ih, List.nil_append]
    · rw [joined, uttered_joinTurn, ih, uttered_eq, said]
      rfl

theorem systemBlocks_eq (messages : List Message) :
    systemBlocks messages =
      (messages.filter (·.role = .system)).map fun m => ⟨m.content, m.checkpoint⟩ := by
  induction messages with
  | nil => rfl
  | cons m rest ih =>
    rw [systemBlocks] at ih ⊢
    cases role : m.role with
    | system => simp [systemBlock?, role, ih]
    | user | assistant | tool => simp [systemBlock?, role, ih]

/-! ## Calls and results -/

def Block.callId? : Block → Option String
  | .toolUse id _ _ => some id
  | _ => none

def Block.answeredId? : Block → Option String
  | .toolResult id _ _ => some id
  | _ => none

def callsIn (blocks : List Block) : List String := blocks.filterMap Block.callId?

def resultsIn (blocks : List Block) : List String := blocks.filterMap Block.answeredId?

/-- The results that come before the assistant speaks again. A result without an identifier has
the empty one. -/
def resultsAhead (messages : List Message) : List String :=
  ((messages.takeWhile (·.role ≠ .assistant)).filter (·.role = .tool)).map (·.toolCallId.getD "")

/-- Before the assistant speaks again, its calls have their results, in order and no others. -/
def AnsweredInTurn : List Message → Prop
  | [] => True
  | m :: rest =>
    (m.role = .assistant → resultsAhead rest = m.calls.map (·.id)) ∧ AnsweredInTurn rest

/-- The results in the turn that comes first, if it is one of the user. -/
def openingResults : List Turn → List String
  | ⟨.user, blocks⟩ :: _ => resultsIn blocks
  | _ => []

/-- Behind each turn of the assistant stand the results of its calls. -/
def Fed (turns : List Turn) : Prop :=
  ∀ t rest, t :: rest <:+ turns → t.speaker = .assistant → callsIn t.blocks = openingResults rest

theorem openingResults_joinTurn_user (blocks : List Block) (later : List Turn) :
    openingResults (joinTurn .user blocks later) = resultsIn blocks ++ openingResults later := by
  rcases joinTurn_cases .user blocks later with ⟨t, rest, rfl, speaker, joined⟩ | ⟨other, begun⟩
  · rw [joined]
    obtain ⟨_, more⟩ := t
    cases speaker
    exact List.filterMap_append
  · have silent : openingResults later = [] := by
      unfold openingResults
      split
      · exact absurd rfl (other _ rfl)
      · rfl
    rw [begun, silent, List.append_nil]
    rfl

theorem openingResults_joinTurn_assistant (blocks : List Block) (later : List Turn) :
    openingResults (joinTurn .assistant blocks later) = [] := by
  rcases joinTurn_cases .assistant blocks later with ⟨t, rest, rfl, -, joined⟩ | ⟨-, begun⟩
  · rw [joined]
    rfl
  · rw [begun]
    rfl

theorem Fed.of_cons {t : Turn} (h : Fed (t :: later)) : Fed later :=
  fun t' rest there => h t' rest (there.trans (List.suffix_cons t later))

theorem Fed.cons {t : Turn} (h : Fed later)
    (waits : t.speaker = .assistant → callsIn t.blocks = openingResults later) :
    Fed (t :: later) := by
  intro t' rest there
  rcases List.suffix_cons_iff.mp there with same | there
  · cases same
    exact waits
  · exact h t' rest there

theorem Fed.joinTurn_user (h : Fed later) (blocks : List Block) :
    Fed (joinTurn .user blocks later) := by
  rcases joinTurn_cases .user blocks later with ⟨t, rest, rfl, -, joined⟩ | ⟨-, begun⟩
  · rw [joined]
    exact h.of_cons.cons nofun
  · rw [begun]
    exact h.cons nofun

/-- What the assistant says waits for the results that come next, also when it is joined to a turn
that waits for others: then no results come before that turn, and so no calls are made before. -/
theorem Fed.joinTurn_assistant (h : Fed later) {blocks : List Block}
    (waits : callsIn blocks = openingResults later) : Fed (joinTurn .assistant blocks later) := by
  rcases joinTurn_cases .assistant blocks later with ⟨t, rest, rfl, speaker, joined⟩ | ⟨-, begun⟩
  · rw [joined]
    refine h.of_cons.cons fun _ => ?_
    have silent : callsIn blocks = [] := by
      obtain ⟨_, more⟩ := t
      cases speaker
      exact waits
    calc callsIn (blocks ++ t.blocks)
      _ = callsIn blocks ++ callsIn t.blocks := List.filterMap_append
      _ = callsIn t.blocks := by rw [silent, List.nil_append]
      _ = openingResults rest := h t rest List.suffix_rfl speaker
  · rw [begun]
    exact h.cons fun _ => waits

theorem callsIn_uttered {m : Message} (role : m.role = .assistant) :
    callsIn ((uttered m).map Prod.snd) = m.calls.map (·.id) := by
  have text : callsIn ((if m.content = "" then [] else
      [((.assistant, .text m.content) : Speaker × Block)]).map Prod.snd) = [] := by
    split <;> rfl
  have uses : callsIn ((m.calls.map fun c =>
      ((.assistant, .toolUse c.id c.name (inputOf c)) : Speaker × Block)).map Prod.snd) =
        m.calls.map (·.id) := by
    rw [callsIn, List.map_map, List.filterMap_map]
    exact congrFun List.filterMap_eq_map _
  simp only [uttered, role]
  rw [List.map_append, callsIn, List.filterMap_append]
  exact (congrArg₂ _ text uses).trans (List.nil_append _)

theorem resultsAhead_cons (m : Message) (rest : List Message) :
    resultsAhead (m :: rest) = match m.role with
      | .assistant => []
      | .tool => m.toolCallId.getD "" :: resultsAhead rest
      | _ => resultsAhead rest := by
  cases role : m.role <;> simp [resultsAhead, role]

/-- Results that come before the assistant speaks again open the turns, and all calls of the
assistant wait for the turn behind it. -/
theorem fed_turns (h : AnsweredInTurn messages) :
    openingResults (turns messages) = resultsAhead messages ∧ Fed (turns messages) := by
  induction messages with
  | nil => exact ⟨rfl, fun _ _ there => nomatch List.eq_nil_of_suffix_nil there⟩
  | cons m rest ih =>
    obtain ⟨answered, h⟩ := h
    obtain ⟨opening, fed⟩ := ih h
    rw [resultsAhead_cons]
    cases role : m.role with
    | system => simpa only [turns, spoken?, role] using ⟨opening, fed⟩
    | user =>
      simp only [turns, spoken?, role]
      exact ⟨(openingResults_joinTurn_user _ _).trans opening, fed.joinTurn_user _⟩
    | tool =>
      simp only [turns, spoken?, role]
      refine ⟨(openingResults_joinTurn_user _ _).trans ?_, fed.joinTurn_user _⟩
      rw [opening]
      rfl
    | assistant =>
      have waits : callsIn ((uttered m).map Prod.snd) = openingResults (turns rest) := by
        rw [callsIn_uttered role, opening, answered role]
      rcases turns_cons m rest with ⟨nothing, passed⟩ | ⟨speaker, blocks, -, said, joined⟩
      · rw [nothing] at waits
        rw [passed]
        exact ⟨waits.symm, fed⟩
      · have speaks : speaker = .assistant := by
          rw [spoken?, role] at said
          cases said
          rfl
        subst speaks
        have same : (uttered m).map Prod.snd = blocks := by
          rw [uttered_eq, said]
          simp [Function.comp_def]
        rw [same] at waits
        rw [joined]
        exact ⟨openingResults_joinTurn_assistant _ _, fed.joinTurn_assistant waits⟩

/-- Turns alternate and say all that the messages say, in their order and by the same speakers;
what the system says is kept apart, with its checkpoints. Where the calls of each message of the
assistant are answered before its next message, the user answers the calls of each turn in the turn
behind it. -/
theorem turns_lossless (messages : List Message) :
    Alternating (turns messages) ∧
      (turns messages).flatMap Turn.uttered = messages.flatMap uttered ∧
      systemBlocks messages =
        (messages.filter (·.role = .system)).map (fun m => ⟨m.content, m.checkpoint⟩) ∧
      (AnsweredInTurn messages → ∀ t rest, t :: rest <:+ turns messages →
        t.speaker = .assistant → callsIn t.blocks ≠ [] →
          ∃ next later, rest = next :: later ∧ next.speaker = .user ∧
            resultsIn next.blocks = callsIn t.blocks) := by
  refine ⟨alternating_turns messages, uttered_turns messages, systemBlocks_eq messages, ?_⟩
  intro answered t rest there speaker calls
  have waits := (fed_turns answered).2 t rest there speaker
  rw [waits] at calls ⊢
  unfold openingResults at calls ⊢
  split at calls
  · exact ⟨_, _, rfl, rfl, rfl⟩
  · exact absurd rfl calls

namespace Sample

/-- The user speaks before the results are in, the assistant says nothing between two turns of its
own, and so do two system messages. -/
def dialogue : List Message :=
  [{ Message.system "Be brief." with checkpoint := true }, .user "go",
    .assistant "" [⟨"a", "look", ""⟩, ⟨"b", "look", ""⟩], .user "Wait.", .toolResult "a" "red",
    .system "The light is off.", .toolResult "b" "blue", .assistant "", .assistant "Both.",
    .system "The light is on.", .assistant "" [⟨"c", "look", ""⟩], .toolResult "c" "green"]

def joined : Turn := ⟨.assistant, [.text "Both.", .toolUse "c" "look" (.object [])]⟩

end Sample

theorem turns_lossless_dialogue :
    AnsweredInTurn Sample.dialogue ∧
      ∃ front next, turns Sample.dialogue = front ++ [Sample.joined, next] ∧
        next.speaker = .user ∧ resultsIn next.blocks = ["c"] := by
  have answered : AnsweredInTurn Sample.dialogue := by
    simp [Sample.dialogue, AnsweredInTurn, resultsAhead, Message.system, Message.user,
      Message.assistant, Message.toolResult, Message.calls]
  have there : Sample.joined :: [⟨.user, [.toolResult "c" "green" none]⟩] <:+
      turns Sample.dialogue := ⟨(turns Sample.dialogue).take 3, rfl⟩
  obtain ⟨-, -, -, follows⟩ := turns_lossless Sample.dialogue
  obtain ⟨next, later, rest, user, results⟩ :=
    follows answered _ _ there rfl (List.cons_ne_nil _ _)
  obtain ⟨rfl, rfl⟩ := List.cons.inj rest
  obtain ⟨front, whole⟩ := there
  exact ⟨answered, front, _, whole.symm, user, results⟩

end Ensemble.Anthropic
