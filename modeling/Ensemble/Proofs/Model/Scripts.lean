import Ensemble.Proofs.Model.Streams
import Ensemble.Proofs.Run.Reply
import Ensemble.Proofs.Text.Digits
import Mathlib.Data.List.Induction
import Mathlib.Data.List.Nodup

/-!
# Scripts shared by clones

A scripted model and its clones take their replies from one script. Over any history of pushes,
clonings and calls, each call gets the first reply that nobody has taken yet; a call that finds
none is told so and takes none. The log of requests and the numbers of tool calls are shared in
the same way (`replies_in_order`).
-/

namespace Ensemble.Model

/-- One holder of a script: what it reports of itself and where its script is. -/
structure Player (σ : Type) where
  settings : ScriptedSettings
  part : Part σ Script

namespace Player

variable {σ : Type}

def model (p : Player σ) : Model σ := scripted p.settings p.part

def withOptions (p : Player σ) (options : Options) : Player σ :=
  { p with settings := { p.settings with options } }

/-- It is the clone that the model makes of itself. -/
theorem model_withOptions (p : Player σ) (options : Options) :
    (p.withOptions options).model = p.model.withOptions options := rfl

def push (p : Player σ) (reply : Reply) (world : σ) : σ :=
  p.part.set ((p.part.get world).push reply) world

def requests (p : Player σ) (world : σ) : List Request := (p.part.get world).requests

end Player

/-- What is done with the original, number zero, and its clones, numbered as they come. -/
inductive Deed where
  | push (number : Nat) (reply : Reply)
  | clone (number : Nat) (options : Options)
  | ask (number : Nat) (cancelled : Bool) (request : Request)

abbrev Answer := Except ModelError (List Step)

/-- A scripted model with its clones, the world they live in and what they have answered. -/
structure Family (σ : Type) where
  original : Player σ
  clones : List (Player σ) := []
  world : σ
  answers : List Answer := []

namespace Family

variable {σ : Type}

def players (f : Family σ) : List (Player σ) := f.original :: f.clones

def player (f : Family σ) (number : Nat) : Player σ := f.players[number]?.getD f.original

def act (f : Family σ) : Deed → Family σ
  | .push number reply => { f with world := (f.player number).push reply f.world }
  | .clone number options =>
    { f with clones := f.clones ++ [(f.player number).withOptions options] }
  | .ask number cancelled request =>
    let (answer, world) := (f.player number).model.complete cancelled request f.world
    { f with world, answers := f.answers ++ [answer] }

def after (f : Family σ) (deeds : List Deed) : Family σ := deeds.foldl act f

theorem after_append (f : Family σ) (before later : List Deed) :
    f.after (before ++ later) = (f.after before).after later := List.foldl_append

theorem player_mem (f : Family σ) (number : Nat) : f.player number ∈ f.players := by
  unfold player
  cases h : f.players[number]? with
  | none => exact List.mem_cons_self
  | some p => exact List.mem_of_getElem? h

theorem answers_act (f : Family σ) (deed : Deed) : f.answers <+: (f.act deed).answers := by
  cases deed with
  | push | clone => exact List.prefix_rfl
  | ask => exact List.prefix_append _ _

theorem answers_after (f : Family σ) (deeds : List Deed) :
    f.answers <+: (f.after deeds).answers := by
  induction deeds generalizing f with
  | nil => exact List.prefix_rfl
  | cons deed deeds ih => exact (f.answers_act deed).trans (ih (f.act deed))

end Family

/-! ## Histories -/

namespace Deed

@[simp] def reply? : Deed → Option Reply
  | .push _ reply => some reply
  | .clone .. | .ask .. => none

@[simp] def request? : Deed → Option Request
  | .ask _ _ request => some request
  | .push .. | .clone .. => none

@[simp] def options? : Deed → Option Options
  | .clone _ options => some options
  | .push .. | .ask .. => none

end Deed

def pushed (deeds : List Deed) : List Reply := deeds.filterMap Deed.reply?

def asked (deeds : List Deed) : List Request := deeds.filterMap Deed.request?

def cloned (deeds : List Deed) : List Options := deeds.filterMap Deed.options?

/-- The number of replies given so far, and how many of them are taken. -/
def tally : Nat × Nat → Deed → Nat × Nat
  | (given, taken), .push .. => (given + 1, taken)
  | (given, taken), .clone .. => (given, taken)
  | (given, taken), .ask .. => (given, min (taken + 1) given)

/-- Each call takes one of the replies given before it while there is one. -/
def taken (initial : List Reply) (deeds : List Deed) : Nat :=
  (deeds.foldl tally (initial.length, 0)).2

section

variable (initial : List Reply) (deeds : List Deed) (deed : Deed)

theorem pushed_snoc : pushed (deeds ++ [deed]) = pushed deeds ++ deed.reply?.toList := by
  rw [pushed, List.filterMap_append]
  cases deed <;> rfl

theorem asked_snoc : asked (deeds ++ [deed]) = asked deeds ++ deed.request?.toList := by
  rw [asked, List.filterMap_append]
  cases deed <;> rfl

theorem cloned_snoc : cloned (deeds ++ [deed]) = cloned deeds ++ deed.options?.toList := by
  rw [cloned, List.filterMap_append]
  cases deed <;> rfl

theorem given_snoc : (initial ++ pushed (deeds ++ [deed])).length =
    (initial ++ pushed deeds).length + deed.reply?.toList.length := by
  rw [pushed_snoc, ← List.append_assoc, List.length_append]

theorem given_eq :
    (deeds.foldl tally (initial.length, 0)).1 = (initial ++ pushed deeds).length := by
  induction deeds using List.reverseRecOn with
  | nil => rw [pushed, List.filterMap_nil, List.append_nil]; rfl
  | append_singleton deeds deed ih =>
    rw [List.foldl_append, List.foldl_cons, List.foldl_nil, given_snoc, ← ih]
    cases deed <;> rfl

theorem taken_snoc : taken initial (deeds ++ [deed]) =
    (tally ((initial ++ pushed deeds).length, taken initial deeds) deed).2 := by
  rw [taken, List.foldl_append, ← given_eq]
  rfl

theorem taken_le : taken initial deeds ≤ (initial ++ pushed deeds).length := by
  induction deeds using List.reverseRecOn with
  | nil => exact Nat.zero_le _
  | append_singleton deeds deed ih =>
    rw [taken_snoc, given_snoc]
    cases deed with
    | push | clone => exact Nat.le_add_right_of_le ih
    | ask => exact Nat.min_le_right _ _

end

theorem taken_eq_asked (initial : List Reply) (deeds : List Deed)
    (enough : ∀ before number cancelled request later,
      deeds = before ++ .ask number cancelled request :: later →
        (asked before).length < (initial ++ pushed before).length) :
    taken initial deeds = (asked deeds).length := by
  induction deeds using List.reverseRecOn with
  | nil => rfl
  | append_singleton deeds deed ih =>
    have earlier := ih fun before number cancelled request later split =>
      enough before number cancelled request (later ++ [deed]) (by rw [split]; simp)
    have counted : (asked (deeds ++ [deed])).length =
        (asked deeds).length + deed.request?.toList.length := by
      rw [asked_snoc, List.length_append]
    rw [taken_snoc, counted, earlier]
    cases deed with
    | push | clone => rfl
    | ask number cancelled request =>
      exact Nat.min_eq_left (enough deeds number cancelled request [] rfl)

/-! ## The numbers of tool calls -/

def callName (n : Nat) : String := s!"call_{n}"

theorem callName_injective : Function.Injective callName := by
  intro m n same
  have texts := congrArg String.toList same
  have digits : Nat.toDigits 10 m = Nat.toDigits 10 n := by simpa [callName] using texts
  simpa only [Text.digitsValue_toDigits] using congrArg Text.digitsValue digits

def callNames (first count : Nat) : List String := (List.range' first count).map callName

theorem callNames_append (first m n : Nat) :
    callNames first (m + n) = callNames first m ++ callNames (first + m) n := by
  rw [callNames, ← List.range'_append_1, List.map_append]
  rfl

theorem nodup_callNames (first count : Nat) : (callNames first count).Nodup :=
  List.Nodup.map callName_injective List.nodup_range'

def Step.delta? : Step → Option Delta
  | .item (.ok delta) _ | .checked delta => some delta
  | .item (.error _) _ | .wait _ => none

def Delta.opened? : Delta → Option String
  | .callStart id _ => some id
  | _ => none

def Delta.callId? : Delta → Option String
  | .callStart id _ | .callDelta id _ | .callEnd id => some id
  | _ => none

def opened (steps : List Step) : List String := steps.filterMap (·.delta?.bind Delta.opened?)

def callIds (steps : List Step) : List String := steps.filterMap (·.delta?.bind Delta.callId?)

theorem opened_append (steps rest : List Step) :
    opened (steps ++ rest) = opened steps ++ opened rest := List.filterMap_append

theorem callIds_append (steps rest : List Step) :
    callIds (steps ++ rest) = callIds steps ++ callIds rest := List.filterMap_append

/-- Calls have the names from `first` on, and each is begun, described and ended under its name. -/
structure Numbered (first count : Nat) (steps : List Step) : Prop where
  opened_eq : opened steps = callNames first count
  callIds_eq : callIds steps = (callNames first count).flatMap (List.replicate 3)

theorem Numbered.append {first m n : Nat} {steps rest : List Step} (h : Numbered first m steps)
    (later : Numbered (first + m) n rest) : Numbered first (m + n) (steps ++ rest) := by
  constructor
  · rw [opened_append, callNames_append, h.opened_eq, later.opened_eq]
  · rw [callIds_append, callNames_append, List.flatMap_append, h.callIds_eq, later.callIds_eq]

theorem numbered_textSteps (first : Nat) (text : String) :
    Numbered first 0 (Script.textSteps text) := by
  unfold Script.textSteps
  induction Script.pieces 15 text.toList with
  | nil => exact ⟨rfl, rfl⟩
  | cons cs _ ih => exact ⟨ih.opened_eq, ih.callIds_eq⟩

theorem numbered_callSteps (issued : Nat) (calls : List (String × String)) :
    Numbered (issued + 1) calls.length (Script.callSteps issued calls) := by
  induction calls generalizing issued with
  | nil => exact ⟨rfl, rfl⟩
  | cons call calls ih =>
    have one : Numbered (issued + 1) 1 (Script.callSteps issued [call]) := ⟨rfl, rfl⟩
    have all := one.append (ih (issued + 1))
    rwa [Nat.add_comm 1] at all

theorem Numbered.finished {first count : Nat} {steps : List Step} (h : Numbered first count steps)
    (reason : String) (usage : Usage) :
    Numbered first count (steps ++ [Script.finished reason usage]) :=
  h.append (n := 0) ⟨rfl, rfl⟩

theorem numbered_play {usage : Usage} {issued count : Nat} {reply : Reply} {steps : List Step}
    (h : Script.play usage issued reply = .ok (steps, count)) :
    Numbered (issued + 1) count steps := by
  have numbers (calls : List (String × Json)) : (Script.written calls).length = calls.length :=
    List.length_map _
  cases reply with
  | text words =>
    obtain ⟨rfl, rfl⟩ := Prod.mk.inj (Except.ok.inj h)
    exact (numbered_textSteps _ words).finished _ _
  | calls calls =>
    obtain ⟨rfl, rfl⟩ := Prod.mk.inj (Except.ok.inj h)
    rw [← numbers]
    exact (numbered_callSteps issued _).finished _ _
  | textThenCalls words calls =>
    obtain ⟨rfl, rfl⟩ := Prod.mk.inj (Except.ok.inj h)
    have said := (numbered_callSteps issued (Script.written calls)).finished "tool_use" usage
    rw [← numbers]
    exact ⟨said.opened_eq, said.callIds_eq⟩
  | rawCall name arguments =>
    obtain ⟨rfl, rfl⟩ := Prod.mk.inj (Except.ok.inj h)
    exact (numbered_callSteps issued [(name, arguments)]).finished _ _
  | error message => cases h
  | failAfter | delayed | hang =>
    obtain ⟨rfl, rfl⟩ := Prod.mk.inj (Except.ok.inj h)
    exact ⟨rfl, rfl⟩

/-! ## What a reply says -/

/-- The calls, one after the other, under the names from `first` on. -/
def numberedCalls (first : Nat) (calls : List (String × String)) : List ToolCall :=
  (calls.zipIdx first).map fun (call, n) => ⟨callName n, call.1, call.2⟩

namespace Reply

/-- The names of the tools that are called, and the texts of the arguments. -/
def called : Reply → List (String × String)
  | .calls made | .textThenCalls _ made => made.map fun (name, value) => (name, value.render)
  | .rawCall name arguments => [(name, arguments)]
  | .text _ | .error _ | .failAfter .. | .delayed .. | .hang => []

/-- Why a reply stops that comes to its end by itself. -/
def stopReason? : Reply → Option String
  | .text _ | .delayed .. => some "end_turn"
  | .calls _ | .textThenCalls .. | .rawCall .. => some "tool_use"
  | .error _ | .failAfter .. | .hang => none

/-- What somebody has put together who has heard all of a reply. -/
def heard (usage : Usage) (issued : Nat) (reply : Reply) : Assembly where
  text := reply.wording
  calls := numberedCalls (issued + 1) reply.called
  stopReason := reply.stopReason?
  usage := reply.stopReason?.map fun _ => usage

end Reply

def deltas (steps : List Step) : List Delta := (stream steps).filterMap Except.toOption

theorem deltas_append (steps rest : List Step) :
    deltas (steps ++ rest) = deltas steps ++ deltas rest := by
  simp [deltas, stream]

theorem takeAll_textSteps (a : Assembly) (text : String) (later : List Delta) :
    a.takeAll (deltas (Script.textSteps text) ++ later) =
      { a with text := a.text ++ text }.takeAll later := by
  have said (parts : List (List Char)) (a : Assembly) :
      a.takeAll (deltas (parts.map fun cs => .checked (.text (String.ofList cs))) ++ later) =
        { a with text := a.text ++ String.ofList parts.flatten }.takeAll later := by
    induction parts generalizing a with
    | nil => simp [deltas, stream]
    | cons cs parts ih =>
      refine (Assembly.takeAll_text a (String.ofList cs) _).trans ((ih _).trans ?_)
      rw [List.flatten_cons, String.ofList_append, String.append_assoc]
  rw [Script.textSteps, said, Script.flatten_pieces, String.ofList_toList]

theorem takeAll_callSteps (a : Assembly) (issued : Nat) (calls : List (String × String))
    (later : List Delta) :
    a.takeAll (deltas (Script.callSteps issued calls) ++ later) =
      { a with calls := a.calls ++ numberedCalls (issued + 1) calls }.takeAll later := by
  induction calls generalizing a issued with
  | nil => simp [deltas, stream, numberedCalls, Script.callSteps]
  | cons call calls ih =>
    let first : ToolCall := ⟨callName (issued + 1), call.1, call.2⟩
    have numbered : numberedCalls (issued + 1) (call :: calls) =
        first :: numberedCalls (issued + 2) calls := rfl
    refine (Assembly.takeAll_call a first _).trans ((ih _ (issued + 1)).trans ?_)
    rw [numbered]
    simp only [List.append_assoc, List.singleton_append]

theorem heard_play {usage : Usage} {issued count : Nat} {reply : Reply} {steps : List Step}
    (h : Script.play usage issued reply = .ok (steps, count)) :
    Assembly.takeAll {} (deltas steps) = .ok (reply.heard usage issued) := by
  cases reply with
  | text words =>
    obtain ⟨rfl, rfl⟩ := Prod.mk.inj (Except.ok.inj h)
    rw [deltas_append, takeAll_textSteps, String.empty_append]
    rfl
  | calls calls =>
    obtain ⟨rfl, rfl⟩ := Prod.mk.inj (Except.ok.inj h)
    rw [deltas_append, takeAll_callSteps]
    rfl
  | textThenCalls words calls =>
    obtain ⟨rfl, rfl⟩ := Prod.mk.inj (Except.ok.inj h)
    refine (Assembly.takeAll_text {} words _).trans ?_
    show Assembly.takeAll _ (deltas (_ ++ _)) = _
    rw [deltas_append, takeAll_callSteps, String.empty_append]
    rfl
  | rawCall name arguments =>
    obtain ⟨rfl, rfl⟩ := Prod.mk.inj (Except.ok.inj h)
    rw [deltas_append, takeAll_callSteps]
    rfl
  | error message => cases h
  | failAfter words error =>
    obtain ⟨rfl, rfl⟩ := Prod.mk.inj (Except.ok.inj h)
    refine (Assembly.takeAll_text {} words _).trans ?_
    rw [String.empty_append]
    rfl
  | delayed time words =>
    obtain ⟨rfl, rfl⟩ := Prod.mk.inj (Except.ok.inj h)
    refine (Assembly.takeAll_text {} words _).trans ?_
    rw [String.empty_append]
    rfl
  | hang =>
    obtain ⟨rfl, rfl⟩ := Prod.mk.inj (Except.ok.inj h)
    rfl

/-! ## One reply -/

/-- The steps to come; none when the request is refused. -/
def Answer.steps : Answer → List Step
  | .ok steps => steps
  | .error _ => []

/-- An answer that plays a reply. Every stream it can become ends, unless the reply hangs and is
not cancelled, is whole, and says the text of the reply as far as it goes. Nothing is missing of it
but what comes behind a cancellation, and who hears all of it has the text, the calls, the reason
to stop and the usage of the reply. -/
structure Answered (usage : Usage) (issued : Nat) (reply : Reply) (answer : Answer) : Prop where
  played : answer = (Script.play usage issued reply).map Prod.fst
  refused : ∀ e, answer = .error e ↔ ∃ message, reply = .error message ∧ e = .requestFailed message
  ends : ∀ steps, answer = .ok steps → ∀ arrival,
    collected arrival steps = none ↔ reply = .hang ∧ arrival = none
  whole : ∀ steps, answer = .ok steps → ∀ arrival items, collected arrival steps = some items →
    Whole items
  said : ∀ steps, answer = .ok steps → ∀ arrival items, collected arrival steps = some items →
    spoken items <+: reply.wording.toList ∧ (arrival = none → spoken items = reply.wording.toList)
  cut : ∀ steps, answer = .ok steps → ∀ arrival items, collected arrival steps = some items →
    items = stream steps ∨ CutShort arrival steps items
  heard : ∀ steps, answer = .ok steps →
    Assembly.takeAll {} (deltas steps) = .ok (reply.heard usage issued)
  failed : ∀ steps, answer = .ok steps → ∀ words message, reply = .failAfter words message →
    (stream steps).getLast? = some (.error (.stream message))
  delivered : ∀ steps, answer = .ok steps → ∀ c, Whole (deliver c steps).1

theorem refused_play (usage : Usage) (issued : Nat) (reply : Reply) (e : ModelError) :
    (Script.play usage issued reply).map Prod.fst = .error e ↔
      ∃ message, reply = .error message ∧ e = .requestFailed message := by
  cases reply with
  | error message => simp [Script.play, Except.map, eq_comm]
  | _ => simp [Script.play, Except.map]

theorem answered_play (usage : Usage) (issued : Nat) (reply : Reply) :
    Answered usage issued reply ((Script.play usage issued reply).map Prod.fst) := by
  have steps_of {steps : List Step}
      (h : (Script.play usage issued reply).map Prod.fst = .ok steps) :
      ∃ count, Script.play usage issued reply = .ok (steps, count) := by
    cases played : Script.play usage issued reply with
    | error e =>
      rw [played] at h
      cases h
    | ok result =>
      rw [played] at h
      obtain rfl := Except.ok.inj h
      exact ⟨result.2, rfl⟩
  constructor
  case played => rfl
  case refused => exact refused_play usage issued reply
  case ends =>
    intro steps ok arrival
    obtain ⟨count, ok⟩ := steps_of ok
    obtain ⟨played, -, hangs⟩ := Script.play_ok ok
    rw [collected_eq_none_iff played, hangs]
  case whole =>
    intro steps ok arrival items collects
    obtain ⟨count, ok⟩ := steps_of ok
    exact whole_collected (Script.play_ok ok).1 collects
  case said =>
    intro steps ok arrival items collects
    obtain ⟨count, ok⟩ := steps_of ok
    obtain ⟨played, wording, -⟩ := Script.play_ok ok
    rw [← wording]
    exact spoken_collected played collects
  case cut =>
    intro steps ok arrival items collects
    obtain ⟨count, ok⟩ := steps_of ok
    rcases cut_collected (Script.play_ok ok).1 collects with ⟨-, -, -, all⟩ | short
    · exact .inl all
    · exact .inr short
  case heard =>
    intro steps ok
    obtain ⟨count, ok⟩ := steps_of ok
    exact heard_play ok
  case failed =>
    rintro steps ok words message rfl
    obtain ⟨count, ok⟩ := steps_of ok
    cases ok
    rfl
  case delivered =>
    intro steps ok c
    obtain ⟨count, ok⟩ := steps_of ok
    obtain ⟨arrival, collects⟩ := deliver_collected c steps
    exact whole_collected (Script.play_ok ok).1 collects

theorem answer_eq (s : Script) (usage : Usage) (request : Request) :
    ∃ answer count, s.answer usage request =
        (answer, { replies := s.replies.tail, requests := s.requests ++ [request]
                   issued := s.issued + count }) ∧
      Answered usage s.issued (s.replies.head?.getD Script.exhausted) answer ∧
      Numbered (s.issued + 1) count (Answer.steps answer) := by
  have answered := answered_play usage s.issued (s.replies.head?.getD Script.exhausted)
  cases played : Script.play usage s.issued (s.replies.head?.getD Script.exhausted) with
  | ok result =>
    obtain ⟨steps, count⟩ := result
    rw [played] at answered
    refine ⟨.ok steps, count, ?_, answered, numbered_play played⟩
    rw [Script.answer, played]
  | error e =>
    rw [played] at answered
    refine ⟨.error e, 0, ?_, answered, ⟨rfl, rfl⟩⟩
    rw [Script.answer, played]
    rfl

/-! ## A whole history -/

structure Told {σ : Type} (settings : ScriptedSettings) (part : Part σ Script)
    (initial : List Reply) (deeds : List Deed) (f : Family σ) : Prop where
  players : f.players =
    ⟨settings, part⟩ :: (cloned deeds).map fun options => ⟨{ settings with options }, part⟩
  replies : (part.get f.world).replies = (initial ++ pushed deeds).drop (taken initial deeds)
  requests : (part.get f.world).requests = asked deeds
  answers : f.answers.length = (asked deeds).length
  numbered : Numbered 1 (part.get f.world).issued (f.answers.flatMap Answer.steps)

namespace Told

variable {σ : Type} {settings : ScriptedSettings} {part : Part σ Script} {initial : List Reply}
  {deeds : List Deed} {f : Family σ}

theorem of_mem (h : Told settings part initial deeds f) {p : Player σ} (mem : p ∈ f.players) :
    p.part = part ∧ ∃ options, p.settings = { settings with options } := by
  rw [h.players] at mem
  obtain rfl | mem := List.mem_cons.mp mem
  · exact ⟨rfl, settings.options, rfl⟩
  · obtain ⟨options, -, rfl⟩ := List.mem_map.mp mem
    exact ⟨rfl, options, rfl⟩

theorem ask (h : Told settings part initial deeds f)
    (lawful : ∀ script world, part.get (part.set script world) = script)
    (number : Nat) (cancelled : Bool) (request : Request) :
    ∃ answer, (f.act (.ask number cancelled request)).answers = f.answers ++ [answer] ∧
      Answered settings.usage (part.get f.world).issued
        ((initial ++ pushed deeds)[taken initial deeds]?.getD Script.exhausted) answer ∧
      Told settings part initial (deeds ++ [.ask number cancelled request])
        (f.act (.ask number cancelled request)) := by
  obtain ⟨samePart, options, sameSettings⟩ := h.of_mem (f.player_mem number)
  obtain ⟨answer, count, answers, answered, numbered⟩ :=
    answer_eq (part.get f.world) settings.usage request
  have acts : f.act (.ask number cancelled request) =
      { f with
        world := part.set { replies := (part.get f.world).replies.tail
                            requests := (part.get f.world).requests ++ [request]
                            issued := (part.get f.world).issued + count } f.world
        answers := f.answers ++ [answer] } := by
    simp only [Family.act, Player.model, scripted, samePart, sameSettings, answers]
  rw [h.replies, List.head?_drop] at answered
  refine ⟨answer, by rw [acts], answered, ?_⟩
  rw [acts]
  constructor
  · rw [cloned_snoc, Deed.options?, Option.toList_none, List.append_nil]
    exact h.players
  · rw [lawful, taken_snoc, pushed_snoc, Deed.reply?, Option.toList_none, List.append_nil, tally]
    show (part.get f.world).replies.tail = _
    rw [h.replies, List.tail_drop]
    -- With nothing left, one more is neither taken nor dropped.
    obtain inside | outside := Nat.lt_or_ge (taken initial deeds) (initial ++ pushed deeds).length
    · rw [Nat.min_eq_left inside]
    · rw [Nat.min_eq_right (by omega), List.drop_length, List.drop_eq_nil_of_le (by omega)]
  · rw [lawful, asked_snoc, ← h.requests]
    rfl
  · rw [asked_snoc, List.length_append, List.length_append, h.answers]
    rfl
  · rw [lawful, List.flatMap_append, List.flatMap_singleton]
    exact h.numbered.append (by rwa [Nat.add_comm 1])

theorem act (h : Told settings part initial deeds f)
    (lawful : ∀ script world, part.get (part.set script world) = script) (deed : Deed) :
    Told settings part initial (deeds ++ [deed]) (f.act deed) := by
  cases deed with
  | ask number cancelled request =>
    obtain ⟨_, -, -, told⟩ := h.ask lawful number cancelled request
    exact told
  | push number reply =>
    obtain ⟨samePart, -⟩ := h.of_mem (f.player_mem number)
    have acts : f.act (.push number reply) =
        { f with world := part.set ((part.get f.world).push reply) f.world } := by
      simp only [Family.act, Player.push, samePart]
    rw [acts]
    constructor
    · rw [cloned_snoc, Deed.options?, Option.toList_none, List.append_nil]
      exact h.players
    · rw [lawful, taken_snoc, pushed_snoc, ← List.append_assoc, tally,
        List.drop_append_of_le_length (taken_le initial deeds), ← h.replies]
      rfl
    · rw [lawful, asked_snoc, Deed.request?, Option.toList_none, List.append_nil, ← h.requests]
      rfl
    · rw [asked_snoc, Deed.request?, Option.toList_none, List.append_nil]
      exact h.answers
    · rw [lawful]
      exact h.numbered
  | clone number options =>
    obtain ⟨samePart, _, sameSettings⟩ := h.of_mem (f.player_mem number)
    have clone : (f.player number).withOptions options = ⟨{ settings with options }, part⟩ := by
      rw [Player.withOptions, sameSettings, samePart]
    constructor
    · show f.players ++ [(f.player number).withOptions options] = _
      rw [clone, h.players, cloned_snoc, List.map_append]
      rfl
    · rw [taken_snoc, pushed_snoc, Deed.reply?, Option.toList_none, List.append_nil]
      exact h.replies
    · rw [asked_snoc, Deed.request?, Option.toList_none, List.append_nil]
      exact h.requests
    · rw [asked_snoc, Deed.request?, Option.toList_none, List.append_nil]
      exact h.answers
    · exact h.numbered

theorem after (h : Told settings part initial deeds f)
    (lawful : ∀ script world, part.get (part.set script world) = script) (later : List Deed) :
    Told settings part initial (deeds ++ later) (f.after later) := by
  induction later generalizing deeds f with
  | nil => rwa [List.append_nil]
  | cons deed later ih =>
    rw [List.append_cons]
    exact ih (h.act lawful deed)

end Told

/-- Replies are taken in the order in which they are given, whoever of the original and its
clones is asked. -/
theorem replies_in_order {σ : Type} (settings : ScriptedSettings) (part : Part σ Script)
    (initial : List Reply) (world : σ)
    (lawful : ∀ script world, part.get (part.set script world) = script)
    (fresh : part.get world = { replies := initial }) (deeds : List Deed) :
    let family : Family σ := Family.after { original := ⟨settings, part⟩, world } deeds
    let steps : List Step := family.answers.flatMap Answer.steps
    (∀ before number cancelled request later,
      deeds = before ++ .ask number cancelled request :: later →
      ∃ answer, family.answers[(asked before).length]? = some answer ∧
        Answered settings.usage
          (opened ((family.answers.take (asked before).length).flatMap Answer.steps)).length
          ((initial ++ pushed before)[taken initial before]?.getD Script.exhausted) answer) ∧
    ((∀ before number cancelled request later,
        deeds = before ++ .ask number cancelled request :: later →
        (asked before).length < (initial ++ pushed before).length) →
      taken initial deeds = (asked deeds).length) ∧
    family.answers.length = (asked deeds).length ∧
    family.players = ⟨settings, part⟩ ::
      (cloned deeds).map (fun options => ⟨{ settings with options }, part⟩) ∧
    (∀ player ∈ family.players, player.requests family.world = asked deeds) ∧
    opened steps = callNames 1 (opened steps).length ∧
    (opened steps).Nodup ∧
    callIds steps = (opened steps).flatMap (List.replicate 3) := by
  intro family steps
  have start : Told settings part initial [] { original := ⟨settings, part⟩, world } := by
    constructor
    · rfl
    · rw [fresh, pushed, List.filterMap_nil, List.append_nil]
      rfl
    · rw [fresh]
      rfl
    · rfl
    · rw [fresh]
      exact ⟨rfl, rfl⟩
  have told : Told settings part initial deeds family := start.after lawful deeds
  have issued : (opened steps).length = (part.get family.world).issued := by
    rw [told.numbered.opened_eq, callNames, List.length_map, List.length_range']
  refine ⟨?_, taken_eq_asked initial deeds, told.answers, told.players, ?_, ?_, ?_, ?_⟩
  · -- The state before the call decides its answer, and later deeds only add answers.
    rintro before number cancelled request later rfl
    have earlier : Told settings part initial before _ := start.after lawful before
    obtain ⟨answer, answers, answered, -⟩ := earlier.ask lawful number cancelled request
    obtain ⟨more, all⟩ := Family.answers_after (((Family.after _ before)).act _) later
    rw [answers, List.append_assoc, List.singleton_append] at all
    have whole : family.answers = _ :=
      (congrArg Family.answers (Family.after_append _ before (_ :: later))).trans all.symm
    refine ⟨answer, ?_, ?_⟩
    · rw [whole, ← earlier.answers, List.getElem?_append_right (Nat.le_refl _), Nat.sub_self]
      rfl
    · rw [whole, ← earlier.answers, List.take_left, earlier.numbered.opened_eq, callNames,
        List.length_map, List.length_range']
      exact answered
  · intro player mem
    obtain ⟨samePart, -⟩ := told.of_mem mem
    rw [Player.requests, samePart, told.requests]
  · rw [issued]
    exact told.numbered.opened_eq
  · rw [told.numbered.opened_eq]
    exact nodup_callNames _ _
  · rw [told.numbered.opened_eq]
    exact told.numbered.callIds_eq

def Script.here : Part Script Script := ⟨id, fun script _ => script⟩

/-- A clone is asked first, and the original gets what is pushed afterwards. -/
theorem replies_in_order_shared :
    let first : Reply := .calls [("look", .object []), ("look", .null)]
    let deeds : List Deed := [.clone 0 { maxTokens := some 1 }, .ask 1 false .default,
      .push 1 (.text "two"), .ask 0 true .default]
    let family := Family.after
      { original := ⟨{}, Script.here⟩, world := { replies := [first] } } deeds
    (∀ script world, Script.here.get (Script.here.set script world) = script) ∧
      Script.here.get { replies := [first] } = { replies := [first] } ∧
      (∃ answer, family.answers[1]? = some answer ∧ Answered ⟨10, 5, 0, 0⟩ 2 (.text "two") answer) ∧
      ∀ player ∈ family.players, player.requests family.world = [.default, .default] := by
  intro first deeds family
  obtain ⟨answered, -, -, -, requests, -⟩ :=
    replies_in_order {} Script.here [first] { replies := [first] } (fun _ _ => rfl) rfl deeds
  exact ⟨fun _ _ => rfl, rfl, answered (deeds.take 3) 0 true .default [] rfl, requests⟩

/-- A call that comes too early takes no reply, so the next call gets the first one and not the
second. -/
theorem early_call_takes_none :
    let deeds : List Deed := [.ask 0 false .default, .push 0 (.text "late"), .ask 0 false .default]
    let family := Family.after { original := ⟨{}, Script.here⟩, world := { replies := [] } } deeds
    pushed deeds = [.text "late"] ∧ (asked deeds).length = 2 ∧
      ¬ ∃ answer, family.answers[1]? = some answer ∧
        Answered ⟨10, 5, 0, 0⟩ 0 ((pushed deeds)[1]?.getD Script.exhausted) answer := by
  intro deeds family
  refine ⟨rfl, rfl, ?_⟩
  rintro ⟨answer, second, exhausted⟩
  obtain rfl := Option.some.inj second
  have late := answered_play ⟨10, 5, 0, 0⟩ 0 (.text "late")
  cases heard : collected none
      (Script.textSteps "late" ++ [Script.finished "end_turn" ⟨10, 5, 0, 0⟩]) with
  | none => exact Reply.noConfusion ((late.ends _ rfl none).mp heard).1
  | some items =>
    have first := (late.said _ rfl none items heard).2 rfl
    have none := (exhausted.said _ rfl none items heard).2 rfl
    exact absurd (first.symm.trans none) (by decide)

end Ensemble.Model
