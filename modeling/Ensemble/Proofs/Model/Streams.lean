import Ensemble.Model.Scripted
import Mathlib.Data.List.Infix

/-!
# Scripted streams

Cancellation can come between any two steps of a stream. Wherever it comes, a scripted stream is
a row of pieces behind which stands one last item, and the text in it begins the text of the
reply (`whole_collected`, `spoken_collected`): what is missing is missing at its end
(`cut_collected`). Only a hanging reply that nobody cancels does not end.
-/

namespace Ensemble.Model

/-- What a reply delivers when cancellation comes after its first `arrival` steps, or never;
nothing when the reply does not end. -/
def collected : Option Nat → List Step → Option (List (Except ModelError Delta))
  | _, [] => some []
  | arrival, .item delta cancels :: rest =>
    (collected (if cancels then some 0 else arrival.map (· - 1)) rest).map (delta :: ·)
  | arrival, .checked delta :: rest =>
    if arrival = some 0 then some [.error .cancelled]
    else (collected (arrival.map (· - 1)) rest).map (.ok delta :: ·)
  | arrival, .wait (some _) :: rest =>
    if arrival = some 0 then some [.error .cancelled] else collected (arrival.map (· - 1)) rest
  | arrival, .wait none :: _ => arrival.map fun _ => [.error .cancelled]

theorem collected_of_requested {c : Cancellation} (requested : c.requested = true)
    (steps : List Step) : collected (some 0) steps = some (deliver c steps).1 := by
  induction steps generalizing c with
  | nil => rfl
  | cons step rest ih =>
    cases step with
    | item delta cancels =>
      have later : (c.request cancels).requested = true := by
        simp only [Cancellation.request, requested, Bool.true_or]
      have same : (if cancels then some 0 else (some 0).map (· - 1)) = some 0 := by
        cases cancels <;> rfl
      rw [collected, same, ih later]
      rfl
    | checked delta => rw [collected, deliver, if_pos rfl, if_pos requested]
    | wait time =>
      have still : c.wait time = c := if_pos requested
      rw [deliver, still, if_pos requested]
      cases time <;> rfl

theorem wait_none_requested (c : Cancellation) : (c.wait none).requested = true := by
  unfold Cancellation.wait
  split
  · assumption
  · split
    · rfl
    · split <;> rfl

/-- What a run is delivered is what it collects when cancellation comes at some step. -/
theorem deliver_collected (c : Cancellation) (steps : List Step) :
    ∃ arrival, collected arrival steps = some (deliver c steps).1 := by
  induction steps generalizing c with
  | nil => exact ⟨none, rfl⟩
  | cons step rest ih =>
    -- A request that has come already comes before the next step.
    cases requested : c.requested with
    | true => exact ⟨some 0, collected_of_requested requested _⟩
    | false =>
      have later (arrival : Option Nat) : (arrival.map (· + 1)).map (· - 1) = arrival := by
        cases arrival <;> rfl
      have notYet (arrival : Option Nat) : arrival.map (· + 1) ≠ some 0 := by
        cases arrival <;> simp
      cases step with
      | item delta cancels =>
        cases cancels with
        | true =>
          have now : (c.request true).requested = true := Bool.or_true _
          exact ⟨none, by rw [collected, if_pos rfl, collected_of_requested now]; rfl⟩
        | false =>
          obtain ⟨arrival, rest⟩ := ih (c.request false)
          refine ⟨arrival.map (· + 1), ?_⟩
          rw [collected, if_neg (by decide), later, rest]
          rfl
      | checked delta =>
        obtain ⟨arrival, rest⟩ := ih c
        refine ⟨arrival.map (· + 1), ?_⟩
        rw [collected, if_neg (notYet arrival), later, rest, deliver, if_neg (by simp [requested])]
        rfl
      | wait time =>
        cases ended : (c.wait time).requested with
        | true =>
          refine ⟨some 0, ?_⟩
          rw [deliver, if_pos ended]
          cases time <;> rfl
        | false =>
          cases time with
          | none => simp [wait_none_requested] at ended
          | some t =>
            obtain ⟨arrival, rest⟩ := ih (c.wait (some t))
            refine ⟨arrival.map (· + 1), ?_⟩
            rw [collected, if_neg (notYet arrival), later, rest, deliver, if_neg (by simp [ended])]

/-! ## The shape of a stream -/

def Delta.Partial : Delta → Prop
  | .done .. | .error _ => False
  | _ => True

def Final : Except ModelError Delta → Prop
  | .ok (.done ..) | .error _ => True
  | .ok _ => False

/-- Pieces, and behind them one last item. -/
def Whole (items : List (Except ModelError Delta)) : Prop :=
  ∃ (deltas : List Delta) (final : Except ModelError Delta),
    items = deltas.map .ok ++ [final] ∧ (∀ d ∈ deltas, d.Partial) ∧ Final final

inductive Played : List Step → Prop
  | hang : Played [.wait none]
  | last {final} : Final final → Played [.item final false]
  | piece {delta rest} : delta.Partial → Played rest → Played (.checked delta :: rest)
  | pause {time rest} : Played rest → Played (.wait (some time) :: rest)

/-- What does not end hangs at its end, and was not cancelled. -/
theorem collected_eq_none_iff {steps : List Step} (played : Played steps) (arrival : Option Nat) :
    collected arrival steps = none ↔ .wait none ∈ steps ∧ arrival = none := by
  induction played generalizing arrival with
  | hang => simp [collected]
  | last final => simp [collected]
  | piece part _ ih =>
    rw [collected]
    split
    · rename_i now
      simp [now]
    · rw [Option.map_eq_none_iff, ih]
      simp
  | pause _ ih =>
    rw [collected]
    split
    · rename_i now
      simp [now]
    · rw [ih]
      simp

/-! ## Streams that are cut short -/

def Step.item? : Step → Option (Except ModelError Delta)
  | .item delta _ => some delta
  | .checked delta => some (.ok delta)
  | .wait _ => none

def Step.piece? : Step → Option Delta
  | .checked delta => some delta
  | .item .. | .wait _ => none

/-- All that there is to be streamed. -/
def stream (steps : List Step) : List (Except ModelError Delta) := steps.filterMap Step.item?

def parts (steps : List Step) : List Delta := steps.filterMap Step.piece?

/-- A cancellation has come before the last item. -/
def CutShort (arrival : Option Nat) (steps : List Step) (items : List (Except ModelError Delta)) :
    Prop :=
  arrival ≠ none ∧ ∃ begun, begun <+: parts steps ∧ items = begun.map .ok ++ [.error .cancelled]

theorem Played.parts_partial {steps : List Step} (played : Played steps) :
    ∀ d ∈ parts steps, d.Partial := by
  induction played with
  | hang | last => exact List.forall_mem_nil _
  | piece part _ ih => exact List.forall_mem_cons.mpr ⟨part, ih⟩
  | pause _ ih => exact ih

theorem cut_collected {steps : List Step} (played : Played steps) {arrival : Option Nat}
    {items : List (Except ModelError Delta)} (h : collected arrival steps = some items) :
    (∃ final, Final final ∧ stream steps = (parts steps).map .ok ++ [final] ∧
        items = stream steps) ∨ CutShort arrival steps items := by
  have now (steps : List Step) : CutShort (some 0) steps [.error .cancelled] :=
    ⟨by simp, [], List.nil_prefix, rfl⟩
  have later {arrival : Option Nat} (come : arrival.map (· - 1) ≠ none) : arrival ≠ none := by
    simpa using come
  induction played generalizing arrival items with
  | hang =>
    obtain ⟨n, rfl, rfl⟩ := Option.map_eq_some_iff.mp h
    exact .inr ⟨by simp, [], List.nil_prefix, rfl⟩
  | @last final last =>
    obtain rfl := Option.some.inj h
    exact .inl ⟨final, last, rfl, rfl⟩
  | @piece delta rest part _ ih =>
    rw [collected] at h
    split at h
    · rename_i first
      obtain rfl := Option.some.inj h
      exact .inr (first ▸ now _)
    · obtain ⟨following, collects, rfl⟩ := Option.map_eq_some_iff.mp h
      rcases ih collects with ⟨final, last, all, rfl⟩ | ⟨come, begun, before, rfl⟩
      · exact .inl ⟨final, last, congrArg (Except.ok delta :: ·) all, rfl⟩
      · exact .inr ⟨later come, delta :: begun, (List.prefix_cons_inj delta).mpr before, rfl⟩
  | pause _ ih =>
    rw [collected] at h
    split at h
    · rename_i first
      obtain rfl := Option.some.inj h
      exact .inr (first ▸ now _)
    · rcases ih h with ⟨final, last, all, rfl⟩ | ⟨come, begun, before, rfl⟩
      · exact .inl ⟨final, last, all, rfl⟩
      · exact .inr ⟨later come, begun, before, rfl⟩

theorem whole_collected {steps : List Step} (played : Played steps) {arrival : Option Nat}
    {items : List (Except ModelError Delta)} (h : collected arrival steps = some items) :
    Whole items := by
  rcases cut_collected played h with ⟨final, last, all, rfl⟩ | ⟨-, begun, before, rfl⟩
  · exact ⟨parts steps, final, all, played.parts_partial, last⟩
  · exact ⟨begun, _, rfl, fun d among => played.parts_partial d (before.subset among), trivial⟩

/-! ## The text of a stream -/

def Delta.words : Delta → List Char
  | .text words => words.toList
  | _ => []

def spoken (items : List (Except ModelError Delta)) : List Char :=
  items.flatMap fun
    | .ok delta => delta.words
    | .error _ => []

/-- The text that is there to be streamed. -/
def wording (steps : List Step) : List Char :=
  steps.flatMap fun
    | .checked delta => delta.words
    | _ => []

theorem spoken_final {final : Except ModelError Delta} (last : Final final) :
    spoken [final] = [] := by
  cases final with
  | error => rfl
  | ok delta =>
    cases delta with
    | done => rfl
    | _ => exact False.elim last

theorem spoken_pieces (deltas : List Delta) {final : Except ModelError Delta} (last : Final final) :
    spoken (deltas.map .ok ++ [final]) = deltas.flatMap Delta.words := by
  have said := spoken_final last
  unfold spoken at said ⊢
  rw [List.flatMap_append, said, List.append_nil, List.flatMap_map]

theorem wording_eq (steps : List Step) : wording steps = (parts steps).flatMap Delta.words := by
  induction steps with
  | nil => rfl
  | cons step rest ih =>
    rw [wording] at ih ⊢
    rw [List.flatMap_cons, ih]
    cases step <;> rfl

theorem spoken_collected {steps : List Step} (played : Played steps) {arrival : Option Nat}
    {items : List (Except ModelError Delta)} (h : collected arrival steps = some items) :
    spoken items <+: wording steps ∧ (arrival = none → spoken items = wording steps) := by
  rw [wording_eq]
  rcases cut_collected played h with ⟨final, last, all, rfl⟩ | ⟨come, begun, ⟨rest, whole⟩, rfl⟩
  · rw [all, spoken_pieces _ last]
    exact ⟨List.prefix_rfl, fun _ => rfl⟩
  · have cancelled : Final (.error .cancelled) := trivial
    rw [spoken_pieces begun cancelled, ← whole, List.flatMap_append]
    exact ⟨List.prefix_append _ _, fun never => absurd never come⟩

/-! ## Scripted replies -/

namespace Script

theorem flatten_pieces (size : Nat) (xs : List α) : (pieces size xs).flatten = xs := by
  fun_induction pieces size xs with
  | case1 => rfl
  | case2 x rest ih => rw [List.flatten_cons, ih, List.cons_append, List.take_append_drop]

theorem played_textSteps (text : String) {rest : List Step} (played : Played rest) :
    Played (textSteps text ++ rest) := by
  unfold textSteps
  induction pieces 15 text.toList with
  | nil => exact played
  | cons cs _ ih => exact .piece trivial ih

theorem wording_textSteps (text : String) : wording (textSteps text) = text.toList := by
  have said (parts : List (List Char)) :
      wording (parts.map fun cs => .checked (.text (String.ofList cs))) = parts.flatten := by
    induction parts with
    | nil => rfl
    | cons cs parts ih =>
      rw [List.flatten_cons, ← ih]
      simp [wording, Delta.words]
  rw [textSteps, said, flatten_pieces]

theorem played_callSteps (issued : Nat) (calls : List (String × String)) {rest : List Step}
    (played : Played rest) : Played (callSteps issued calls ++ rest) := by
  induction calls generalizing issued with
  | nil => exact played
  | cons call calls ih =>
    exact .piece trivial (.piece trivial (.piece trivial (ih (issued + 1))))

theorem wait_notMem_callSteps (issued : Nat) (calls : List (String × String))
    (time : Option Nat) : .wait time ∉ callSteps issued calls := by
  induction calls generalizing issued with
  | nil => exact List.not_mem_nil
  | cons call calls ih => simp [callSteps, ih]

theorem wording_callSteps (issued : Nat) (calls : List (String × String)) :
    wording (callSteps issued calls) = [] := by
  induction calls generalizing issued with
  | nil => rfl
  | cons call calls ih => exact ih (issued + 1)

end Script

def Reply.wording : Reply → String
  | .text words | .textThenCalls words _ | .failAfter words _ | .delayed _ words => words
  | .calls _ | .rawCall .. | .error _ | .hang => ""

namespace Script

theorem wording_append (steps rest : List Step) :
    wording (steps ++ rest) = wording steps ++ wording rest := List.flatMap_append

theorem play_ok {usage : Usage} {issued taken : Nat} {reply : Reply} {steps : List Step}
    (h : play usage issued reply = .ok (steps, taken)) :
    Played steps ∧ wording steps = reply.wording.toList ∧ (.wait none ∈ steps ↔ reply = .hang) := by
  cases reply with
  | text words =>
    obtain ⟨rfl, rfl⟩ := Prod.mk.inj (Except.ok.inj h)
    refine ⟨played_textSteps words (.last trivial), ?_, ?_⟩
    · rw [wording_append, wording_textSteps]
      exact List.append_nil _
    · simp [textSteps, finished]
  | calls calls =>
    obtain ⟨rfl, rfl⟩ := Prod.mk.inj (Except.ok.inj h)
    refine ⟨played_callSteps _ _ (.last trivial), ?_, ?_⟩
    · rw [wording_append, wording_callSteps]
      rfl
    · simp [wait_notMem_callSteps, finished]
  | textThenCalls words calls =>
    obtain ⟨rfl, rfl⟩ := Prod.mk.inj (Except.ok.inj h)
    refine ⟨.piece trivial (played_callSteps _ _ (.last trivial)), ?_, ?_⟩
    · rw [wording_append]
      show (words.toList ++ wording (callSteps issued (written calls))) ++ [] = words.toList
      rw [wording_callSteps, List.append_nil, List.append_nil]
    · simp [wait_notMem_callSteps, finished]
  | rawCall name arguments =>
    obtain ⟨rfl, rfl⟩ := Prod.mk.inj (Except.ok.inj h)
    refine ⟨played_callSteps _ _ (.last trivial), ?_, ?_⟩
    · rw [wording_append, wording_callSteps]
      rfl
    · simp [wait_notMem_callSteps, finished]
  | error message => cases h
  | failAfter words error =>
    obtain ⟨rfl, rfl⟩ := Prod.mk.inj (Except.ok.inj h)
    exact ⟨.piece trivial (.last trivial), List.append_nil _, by simp⟩
  | delayed time words =>
    obtain ⟨rfl, rfl⟩ := Prod.mk.inj (Except.ok.inj h)
    exact ⟨.pause (.piece trivial (.last trivial)), List.append_nil _, by simp [finished]⟩
  | hang =>
    obtain ⟨rfl, rfl⟩ := Prod.mk.inj (Except.ok.inj h)
    exact ⟨.hang, rfl, by simp⟩

end Script

end Ensemble.Model
