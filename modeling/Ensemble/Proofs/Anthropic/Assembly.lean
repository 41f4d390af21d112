import Mathlib
import Ensemble.Anthropic.Model
import Ensemble.Proofs.Anthropic.Chunks
import Ensemble.Proofs.Life
import Ensemble.Proofs.Run.Reply

/-!
# Streamed calls

What a body says about the calls of a reply can be read off its whole frames alone (`signals`):
which calls start, which fragments of input come, and where a block stops. `callsOf` is what these
signals mean. Two states have to agree for a run to record just that: the reader remembers the
identifier of the open call, and the run appends a fragment to the latest call with an identifier.
They agree because the open call is always the latest one (`Follows`), whatever identifiers are
used twice and whatever is never stopped.

How the arguments of a call are read later is not covered here.
-/

namespace Ensemble

namespace EventStream

/-- The whole frames of a buffer. The bytes behind the last of them are no frame yet. -/
def frames (buffer : List UInt8) : List (List UInt8) :=
  match _h : frameEnd? buffer with
  | none => []
  | some size => buffer.take size :: frames (buffer.drop (size + 2))
termination_by buffer.length
decreasing_by
  have := frameEnd?_le _h
  simp only [List.length_drop]
  omega

theorem frames_of_none {buffer : List UInt8} (h : frameEnd? buffer = none) : frames buffer = [] := by
  rw [frames]
  split
  · rfl
  · rename_i found
    rw [h] at found
    cases found

theorem frames_of_some {buffer : List UInt8} {size : Nat} (h : frameEnd? buffer = some size) :
    frames buffer = buffer.take size :: frames (buffer.drop (size + 2)) := by
  rw [frames]
  split
  · rename_i found
    rw [h] at found
    cases found
  · rename_i found
    rw [h] at found
    cases found
    rfl

theorem frames_ended {frame : List UInt8} (whole : IsFrame frame) (rest : List UInt8) :
    frames (ended frame ++ rest) = frame :: frames rest := by
  have size : (ended frame).length = frame.length + 2 := by simp [ended]
  have later : (ended frame ++ rest).drop (frame.length + 2) = rest :=
    List.drop_left' size
  have first : (ended frame ++ rest).take frame.length = frame := by simp [ended]
  rw [frames_of_some (frameEnd?_ended whole rest), first, later]

theorem isFrame_cons {a : UInt8} {frame : List UInt8} (whole : IsFrame frame)
    (goesOn : ¬ (a = newline ∧ (frame ++ [newline]).head? = some newline)) :
    IsFrame (a :: frame) := by
  intro both
  rcases List.infix_cons_iff.mp both with ⟨later, split⟩ | inside
  · obtain rfl := (List.cons.inj split).1
    have head : frame ++ [newline] = newline :: later := (List.cons.inj split).2.symm
    exact goesOn ⟨rfl, by rw [head]; rfl⟩
  · exact whole inside

theorem frameEnd?_split {buffer : List UInt8} {size : Nat} (h : frameEnd? buffer = some size) :
    IsFrame (buffer.take size) ∧
      buffer = ended (buffer.take size) ++ buffer.drop (size + 2) := by
  induction buffer generalizing size with
  | nil => cases h
  | cons a rest ih =>
    cases rest with
    | nil => cases h
    | cons b rest =>
      rw [frameEnd?] at h
      split at h
      · rename_i ends
        obtain ⟨rfl, rfl⟩ := ends
        cases h
        exact ⟨(by decide : IsFrame []), rfl⟩
      · rename_i goesOn
        obtain ⟨shorter, found, rfl⟩ := Option.map_eq_some_iff.mp h
        obtain ⟨whole, split⟩ := ih found
        refine ⟨isFrame_cons whole ?_, ?_⟩
        · rintro ⟨first, second⟩
          refine goesOn ⟨first, ?_⟩
          have head : (b :: rest).head? = some newline := by
            rw [split, ended]
            simpa [List.head?_append] using second
          exact Option.some.inj head
        · rw [List.take_succ_cons, ended, List.cons_append, List.cons_append, ← ended]
          exact congrArg (a :: ·) split

/-- The whole frames are those a buffer splits into. -/
theorem frames_eq_iff {buffer : List UInt8} {front : List (List UInt8)} :
    frames buffer = front ↔
      (∀ frame ∈ front, IsFrame frame) ∧
        ∃ back, frameEnd? back = none ∧ buffer = (front.map ended).flatten ++ back := by
  constructor
  · rintro rfl
    induction buffer using frames.induct with
    | case1 buffer missing =>
      rw [frames_of_none missing]
      exact ⟨by simp, buffer, missing, rfl⟩
    | case2 buffer size found ih =>
      obtain ⟨whole, split⟩ := frameEnd?_split found
      obtain ⟨later, back, begun, rest⟩ := ih
      rw [frames_of_some found]
      refine ⟨List.forall_mem_cons.mpr ⟨whole, later⟩, back, begun, ?_⟩
      rw [List.map_cons, List.flatten_cons, List.append_assoc, ← rest, ← split]
  · rintro ⟨whole, back, begun, rfl⟩
    induction front with
    | nil => exact frames_of_none begun
    | cons frame front ih =>
      rw [List.map_cons, List.flatten_cons, List.append_assoc,
        frames_ended (whole frame (.head _)), ih fun other among => whole other (.tail _ among)]

end EventStream

namespace Anthropic

open EventStream (Frame frames frameEnd?)
open Json.Decode (ofText)
open Model (Delta)

/-! ## What a body says -/

/-- What a frame says about the calls and the text of a reply. -/
inductive Signal where
  | started (id name : String)
  | input (json : String)
  | text (text : String)
  | stopped
deriving DecidableEq

namespace Signal

/-- Where the input of the call before ends. -/
def ends : Signal → Bool
  | .started _ _ | .stopped => true
  | _ => false

def input? : Signal → Option String
  | .input json => some json
  | _ => none

def text? : Signal → Option String
  | .text t => some t
  | _ => none

end Signal

/-- A frame without data, with data that cannot be decoded or of another event says nothing. -/
def signalOf? (f : Frame) : Option Signal :=
  if f.data.isEmpty then none
  else
    match f.event with
    | "content_block_start" =>
      match ofText decodeBlockStart f.data with
      | .ok (some (id, name)) => some (.started id name)
      | _ => none
    | "content_block_delta" =>
      match ofText decodeBlockDelta f.data with
      | .ok (.text t) => some (.text t)
      | .ok (.input json) => some (.input json)
      | _ => none
    | "content_block_stop" => some .stopped
    | _ => none

def signal? (bytes : List UInt8) : Option Signal :=
  match Frame.decode bytes with
  | .ok f => signalOf? f
  | .error _ => none

theorem signal?_of_decode {bytes : List UInt8} {f : Frame} (h : Frame.decode bytes = .ok f) :
    signal? bytes = signalOf? f := by
  rw [signal?, h]

def signals (body : List UInt8) : List Signal := (frames body).filterMap signal?

/-- The input that comes in front of the first end. -/
def argumentsOf (later : List Signal) : String :=
  String.join ((later.takeWhile fun s => !s.ends).filterMap Signal.input?)

/-- One call for each start, with the input that comes between it and the next end. -/
def callsOf : List Signal → List ToolCall
  | [] => []
  | .started id name :: later => ⟨id, name, argumentsOf later⟩ :: callsOf later
  | _ :: later => callsOf later

def textOf (signals : List Signal) : String := String.join (signals.filterMap Signal.text?)

theorem argumentsOf_of_ends {s : Signal} (h : s.ends = true) (later : List Signal) :
    argumentsOf (s :: later) = "" := by
  simp [argumentsOf, h]

theorem argumentsOf_input (json : String) (later : List Signal) :
    argumentsOf (.input json :: later) = json ++ argumentsOf later :=
  String.join_cons

theorem textOf_cons (s : Signal) (later : List Signal) :
    textOf (s :: later) = s.text?.getD "" ++ textOf later := by
  unfold textOf
  cases s with
  | text t => exact String.join_cons
  | started | input | stopped => exact String.empty_append.symm

/-! ## What the reader makes of it -/

/-- Of a thought, or of the end of the reply. -/
def isApart : Delta → Bool
  | .thinking _ | .done _ _ => true
  | _ => false

inductive Reads (r : Reading) : Option Signal → Reading × List Item → Prop where
  | started (id name : String) :
      Reads r (some (.started id name)) ({ r with openCall := some id }, [.ok (.callStart id name)])
  | input {id : String} (json : String) (opened : r.openCall = some id) :
      Reads r (some (.input json)) (r, [.ok (.callDelta id json)])
  | stray (json : String) (closed : r.openCall = none) : Reads r (some (.input json)) (r, [])
  | text (t : String) : Reads r (some (.text t)) (r, [.ok (.text t)])
  | stopped {id : String} (opened : r.openCall = some id) :
      Reads r (some .stopped) ({ r with openCall := none }, [.ok (.callEnd id)])
  | idle (closed : r.openCall = none) : Reads r (some .stopped) (r, [])
  | other {r' : Reading} {items : List Item} (same : r'.openCall = r.openCall)
      (apart : ∀ d, .ok d ∈ items → isApart d = true) : Reads r none (r', items)

namespace Reading

theorem close_reads (r : Reading) : Reads r (some .stopped) r.close := by
  unfold close
  split
  · rename_i id opened
    exact .stopped opened
  · rename_i closed
    exact .idle closed

theorem fragment_reads (r : Reading) (f : Fragment) :
    Reads r (match f with
      | .text t => some (.text t)
      | .input json => some (.input json)
      | _ => none) (r, r.fragment f) := by
  cases f with
  | text t => exact .text t
  | thinking t => exact .other rfl (by simp [fragment, isApart])
  | signature => exact .other rfl (by simp [fragment])
  | input json =>
    cases opened : r.openCall with
    | none =>
      simp only [fragment, opened]
      exact .stray json opened
    | some id =>
      simp only [fragment, opened]
      exact .input json opened

theorem take_other {event : String} (r : Reading) (data : String)
    (start : event ≠ "content_block_start") (delta : event ≠ "content_block_delta")
    (stop : event ≠ "content_block_stop") : Reads r none (r.take event data) := by
  unfold take
  split
  case h_2 => exact absurd rfl start
  case h_3 => exact absurd rfl delta
  case h_4 => exact absurd rfl stop
  case h_6 => exact .other rfl (by simp [isApart])
  case h_8 => exact .other rfl (by simp)
  all_goals split <;> exact .other rfl (by simp)

theorem take_reads (r : Reading) {f : Frame} (given : f.data.isEmpty = false) :
    Reads r (signalOf? f) (r.take f.event f.data) := by
  obtain ⟨event, data⟩ := f
  simp only [signalOf?, given, Bool.false_eq_true, if_false]
  split
  · simp only [take]
    cases ofText decodeBlockStart data with
    | error e => exact .other rfl (by simp)
    | ok block =>
      cases block with
      | none => exact .other rfl (by simp)
      | some call => exact .started call.1 call.2
  · simp only [take]
    cases ofText decodeBlockDelta data with
    | error e => exact .other rfl (by simp)
    | ok fragment =>
      have reads := r.fragment_reads fragment
      cases fragment <;> exact reads
  · exact r.close_reads
  · rename_i start delta stop
    exact r.take_other data start delta stop

theorem frame_reads (r : Reading) (bytes : List UInt8) :
    Reads r (signal? bytes) (r.frame bytes) := by
  unfold signal? frame
  cases Frame.decode bytes with
  | error flaw => exact .other rfl (by simp)
  | ok f =>
    cases given : f.data.isEmpty with
    | true =>
      simp only [signalOf?, given, if_true]
      exact .other rfl (by simp)
    | false =>
      simp only [given, Bool.false_eq_true, if_false]
      exact r.take_reads given

theorem frame_of_decode {bytes : List UInt8} {f : Frame} (h : Frame.decode bytes = .ok f)
    (given : f.data.isEmpty = false) (r : Reading) : r.frame bytes = r.take f.event f.data := by
  rw [frame, h]
  simp only [given, Bool.false_eq_true, if_false]

def run (r : Reading) : List (List UInt8) → List Item
  | [] => []
  | bytes :: rest => (r.frame bytes).2 ++ (r.frame bytes).1.run rest

end Reading

theorem Reader.drain_run (r : Reader) : r.drain.2 = r.reading.run (frames r.buffer) := by
  induction r using drain.induct with
  | case1 r missing =>
    rw [drain_of_none missing, EventStream.frames_of_none missing]
    rfl
  | case2 r size found reading items cut _ _ _ ih =>
    rw [drain_of_some found, EventStream.frames_of_some found]
    simp only [Reading.run, cut, ih]

theorem items_run (chunks : List (List UInt8)) :
    items chunks = Reading.run {} (frames chunks.flatten) := by
  rw [items, Reader.read_flatten chunks rfl]
  exact Reader.drain_run _

/-! ## What the run makes of it -/

open EventStream (frames)
open Model (Delta)

/-- The calls of a reply as its signals come in: those whose input has ended, and the open one. -/
structure Slots where
  closed : List ToolCall := []
  last : Option ToolCall := none
  text : String := ""

namespace Slots

def calls (s : Slots) : List ToolCall := s.closed ++ s.last.toList

def take (s : Slots) : Signal → Slots
  | .started id name => { s with closed := s.calls, last := some ⟨id, name, ""⟩ }
  | .input json =>
    { s with last := s.last.map fun c => { c with arguments := c.arguments ++ json } }
  | .text t => { s with text := s.text ++ t }
  | .stopped => { s with closed := s.calls, last := none }

/-- What the slots come to: the open call takes what comes before the next end. -/
theorem calls_foldl (later : List Signal) (s : Slots) :
    (later.foldl take s).calls =
      s.closed ++
        (s.last.map fun c => { c with arguments := c.arguments ++ argumentsOf later }).toList ++
        callsOf later := by
  induction later generalizing s with
  | nil =>
    have none_more (c : ToolCall) : { c with arguments := c.arguments ++ argumentsOf [] } = c :=
      congrArg (ToolCall.mk c.id c.name) String.append_empty
    simp only [List.foldl_nil, none_more, Option.map_id', callsOf, List.append_nil, calls]
  | cons signal later ih =>
    have closes (last : Option ToolCall) :
        (last.map fun c => { c with arguments := c.arguments ++ "" }).toList = last.toList := by
      cases last <;> simp
    rw [List.foldl_cons, ih]
    cases signal with
    | started id name =>
      rw [argumentsOf_of_ends rfl, closes]
      simp [take, calls, callsOf]
    | stopped =>
      rw [argumentsOf_of_ends rfl, closes]
      simp [take, calls, callsOf]
    | text t => rfl
    | input json =>
      rw [argumentsOf_input]
      simp [take, callsOf, Function.comp_def, String.append_assoc]

theorem text_foldl (later : List Signal) (s : Slots) :
    (later.foldl take s).text = s.text ++ textOf later := by
  induction later generalizing s with
  | nil => exact String.append_empty.symm
  | cons signal later ih =>
    rw [List.foldl_cons, ih, textOf_cons, ← String.append_assoc]
    cases signal with
    | text t => rfl
    | started | input | stopped => exact congrArg (· ++ _) String.append_empty.symm

end Slots

/-- The call the reader has open is the latest one of the run. -/
structure Follows (r : Reading) (a : Assembly) (s : Slots) : Prop where
  calls : a.calls = s.calls
  opened : r.openCall = s.last.map (·.id)
  text : a.text = s.text

namespace Follows

variable {r r' : Reading} {a : Assembly} {s : Slots}

theorem apart (h : Follows r a s) {deltas : List Delta} (apart : ∀ d ∈ deltas, isApart d = true)
    (same : r'.openCall = r.openCall) :
    ∃ a', a.takeAll deltas = .ok a' ∧ Follows r' a' s := by
  induction deltas generalizing a with
  | nil => exact ⟨a, rfl, h.calls, same.trans h.opened, h.text⟩
  | cons d deltas ih =>
    have later (a' : Assembly) (follows : Follows r a' s) :=
      ih follows fun other among => apart other (.tail _ among)
    cases d with
    | thinking t => exact later a h
    | done stopReason usage => exact later _ ⟨h.calls, h.opened, h.text⟩
    | _ => cases apart _ (.head _)

theorem step (h : Follows r a s) {signal : Option Signal} {result : Reading × List Item}
    (reads : Reads r signal result) {deltas : List Delta} (fine : result.2 = deltas.map .ok) :
    ∃ a', a.takeAll deltas = .ok a' ∧ Follows result.1 a' (signal.toList.foldl Slots.take s) := by
  have only {ds : List Delta} (known : result.2 = ds.map .ok) : deltas = ds :=
    (List.map_inj_right fun _ _ => Except.ok.inj).mp (fine.symm.trans known)
  cases reads with
  | started id name =>
    obtain rfl : deltas = [.callStart id name] := only rfl
    refine ⟨_, rfl, ?_, rfl, h.text⟩
    exact congrArg (· ++ [⟨id, name, ""⟩]) h.calls
  | @input id json opened =>
    obtain rfl : deltas = [.callDelta id json] := only rfl
    obtain ⟨c, last, rfl⟩ := Option.map_eq_some_iff.mp (h.opened.symm.trans opened)
    refine ⟨_, rfl, ?_, ?_, h.text⟩
    · have whole : a.calls = s.closed ++ [c] := by rw [h.calls, Slots.calls, last, Option.toList_some]
      have extended := Assembly.extendCall_concat s.closed c json
      rw [← whole] at extended
      simpa [Slots.take, Slots.calls, last] using extended
    · simp [Slots.take, last, opened]
  | stray json closed =>
    obtain rfl : deltas = [] := only rfl
    have last : s.last = none := Option.map_eq_none_iff.mp (h.opened.symm.trans closed)
    refine ⟨a, rfl, ?_, ?_, h.text⟩
    · simpa [Slots.take, Slots.calls, last] using h.calls
    · simp [Slots.take, last, closed]
  | text t =>
    obtain rfl : deltas = [.text t] := only rfl
    exact ⟨_, rfl, h.calls, h.opened, congrArg (· ++ t) h.text⟩
  | @stopped id opened =>
    obtain rfl : deltas = [.callEnd id] := only rfl
    refine ⟨a, rfl, ?_, rfl, h.text⟩
    exact h.calls.trans (List.append_nil _).symm
  | idle closed =>
    obtain rfl : deltas = [] := only rfl
    refine ⟨a, rfl, ?_, closed, h.text⟩
    exact h.calls.trans (List.append_nil _).symm
  | @other r' made same apart =>
    have all : made = deltas.map .ok := fine
    refine h.apart (fun d among => apart d ?_) same
    rw [all]
    exact List.mem_map_of_mem among

theorem run (h : Follows r a s) {frames : List (List UInt8)} {deltas : List Delta}
    (fine : r.run frames = deltas.map .ok) :
    ∃ a', a.takeAll deltas = .ok a' ∧
      a'.calls = ((frames.filterMap signal?).foldl Slots.take s).calls ∧
      a'.text = ((frames.filterMap signal?).foldl Slots.take s).text := by
  induction frames generalizing r a s deltas with
  | nil =>
    obtain rfl : deltas = [] := List.map_eq_nil_iff.mp fine.symm
    exact ⟨a, rfl, h.calls, h.text⟩
  | cons bytes rest ih =>
    obtain ⟨first, later, rfl, now, after⟩ := List.map_eq_append_iff.mp fine.symm
    obtain ⟨a₁, took, follows⟩ := h.step (r.frame_reads bytes) now.symm
    obtain ⟨a₂, tookLater, calls, text⟩ := ih follows after.symm
    have split : (bytes :: rest).filterMap signal? =
        (signal? bytes).toList ++ rest.filterMap signal? := by
      rw [List.filterMap_cons]
      cases signal? bytes <;> rfl
    refine ⟨a₂, ?_, ?_, ?_⟩
    · rw [Assembly.takeAll, List.foldlM_append]
      exact (congrArg (· >>= _) took).trans tookLater
    · rw [split, List.foldl_append, calls]
    · rw [split, List.foldl_append, text]

end Follows

/-- A run that takes in all deltas of a body has put together what the body says. -/
theorem takeAll_items {chunks : List (List UInt8)} {deltas : List Delta}
    (fine : items chunks = deltas.map .ok) :
    ∃ a, Assembly.takeAll {} deltas = .ok a ∧ a.calls = callsOf (signals chunks.flatten) ∧
      a.text = textOf (signals chunks.flatten) := by
  have new : Follows {} {} {} := ⟨rfl, rfl, rfl⟩
  rw [items_run] at fine
  obtain ⟨a, took, calls, text⟩ := new.run fine
  refine ⟨a, took, ?_, ?_⟩
  · rw [calls, Slots.calls_foldl]
    simp [signals]
  · rw [text, Slots.text_foldl]
    exact String.empty_append

end Anthropic

/-! ## What is recorded -/

namespace Intake

open Anthropic (Item endSteps)

/-- Nothing is taken in of what comes behind a body. -/
theorem read_endSteps (i : Intake) (ending : Http.Ending) :
    (i.read (endSteps ending)).assembly = i.assembly := by
  have stopped (i : Intake) : (i.read []).assembly = i.assembly := by
    rw [read]
    split <;> rfl
  cases ending with
  | complete => exact stopped i
  | broken message =>
    rw [endSteps, read]
    split <;> rfl
  | silent =>
    rw [endSteps, read]
    split
    · rfl
    · exact stopped _

theorem read_items {i ended : Intake} {items : List Item} {ending : Http.Ending}
    (read_ : i.read (items.map (Model.Step.item · false) ++ endSteps ending) = ended)
    (whole : ended.interruption = none) :
    ∃ deltas, items = deltas.map .ok ∧ i.assembly.takeAll deltas = .ok ended.assembly := by
  induction items generalizing i with
  | nil =>
    have kept : ended.assembly = i.assembly := by rw [← read_]; exact i.read_endSteps ending
    exact ⟨[], rfl, congrArg Except.ok kept.symm⟩
  | cons item rest ih =>
    rw [List.map_cons, List.cons_append] at read_
    cases item with
    | error e =>
      rw [read] at read_
      subst read_
      split at whole <;> cases whole
    | ok d =>
      rw [read] at read_
      split at read_
      · subst read_
        cases whole
      cases took : i.look.take d with
      | error why =>
        simp only [took] at read_
        subst read_
        cases whole
      | ok later =>
        simp only [took] at read_
        obtain ⟨deltas, rfl, all⟩ := ih read_
        exact ⟨d :: deltas, rfl, (takeAll_of_take took deltas).trans all⟩

end Intake

namespace Anthropic

section

variable {σ : Type} {setup : Setup σ} {r r' : Run σ} {a : Agent σ} {settings : Settings}
  {network : Http.Network σ} {response : Http.Response} {world : σ}

/-- Asking a model behind a network is hearing its response, unless the run is cancelled first. -/
theorem callModel_of_sent (found : setup.team.agent r.agent = .ok a)
    (served : a.model.complete = (model settings network).complete)
    (sent : network (requestOf settings (Run.requestOf setup r.session a)) r.world =
      (.ok response, world)) :
    Run.callModel setup r =
      if r.look.cancel.requested then (r.look, .error .cancelled)
      else Run.hear setup a.model (r.look.send (Run.requestOf setup r.session a) world)
        (steps response) := by
  simp only [Run.callModel, found, served, model]
  split
  · rfl
  · have world_look : r.look.world = r.world := rfl
    simp only [world_look, sent]

theorem hear_steps {m : Model σ} {turn : Run.Turn}
    (heard : Run.hear setup m r (steps response) = (r', .ok turn)) :
    ∃ message : Message,
      r'.session.items = r.session.items ++ [.message ⟨r.agent, message, setup.now⟩] ∧
        message.role = .assistant ∧
        message.calls = callsOf (signals response.chunks.flatten) ∧
        message.content = textOf (signals response.chunks.flatten) ∧
        turn.calls = message.calls := by
  unfold steps at heard
  split at heard
  · unfold Run.hear at heard
    dsimp only at heard
    generalize read : Intake.read { cancel := r.cancel } _ = ended at heard
    cases whole : ended.interruption with
    | some why =>
      simp only [whole] at heard
      cases heard
    | none =>
      simp only [whole] at heard
      cases heard
      obtain ⟨deltas, fine, took⟩ := Intake.read_items read whole
      obtain ⟨assembled, put, calls, text⟩ := takeAll_items fine
      obtain rfl : assembled = ended.assembly := Except.ok.inj (put.symm.trans took)
      obtain ⟨message, role, content, made, recorded⟩ :=
        Run.recordTurn_items setup m ended.assembly (r.takeIn ended)
      exact ⟨message, recorded, role, made.trans calls, content.trans text, made.symm⟩
  · cases heard

theorem hear_of_fine {m : Model σ} (uncancelled : r.cancel.requested = false)
    (blind : r.cancel.looks = none) (success : Http.isSuccess response.status = true)
    (complete : response.ending = .complete)
    {deltas : List Model.Delta} (fine : items response.chunks = deltas.map .ok) :
    ∃ r' turn, Run.hear setup m r (steps response) = (r', .ok turn) := by
  obtain ⟨assembled, put, -, -⟩ := takeAll_items fine
  have whole : (Intake.read { cancel := r.cancel }
      (deltas.map fun d => .item (.ok d) false)).interruption = none :=
    Intake.read_of_takeAll rfl uncancelled blind put
  have sent : steps response = .ok (deltas.map fun d => .item (.ok d) false) := by
    rw [steps, if_pos success, fine, complete, List.map_map, endSteps, List.append_nil]
    rfl
  rw [sent, Run.hear]
  simp only [whole]
  exact ⟨_, _, rfl⟩

/-- The calls that a run records are those its body says, and so is the text. -/
theorem calls_assembled
    (found : setup.team.agent r.agent = .ok a)
    (served : a.model.complete = (model settings network).complete)
    (sent : network (requestOf settings (Run.requestOf setup r.session a)) r.world =
      (.ok response, world)) :
    (∀ r' turn, Run.callModel setup r = (r', .ok turn) →
      ∃ message : Message,
        r'.session.items = r.session.items ++ [.message ⟨r.agent, message, setup.now⟩] ∧
          message.role = .assistant ∧
          message.calls = callsOf (signals response.chunks.flatten) ∧
          message.content = textOf (signals response.chunks.flatten) ∧
          turn.calls = message.calls) ∧
      (∀ deltas : List Model.Delta, items response.chunks = deltas.map .ok →
        r.cancel.requested = false → r.cancel.looks = none →
        Http.isSuccess response.status = true → response.ending = .complete →
        ∃ r' turn, Run.callModel setup r = (r', .ok turn)) := by
  rw [callModel_of_sent found served sent]
  refine ⟨?_, ?_⟩
  · intro r' turn heard
    split at heard
    · cases heard
    · have recorded := hear_steps heard
      exact recorded
  · intro deltas fine uncancelled blind success complete
    have look : r.look.cancel = r.cancel := by
      rw [Run.look, Cancellation.look, blind]
    rw [look, uncancelled, if_neg Bool.false_ne_true]
    exact hear_of_fine (look ▸ uncancelled) (look ▸ blind) success complete fine

end

/-! ## A sample

Two calls have one identifier, the first block is never stopped, text comes between its start and
its end, and some input belongs to no call. -/

namespace Sample

open EventStream (Frame frames ended)
open Json.Decode (ofText)

def eventFrame (event data : String) : List UInt8 :=
  Text.Utf8.encode ("event: " ++ event ++ "\ndata: " ++ data)

def startData : String :=
  "\x7b\"index\":0,\"content_block\":\x7b\"type\":\"tool_use\",\"id\":\"1\",\"name\":\"touch\"\x7d\x7d"

def inputData : String :=
  "\x7b\"index\":0,\"delta\":\x7b\"type\":\"input_json_delta\",\"partial_json\":\"\x7b\x7d\"\x7d\x7d"

def textData : String :=
  "\x7b\"index\":0,\"delta\":\x7b\"type\":\"text_delta\",\"text\":\"hi\"\x7d\x7d"

def startFrame : List UInt8 := eventFrame "content_block_start" startData

def inputFrame : List UInt8 := eventFrame "content_block_delta" inputData

def textFrame : List UInt8 := eventFrame "content_block_delta" textData

def stopFrame : List UInt8 := eventFrame "content_block_stop" "\x7b\x7d"

def whole : List (List UInt8) :=
  [startFrame, textFrame, inputFrame, startFrame, inputFrame, stopFrame, inputFrame]

def response : Http.Response where
  status := 200
  chunks := [(whole.map ended).flatten]

def network : Http.Network Unit := fun _ world => (.ok response, world)

def settings : Settings := { apiKey := "", model := "sample" }

def agent : Agent Unit := { name := "root", model := model settings network }

def setup : Setup Unit where
  team := ⟨[agent], agent, by simp, by simp [agent], .head _⟩
  here := { today := "2026-01-01", directory := "/" }
  now := Ensemble.Sample.noon

def run : Run Unit :=
  { session := Ensemble.Sample.session, agent := "root", cancel := .never, world := () }

set_option maxRecDepth 8000 in
theorem startFrame_decode : Frame.decode startFrame = .ok ⟨"content_block_start", startData⟩ := by rfl

set_option maxRecDepth 8000 in
theorem inputFrame_decode : Frame.decode inputFrame = .ok ⟨"content_block_delta", inputData⟩ := by rfl

set_option maxRecDepth 8000 in
theorem textFrame_decode : Frame.decode textFrame = .ok ⟨"content_block_delta", textData⟩ := by rfl

set_option maxRecDepth 8000 in
theorem stopFrame_decode : Frame.decode stopFrame = .ok ⟨"content_block_stop", "\x7b\x7d"⟩ := by rfl

theorem start_decode : ofText decodeBlockStart startData = .ok (some ("1", "touch")) := by
  unfold startData
  cbv

theorem input_decode : ofText decodeBlockDelta inputData = .ok (.input "\x7b\x7d") := by
  unfold inputData
  cbv

theorem text_decode : ofText decodeBlockDelta textData = .ok (.text "hi") := by
  unfold textData
  cbv

theorem frames_whole : frames response.chunks.flatten = whole := by
  refine EventStream.frames_eq_iff.mpr ⟨by decide +kernel, [], rfl, ?_⟩
  rw [response, List.flatten_singleton, List.append_nil]

theorem startFrame_signal : signal? startFrame = some (.started "1" "touch") := by
  rw [signal?_of_decode startFrame_decode, signalOf?, start_decode]
  rfl

theorem inputFrame_signal : signal? inputFrame = some (.input "\x7b\x7d") := by
  rw [signal?_of_decode inputFrame_decode, signalOf?, input_decode]
  rfl

theorem textFrame_signal : signal? textFrame = some (.text "hi") := by
  rw [signal?_of_decode textFrame_decode, signalOf?, text_decode]
  rfl

theorem stopFrame_signal : signal? stopFrame = some .stopped := by
  rw [signal?_of_decode stopFrame_decode, signalOf?]
  rfl

theorem signals_whole : whole.filterMap signal? =
    [.started "1" "touch", .text "hi", .input "\x7b\x7d", .started "1" "touch", .input "\x7b\x7d",
      .stopped, .input "\x7b\x7d"] := by
  rw [whole, List.filterMap_cons_some startFrame_signal, List.filterMap_cons_some textFrame_signal,
    List.filterMap_cons_some inputFrame_signal, List.filterMap_cons_some startFrame_signal,
    List.filterMap_cons_some inputFrame_signal, List.filterMap_cons_some stopFrame_signal,
    List.filterMap_cons_some inputFrame_signal, List.filterMap_nil]

theorem startFrame_frame (r : Reading) : r.frame startFrame =
    ({ r with openCall := some "1" }, [.ok (.callStart "1" "touch")]) := by
  rw [Reading.frame_of_decode startFrame_decode rfl, Reading.take, start_decode]
  rfl

theorem inputFrame_frame (r : Reading) :
    r.frame inputFrame = (r, r.fragment (.input "\x7b\x7d")) := by
  rw [Reading.frame_of_decode inputFrame_decode rfl, Reading.take, input_decode]

theorem textFrame_frame (r : Reading) : r.frame textFrame = (r, [.ok (.text "hi")]) := by
  rw [Reading.frame_of_decode textFrame_decode rfl, Reading.take, text_decode]
  rfl

theorem stopFrame_frame (r : Reading) : r.frame stopFrame = r.close :=
  Reading.frame_of_decode stopFrame_decode rfl r

theorem run_whole : Reading.run {} whole =
    ([.callStart "1" "touch", .text "hi", .callDelta "1" "\x7b\x7d", .callStart "1" "touch",
      .callDelta "1" "\x7b\x7d", .callEnd "1"] : List Model.Delta).map .ok := by
  simp only [whole, Reading.run, startFrame_frame, inputFrame_frame, textFrame_frame,
    stopFrame_frame]
  rfl

end Sample

theorem calls_assembled_sample :
    ∃ r' turn, Run.callModel Sample.setup Sample.run = (r', .ok turn) ∧
      turn.calls = [⟨"1", "touch", "\x7b\x7d"⟩, ⟨"1", "touch", "\x7b\x7d"⟩] ∧
      ∃ message : Message, message.content = "hi" ∧ message.calls = turn.calls ∧
        r'.session.items =
          Sample.run.session.items ++ [.message ⟨"root", message, Ensemble.Sample.noon⟩] := by
  have sent : Sample.network (requestOf Sample.settings
      (Run.requestOf Sample.setup Sample.run.session Sample.agent)) Sample.run.world =
      (.ok Sample.response, ()) := rfl
  have found : Sample.setup.team.agent Sample.run.agent = .ok Sample.agent := by rfl
  obtain ⟨recorded, heard⟩ := calls_assembled found rfl sent
  have fine := (items_run Sample.response.chunks).trans
    ((congrArg (Reading.run {}) Sample.frames_whole).trans Sample.run_whole)
  obtain ⟨r', turn, whole⟩ := heard _ fine rfl rfl rfl rfl
  obtain ⟨message, items, -, calls, content, same⟩ := recorded r' turn whole
  rw [signals, Sample.frames_whole, Sample.signals_whole] at calls content
  exact ⟨r', turn, whole, same.trans calls, message, content, same.symm, items⟩

end Anthropic

end Ensemble
