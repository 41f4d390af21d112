import Ensemble.Anthropic.Stream

/-!
# Streamed replies in chunks

The reader cuts its bytes at the earliest pair of newlines. A pair that was found stays the
earliest one when more bytes come (`frameEnd?_append`), so it does not matter whether frames are
taken off the buffer early or late (`drain_append`), and a body reads the same in any chunks.

Cancellation and a connection that breaks are not covered here: they end a stream of chunks, and
do not change how its bytes are read.
-/

namespace Ensemble

namespace EventStream

theorem frameEnd?_append {buffer : List UInt8} {n : Nat} (h : frameEnd? buffer = some n)
    (more : List UInt8) : frameEnd? (buffer ++ more) = some n := by
  induction buffer generalizing n with
  | nil => simp [frameEnd?] at h
  | cons a rest ih =>
    cases rest with
    | nil => simp [frameEnd?] at h
    | cons b rest =>
      simp only [List.cons_append, frameEnd?] at h ih ⊢
      split at h
      · rename_i ends
        rw [if_pos ends, h]
      · rename_i goesOn
        obtain ⟨m, hm, rfl⟩ := Option.map_eq_some_iff.mp h
        rw [if_neg goesOn, ih hm, Option.map_some]

/-- The bytes of one frame, without the two newlines behind it: no earlier two newlines end it. -/
def IsFrame (frame : List UInt8) : Prop := ¬ [newline, newline] <:+: frame ++ [newline]

instance (frame : List UInt8) : Decidable (IsFrame frame) :=
  inferInstanceAs (Decidable (¬ [newline, newline] <:+: frame ++ [newline]))

def ended (frame : List UInt8) : List UInt8 := frame ++ [newline, newline]

theorem frameEnd?_ended {frame : List UInt8} (whole : IsFrame frame) (rest : List UInt8) :
    frameEnd? (ended frame ++ rest) = some frame.length := by
  induction frame with
  | nil => simp [ended, frameEnd?]
  | cons a frame ih =>
    have goesOn : ¬ (a = newline ∧ (frame ++ [newline]).head? = some newline) := by
      rintro ⟨rfl, second⟩
      obtain ⟨later, hlater⟩ := List.head?_eq_some_iff.mp second
      exact whole ⟨[], later, by rw [List.cons_append, hlater]; rfl⟩
    have shorter : IsFrame frame := fun h => whole (h.trans (List.suffix_cons a _).isInfix)
    have inner := ih shorter
    cases frame with
    | nil =>
      have first : a ≠ newline := fun h => goesOn ⟨h, rfl⟩
      simp [ended, frameEnd?, first]
    | cons b frame =>
      have first : ¬ (a = newline ∧ b = newline) := by simpa using goesOn
      simp only [ended, List.cons_append, frameEnd?] at inner ⊢
      rw [if_neg first, inner]
      rfl

end EventStream

namespace Anthropic

open EventStream (frameEnd? IsFrame ended)

/-! ## One frame -/

def knownEvents : List String :=
  ["message_start", "content_block_start", "content_block_delta", "content_block_stop",
    "message_delta", "message_stop", "error"]

theorem Reading.take_of_unknown {event : String} (unknown : event ∉ knownEvents) (r : Reading)
    (data : String) : r.take event data = (r, []) := by
  simp only [knownEvents, List.mem_cons, List.not_mem_nil, or_false, not_or] at unknown
  unfold Reading.take
  split
  case h_8 => rfl
  all_goals simp_all only [not_true_eq_false, false_and, and_false]

theorem Reading.frame_of_unknown {bytes : List UInt8} {f : EventStream.Frame}
    (decoded : EventStream.Frame.decode bytes = .ok f) (unknown : f.event ∉ knownEvents)
    (r : Reading) : r.frame bytes = (r, []) := by
  simp only [Reading.frame, decoded, Reading.take_of_unknown unknown, ite_self]

/-! ## The buffer -/

namespace Reader

theorem drain_of_none {r : Reader} (h : frameEnd? r.buffer = none) : r.drain = (r, []) := by
  rw [drain]
  split
  · rfl
  · rename_i found
    rw [h] at found
    cases found

theorem drain_of_some {r : Reader} {size : Nat} (h : frameEnd? r.buffer = some size) :
    r.drain =
      let frame := r.reading.frame (r.buffer.take size)
      let later := drain ⟨r.buffer.drop (size + 2), frame.1⟩
      (later.1, frame.2 ++ later.2) := by
  rw [drain]
  split
  · rename_i found
    rw [h] at found
    cases found
  · rename_i found
    rw [h] at found
    cases found
    rfl

theorem frameEnd?_drain (r : Reader) : frameEnd? r.drain.1.buffer = none := by
  induction r using drain.induct with
  | case1 r missing => rwa [drain_of_none missing]
  | case2 r size found reading items cut _ _ _ ih =>
    rw [drain_of_some found, cut]
    exact ih

/-- Draining a longer buffer is draining what was there, and then what is left with the rest. -/
theorem drain_append (r : Reader) (more : List UInt8) :
    drain { r with buffer := r.buffer ++ more } =
      ((r.drain.1.feed more).1, r.drain.2 ++ (r.drain.1.feed more).2) := by
  induction r using drain.induct with
  | case1 r missing => simp [drain_of_none missing, feed]
  | case2 r size found reading items cut _ _ _ ih =>
    have fits := EventStream.frameEnd?_le found
    have longer : frameEnd? (r.buffer ++ more) = some size :=
      EventStream.frameEnd?_append found more
    rw [drain_of_some found, drain_of_some longer]
    simp only [List.take_append_of_le_length (show size ≤ r.buffer.length by omega),
      List.drop_append_of_le_length fits, cut]
    rw [ih, List.append_assoc]

theorem read_flatten (chunks : List (List UInt8)) {r : Reader} (idle : frameEnd? r.buffer = none) :
    r.read chunks = (r.feed chunks.flatten).2 := by
  induction chunks generalizing r with
  | nil => simp [read, feed, drain_of_none idle]
  | cons chunk rest ih =>
    have early := drain_append { r with buffer := r.buffer ++ chunk } rest.flatten
    have left : frameEnd? (r.feed chunk).1.buffer = none := frameEnd?_drain _
    have whole : r.feed (chunk ++ rest.flatten) =
        drain { r with buffer := r.buffer ++ chunk ++ rest.flatten } := by
      rw [feed, List.append_assoc]
    simp only [read, List.flatten_cons]
    rw [ih left, whole, early]
    rfl

theorem drain_ended {frame : List UInt8} (whole : IsFrame frame) (rest : List UInt8)
    (reading : Reading) :
    drain ⟨ended frame ++ rest, reading⟩ =
      let first := reading.frame frame
      let later := drain ⟨rest, first.1⟩
      (later.1, first.2 ++ later.2) := by
  have first : (ended frame ++ rest).take frame.length = frame := by simp [ended]
  have later : (ended frame ++ rest).drop (frame.length + 2) = rest := by
    simp [ended, List.drop_append]
  rw [drain_of_some (EventStream.frameEnd?_ended whole rest)]
  simp only [first, later]

theorem drain_insert {front : List (List UInt8)} (whole : ∀ frame ∈ front, IsFrame frame)
    {extra : List UInt8} (alone : IsFrame extra)
    (passed : ∀ reading : Reading, reading.frame extra = (reading, [])) (back : List UInt8)
    (reading : Reading) :
    drain ⟨(front.map ended).flatten ++ (ended extra ++ back), reading⟩ =
      drain ⟨(front.map ended).flatten ++ back, reading⟩ := by
  induction front generalizing reading with
  | nil =>
    simp only [List.map_nil, List.flatten_nil, List.nil_append]
    rw [drain_ended alone, passed]
    simp
  | cons frame front ih =>
    have later := ih (fun other among => whole other (.tail _ among))
    have first := whole frame (.head _)
    simp only [List.map_cons, List.flatten_cons, List.append_assoc] at later ⊢
    rw [drain_ended first, drain_ended first]
    simp only [later]

end Reader

/-- A body reads the same in any chunks, and also with a frame of an unknown event put behind
whole frames. -/
theorem items_chunks_irrelevant (chunks : List (List UInt8)) :
    items chunks = items [chunks.flatten] ∧
      ∀ (front : List (List UInt8)) (extra back : List UInt8) (f : EventStream.Frame)
        (longer : List (List UInt8)),
        (∀ frame ∈ front, IsFrame frame) → IsFrame extra →
        EventStream.Frame.decode extra = .ok f → f.event ∉ knownEvents →
        chunks.flatten = (front.map ended).flatten ++ back →
        longer.flatten = (front.map ended).flatten ++ (ended extra ++ back) →
        items longer = items chunks := by
  have whole (chunks : List (List UInt8)) :
      items chunks = (Reader.drain ⟨chunks.flatten, {}⟩).2 := Reader.read_flatten chunks rfl
  refine ⟨?_, ?_⟩
  · rw [whole, whole [_]]
    simp
  · intro front extra back f longer frames alone decoded unknown before after
    have passed := Reading.frame_of_unknown decoded unknown
    rw [whole, whole, before, after, Reader.drain_insert frames alone passed]

def stopFrame : List UInt8 := Text.Utf8.encode "event: message_stop\ndata: \x7b\x7d"

def pingFrame : List UInt8 := Text.Utf8.encode "event: ping\ndata: \x7b\x7d"

/-- A `ping` in two chunks, cut between its newlines, behind the frame that ends a message. -/
theorem items_chunks_irrelevant_ping :
    items [ended stopFrame ++ pingFrame ++ [10], [10], stopFrame] =
      items [ended stopFrame, stopFrame] :=
  (items_chunks_irrelevant [ended stopFrame, stopFrame]).2 [stopFrame] pingFrame stopFrame
    ⟨"ping", "\x7b\x7d"⟩ _ (by decide) (by decide) rfl (by decide) (by simp)
    (by simp [ended, EventStream.newline])

end Anthropic

end Ensemble
