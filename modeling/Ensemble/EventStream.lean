import Ensemble.Text.Utf8

/-!
# Event streams

A stream of bytes is a sequence of frames, each ended by two newlines that are not part of it.
Bytes come in chunks that may end anywhere, so they are gathered in a buffer, and only whole
frames are taken off it.
-/

namespace Ensemble.EventStream

def newline : UInt8 := 10

/-- The number of bytes before the first two newlines. -/
def frameEnd? : List UInt8 → Option Nat
  | a :: b :: rest =>
    if a = newline ∧ b = newline then some 0 else (frameEnd? (b :: rest)).map (· + 1)
  | _ => none

theorem frameEnd?_le {buffer : List UInt8} {n : Nat} (h : frameEnd? buffer = some n) :
    n + 2 ≤ buffer.length := by
  induction buffer generalizing n with
  | nil => simp [frameEnd?] at h
  | cons a rest ih =>
    cases rest with
    | nil => simp [frameEnd?] at h
    | cons b rest =>
      simp only [frameEnd?] at h
      split at h
      · simp only [Option.some.injEq] at h
        simp only [List.length_cons]
        omega
      · obtain ⟨m, hm, rfl⟩ := Option.map_eq_some_iff.mp h
        have := ih hm
        simp only [List.length_cons] at this ⊢
        omega

structure Frame where
  event : String := ""
  data : String := ""
deriving DecidableEq

def dropReturn (line : List Char) : List Char :=
  match line.reverse with
  | '\r' :: rest => rest.reverse
  | _ => line

/-- The lines of a text. A newline ends a line, and a return before it belongs to the end. -/
def lines (line : List Char) : List Char → List (List Char)
  | [] => if line.isEmpty then [] else [line.reverse]
  | '\n' :: rest => dropReturn line.reverse :: lines [] rest
  | c :: rest => lines (c :: line) rest

def after? (lead : String) (line : List Char) : Option String :=
  if lead.toList.isPrefixOf line then some (String.ofList (line.drop lead.length)) else none

/-- Takes a line; the last line of each kind counts. -/
def Frame.line (f : Frame) (line : List Char) : Frame :=
  match after? "event: " line with
  | some name => { f with event := name }
  | none =>
    match after? "data: " line with
    | some data => { f with data }
    | none => f

def Frame.ofText (s : String) : Frame := (lines [] s.toList).foldl Frame.line {}

def Frame.decode (bytes : List UInt8) : Except Text.Utf8.Flaw Frame :=
  (Text.Utf8.decode bytes).map Frame.ofText

end Ensemble.EventStream
