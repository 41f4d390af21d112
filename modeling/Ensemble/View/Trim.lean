import Ensemble.Message

/-!
# Trimming a conversation

The last messages of a conversation are kept without parting a tool call from its results. A
result is stranded when no message of the window before it makes its call.
-/

namespace Ensemble.View

/-- What is done about stranded results. -/
inductive TrimPolicy where
  /-- The window grows to the left until it holds the calls. -/
  | expandLeft
  /-- The results are dropped. -/
  | dropOrphans
deriving DecidableEq

def callIds (m : Message) : List String := m.calls.map (·.id)

/-- The identifiers of results whose call is not among `seen` or in a message before them. -/
def strandedFrom (seen : List String) : List Message → List String
  | [] => []
  | m :: rest =>
    let seen := callIds m ++ seen
    match m.role, m.toolCallId with
    | .tool, some id => if id ∈ seen then strandedFrom seen rest else id :: strandedFrom seen rest
    | _, _ => strandedFrom seen rest

def stranded (window : List Message) : List String := strandedFrom [] window

def lastIdx? (p : α → Bool) : List α → Option Nat
  | [] => none
  | x :: xs =>
    match lastIdx? p xs with
    | some i => some (i + 1)
    | none => if p x then some 0 else none

theorem lastIdx?_lt {p : α → Bool} {xs : List α} {i : Nat} (h : lastIdx? p xs = some i) :
    i < xs.length := by
  induction xs generalizing i with
  | nil => simp [lastIdx?] at h
  | cons x xs ih =>
    simp only [lastIdx?] at h
    split at h
    · rename_i j hj
      have := ih hj
      simp only [Option.some.injEq] at h
      simp only [List.length_cons]
      omega
    · split at h
      · simp only [Option.some.injEq] at h
        simp only [List.length_cons]
        omega
      · simp at h

/-- An assistant message that makes one of the calls. -/
def owns (ids : List String) (m : Message) : Bool :=
  m.role == .assistant && m.calls.any fun c => c.id ∈ ids

/-- The start of the window: it moves to the nearest owner of a stranded result until there is
none. -/
def expand (messages : List Message) (start : Nat) : Nat :=
  match _h : lastIdx? (owns (stranded (messages.drop start))) (messages.take start) with
  | some i => expand messages i
  | none => start
termination_by start
decreasing_by
  have := lastIdx?_lt _h
  simp only [List.length_take] at this
  omega

/-- Without the results whose call is not before them. -/
def pairedFrom (seen : List String) : List Message → List Message
  | [] => []
  | m :: rest =>
    let seen := callIds m ++ seen
    match m.role, m.toolCallId with
    | .tool, some id => if id ∈ seen then m :: pairedFrom seen rest else pairedFrom seen rest
    | .tool, none => pairedFrom seen rest
    | _, _ => m :: pairedFrom seen rest

def trimWith (policy : TrimPolicy) (max : Nat) (messages : List Message) : List Message :=
  if max = 0 then []
  else
    let last := messages.length - max
    let start := match policy with
      | .expandLeft => expand messages last
      | .dropOrphans => last
    pairedFrom [] (messages.drop start)

/-- The last `max` messages, and as many before them as their results need. -/
def trim (max : Nat) (messages : List Message) : List Message := trimWith .expandLeft max messages

end Ensemble.View
