/-!
# Cancellation

Work can be cancelled from outside. Time passes only while something waits, so a cancellation is
described by what it takes for it to come: it has been requested already, it comes when one wait
gets longer than someone's patience, all waits together reach a deadline, or someone has looked
for it in vain often enough. A wait without end is always cancelled in the end.
-/

namespace Ensemble

/-- Times are in milliseconds. -/
structure Cancellation where
  requested : Bool := false
  patience : Option Nat := none
  deadline : Option Nat := none
  /-- How often someone can look and find nothing. With it cancellation can come between any two
  steps of whoever looks. -/
  looks : Option Nat := none
  expired : Bool := false
deriving DecidableEq

namespace Cancellation

/-- Comes only to end a wait without end. -/
def never : Cancellation := {}

def already : Cancellation := { requested := true }

def request (c : Cancellation) (now : Bool := true) : Cancellation :=
  { c with requested := c.requested || now }

/-- Someone looks whether cancellation was requested; it may have come since the last look. -/
def look (c : Cancellation) : Cancellation :=
  match c.looks with
  | some 0 => { c with requested := true }
  | some (left + 1) => { c with looks := some left }
  | none => c

/-- Not later than; nothing stands for never. -/
def notLater : Option Nat → Option Nat → Bool
  | some a, some b => a ≤ b
  | some _, none => true
  | none, _ => false

/-- What a wait of `time` does; a wait without a time has no end of its own. -/
def wait (c : Cancellation) (time : Option Nat) : Cancellation :=
  if c.requested then c
  else if notLater c.deadline c.patience && notLater c.deadline time then
    { c with requested := true, expired := true }
  else if notLater c.patience time then { c with requested := true }
  else
    match time with
    | some t => { c with deadline := c.deadline.map (· - t) }
    | none => { c with requested := true }

end Cancellation

end Ensemble
