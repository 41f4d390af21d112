import Ensemble.Jobs.Basic
import Ensemble.Text.Utf8

/-!
# Supervisors of processes

A supervisor starts commands, copies what they write and remembers the ones that outlive the call
that started them. Each process has a reader for each of its two streams and a waiter. The waiter
announces the end only when the process has ended and both readers have come to the end of their
stream, so whoever learns of the end sees all of the output. What processes, readers and waiters do
comes as events, in any order; the operations are those of the callers.
-/

namespace Ensemble.Jobs

/-- One stream of a process. Once no process holds its other end it is closed. -/
structure Stream where
  copied : List UInt8 := []
  /-- Written, but not read yet. -/
  waiting : List UInt8 := []
  closed : Bool := false
deriving DecidableEq

namespace Stream

def written (s : Stream) : List UInt8 := s.copied ++ s.waiting

def write (s : Stream) (bytes : List UInt8) : Stream :=
  if s.closed then s else { s with waiting := s.waiting ++ bytes }

/-- The reader copies at most `count` bytes. -/
def copy (s : Stream) (count : Nat) : Stream :=
  { s with copied := s.copied ++ s.waiting.take count, waiting := s.waiting.drop count }

def close (s : Stream) : Stream := { s with closed := true }

def isFinished (s : Stream) : Bool := s.closed && s.waiting.isEmpty

def text (s : Stream) : String := Text.Utf8.decodeLossy s.copied

end Stream

inductive Channel where
  | stdout
  | stderr
deriving DecidableEq

structure Job where
  pid : Nat
  /-- In milliseconds. -/
  started : Nat
  stdout : Stream := {}
  stderr : Stream := {}
  exit : Option Exit := none
  /-- The end as the waiter announced it. -/
  announced : Option Exit := none

namespace Job

def stream (j : Job) : Channel → Stream
  | .stdout => j.stdout
  | .stderr => j.stderr

def onStream (j : Job) (c : Channel) (f : Stream → Stream) : Job :=
  match c with
  | .stdout => { j with stdout := f j.stdout }
  | .stderr => { j with stderr := f j.stderr }

def output (j : Job) : Output := ⟨j.stdout.text, j.stderr.text⟩

def ready? (j : Job) : Option Exit :=
  if j.stdout.isFinished && j.stderr.isFinished then j.exit else none

end Job

/-- What happens to the job with an index. -/
inductive Event where
  | wrote (job : Nat) (channel : Channel) (bytes : List UInt8)
  | copied (job : Nat) (channel : Channel) (count : Nat)
  | closed (job : Nat) (channel : Channel)
  | ended (job : Nat) (exit : Exit)
  | announced (job : Nat)

inductive Wake where
  | cancelled
  | completed
  | timedOut
deriving DecidableEq

structure Supervisor where
  /-- How long a caller waits for a command, in milliseconds. -/
  quickTimeout : Nat := 10000
  /-- Every job, in the order they were started. A job is known by its index. -/
  jobs : List Job := []
  /-- The pids of jobs whose end was not announced yet. -/
  live : List Nat := []
  /-- The jobs in the background by pid. -/
  background : List (Nat × Nat) := []

namespace Supervisor

def job? (s : Supervisor) (index : Nat) : Option Job := s.jobs[index]?

def onJob (s : Supervisor) (index : Nat) (f : Job → Job) : Supervisor :=
  { s with jobs := s.jobs.modify index f }

/-- A process was started; it gets the next index. -/
def started (s : Supervisor) (pid now : Nat) : Supervisor :=
  { s with jobs := s.jobs ++ [{ pid, started := now }], live := s.live.erase pid ++ [pid] }

/-- The waiter announces the end if it can, and the pid counts as live no longer. -/
def announce (s : Supervisor) (index : Nat) : Supervisor :=
  match s.job? index with
  | none => s
  | some j =>
    match j.announced, j.ready? with
    | none, some exit =>
      { s.onJob index fun j => { j with announced := some exit } with live := s.live.erase j.pid }
    | _, _ => s

/-- A process ends once. -/
def endJob (exit : Exit) (j : Job) : Job := { j with exit := j.exit.or (some exit) }

def apply (s : Supervisor) : Event → Supervisor
  | .wrote i c bytes => s.onJob i (·.onStream c (·.write bytes))
  | .copied i c count => s.onJob i (·.onStream c (·.copy count))
  | .closed i c => s.onJob i (·.onStream c .close)
  | .ended i exit => s.onJob i (endJob exit)
  | .announced i => s.announce i

def applyAll (s : Supervisor) (events : List Event) : Supervisor := events.foldl apply s

def liveCount (s : Supervisor) : Nat := s.live.length

def insertSorted (n : Nat) : List Nat → List Nat
  | [] => [n]
  | m :: rest => if n ≤ m then n :: m :: rest else m :: insertSorted n rest

/-- The pids in the background, least first. -/
def backgroundPids (s : Supervisor) : List Nat :=
  (s.background.map (·.1)).foldl (fun acc n => insertSorted n acc) []

/-- A job moves to the background. An entry of the same pid is replaced. -/
def keep (s : Supervisor) (index : Nat) (j : Job) : Supervisor :=
  { s with background := s.background.filter (fun e => e.1 != j.pid) ++ [(j.pid, index)] }

/-- The caller that started a job stops waiting for it. A job that is interrupted is to be
terminated, and forgotten. -/
def conclude (s : Supervisor) (index : Nat) (wake : Wake) (requested : Bool) :
    Option (RunOutcome × Supervisor) :=
  match s.job? index with
  | none => none
  | some j =>
    match wake, j.announced with
    | .cancelled, _ => some (.interrupted j.output, s)
    | .completed, some exit => some (.completed exit j.output, s)
    | _, _ => some (.background j.pid j.output requested, s.keep index j)

/-- Asks for a job in the background. The first who learns that it ended takes it from the table. -/
def logs (s : Supervisor) (pid now : Nat) : LogsOutcome × Supervisor :=
  match (s.background.lookup pid).bind s.job? with
  | none => (.notFound, s)
  | some j =>
    match j.announced with
    | none => (.running j.output (now - j.started), s)
    | some exit =>
      (.completed exit j.output, { s with background := s.background.filter fun e => e.1 != pid })

/-- The pids to terminate, and the supervisor without them. What is in the background stays there,
so that its last output can still be had. -/
def shutdown (s : Supervisor) : List Nat × Supervisor := (s.live, { s with live := [] })

end Supervisor

end Ensemble.Jobs
