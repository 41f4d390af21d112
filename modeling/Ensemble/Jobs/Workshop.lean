import Ensemble.Posix.Step
import Ensemble.Jobs.Supervisor

/-!
# A supervisor at work

A workshop is a supervisor with the machine its commands run on. The machine runs while somebody
waits for something; what happened on it meanwhile is then told to the supervisor as events.
-/

namespace Ensemble.Jobs

open Posix (Machine)

/-- A job and where the machine has it. -/
structure Link where
  job : Nat
  pid : Nat
  stdout : Nat
  stderr : Nat

namespace Link

def isFinished (l : Link) (m : Machine) : Bool :=
  ((m.process? l.pid).all (·.exit.isSome)) && !m.hasWriter l.stdout && !m.hasWriter l.stderr

def channelEvents (l : Link) (m : Machine) (c : Channel) (pipe : Nat) : List Event × Machine :=
  let (bytes, m) := m.drain pipe
  ([.wrote l.job c bytes, .copied l.job c bytes.length]
    ++ (if m.hasWriter pipe then [] else [.closed l.job c]), m)

def exitEvents (l : Link) (m : Machine) : List Event :=
  match (m.process? l.pid).bind (·.exit) with
  | some e => [.ended l.job e]
  | none => []

def events (l : Link) (m : Machine) : List Event × Machine :=
  let (first, m) := l.channelEvents m .stdout l.stdout
  let (second, m) := l.channelEvents m .stderr l.stderr
  (first ++ second ++ l.exitEvents m ++ [.announced l.job], m)

end Link

inductive Interruption where
  | never
  | already
  /-- Some time after a file appears, in milliseconds. -/
  | afterFile (directory : Posix.Path) (name : String) (delay : Nat)

structure Workshop where
  supervisor : Supervisor := {}
  machine : Machine := { files := Machine.systemFiles }
  /-- The jobs that may still change. -/
  links : List Link := []

namespace Workshop

/-- In milliseconds. -/
def now (w : Workshop) : Nat := w.machine.now / 1000

def observe (s : Supervisor) (m : Machine) : List Link → Supervisor × Machine
  | [] => (s, m)
  | l :: rest =>
    let (events, m) := l.events m
    observe (s.applyAll events) m rest

def sync (w : Workshop) : Workshop :=
  let (supervisor, machine) := observe w.supervisor w.machine w.links
  { supervisor, machine, links := w.links.filter fun l => !l.isFinished machine }

/-- More steps than a machine takes in any wait here. -/
def maxSteps : Nat := 20000000

def runFor (w : Workshop) (time : Nat) (stop : Machine → Bool) : Workshop :=
  { w with machine := w.machine.runUntil stop (w.machine.now + time * 1000) maxSteps }.sync

/-- No wait takes longer; in milliseconds. -/
def longWait : Nat := 120000

def awaitCommand (w : Workshop) (l : Link) (i : Interruption) : Wake × Workshop :=
  let timeout := w.supervisor.quickTimeout
  let verdict (w : Workshop) (late : Wake) : Wake × Workshop :=
    (if l.isFinished w.machine then .completed else late, w)
  match i with
  | .already => (.cancelled, w.sync)
  | .never => verdict (w.runFor timeout l.isFinished) .timedOut
  | .afterFile directory name delay =>
    let started := w.now
    let seen (m : Machine) := m.files.exists? directory name
    let w := w.runFor timeout fun m => l.isFinished m || seen m
    let left := timeout - (w.now - started)
    if l.isFinished w.machine || !seen w.machine then verdict w .timedOut
    else if delay < left then verdict (w.runFor delay l.isFinished) .cancelled
    else verdict (w.runFor left l.isFinished) .timedOut

def terminate (w : Workshop) (pid : Nat) : Workshop := { w with machine := w.machine.signalGroup pid 15 }

def run (w : Workshop) (c : Command) (i : Interruption) : Except String RunOutcome × Workshop :=
  match w.machine.start c with
  | .error fault => (.error ("Failed to start command: " ++ fault.message), w)
  | .ok (started, machine) =>
    let index := w.supervisor.jobs.length
    let l : Link := ⟨index, started.pid, started.stdout, started.stderr⟩
    let w : Workshop := {
      supervisor := w.supervisor.started started.pid w.now, machine, links := w.links ++ [l] }
    let (wake, w) := if c.background then (.timedOut, w) else w.awaitCommand l i
    match w.supervisor.conclude index wake c.background with
    | none => (.error "Failed to start command: process exited before it was registered", w)
    | some (outcome, supervisor) =>
      let w := { w with supervisor }
      (.ok outcome, if wake = .cancelled then w.terminate started.pid else w)

def logs (w : Workshop) (pid : Nat) : LogsOutcome × Workshop :=
  let w := w.sync
  let (outcome, supervisor) := w.supervisor.logs pid w.now
  (outcome, { w with supervisor })

/-- Terminates everything that lives; also tells how many that were. -/
def shutdown (w : Workshop) : Nat × Workshop :=
  let w := w.sync
  let (pids, supervisor) := w.supervisor.shutdown
  (pids.length, pids.foldl terminate { w with supervisor })

def awaitLive (w : Workshop) (count : Nat) : Workshop :=
  let lives (m : Machine) : Nat := (w.links.filter fun l =>
    w.supervisor.live.contains l.pid && !l.isFinished m).length
  w.runFor longWait fun m => lives m == count

def awaitEnd (w : Workshop) (pid : Nat) : Workshop :=
  w.runFor longWait fun m => (w.links.filter (·.pid == pid)).all (·.isFinished m)

/-- Waits until there is a file, and then some milliseconds more. -/
def awaitFile (w : Workshop) (directory : Posix.Path) (name : String) (delay : Nat) : Workshop :=
  (w.runFor longWait fun m => m.files.exists? directory name).runFor delay fun _ => false

end Workshop

end Ensemble.Jobs
