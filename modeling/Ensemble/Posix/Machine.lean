import Ensemble.Posix.Expansion
import Ensemble.Posix.Utility
import Ensemble.Jobs.Basic

/-!
# Machines

A machine holds files, pipes and processes that run scripts, and a clock. Each process has its own
time, at which it can take its next step; the clock of the machine follows the steps. All times
are in microseconds.
-/

namespace Ensemble.Posix

open Jobs (Exit)

inductive Handle where
  | void
  /-- The end of a pipe to read from. -/
  | source (pipe : Nat)
  /-- The end of a pipe to write to. -/
  | sink (pipe : Nat)
  | reading (path : Path) (offset : Nat)
  | writing (path : Path)
deriving DecidableEq

abbrev Descriptors := List (Nat × Handle)

/-- What is left to do when a script comes back to it. -/
inductive Frame where
  | run (s : Script)
  /-- The complete commands that follow, and the fault behind them. -/
  | program (rest : List Script) (fault : Option (ScriptFault × Nat))
  /-- Goes on with one of two scripts, as the status is. -/
  | decide (yes no : Script)
  /-- Goes on with a script on success, or with `success` off on failure; else keeps the status. -/
  | join (success : Bool) (s : Script)
  | invert
  /-- The condition of a loop has run; before it the body left the status `last`. -/
  | condition (until_ : Bool) (condition body : Script) (last : Nat)
  | again (until_ : Bool) (condition body : Script)
  | each (name : String) (values : List String) (body : Script)
  | descriptors (saved : Descriptors)
  /-- A function has run; `locals` are variables it made its own, with what they were. -/
  | parameters (saved : List String) (locals : List (String × Option Variable))
  | await (children : List Nat)
  /-- Puts what a child wrote into a script that waits for it. -/
  | collect (pipe child : Nat) (s : Script)
  | status (n : Nat)
  | finish (n : Nat)

inductive Wait where
  | time
  | children (pids : List Nat)
  /-- The end of what can be read, or enough of it for a utility. -/
  | input (pipe : Nat) (name : String) (arguments : List String)
  | stopped

structure Proc where
  pid : Nat
  parent : Nat
  group : Nat
  /-- When it can take its next step, or when it ended. -/
  time : Nat
  environment : Environment := {}
  frames : List Frame := []
  descriptors : Descriptors := []
  /-- Signals whose actions have to run. -/
  pending : List Nat := []
  wait : Option Wait := none
  line : Nat := 1
  exit : Option Exit := none

/-- The descriptors a process holds, those it will come back to included. -/
def Proc.handles (p : Proc) : List Handle :=
  (p.descriptors ++ p.frames.flatMap fun
    | .descriptors saved => saved
    | .collect pipe _ _ => [(0, .source pipe)]
    | _ => []).map (·.2)

structure Machine where
  now : Nat := 0
  files : Files := {}
  pipes : List (Nat × List UInt8) := []
  nextPipe : Nat := 0
  /-- Pipes that are read from outside. -/
  drained : List Nat := []
  processes : List Proc := []

namespace Machine

def process? (m : Machine) (pid : Nat) : Option Proc := m.processes.find? (·.pid == pid)

def put (m : Machine) (p : Proc) : Machine :=
  { m with processes := m.processes.map fun q => if q.pid = p.pid then p else q }

/-! ## Numbers of processes -/

/-- Holds the number that was given last. -/
def lastPidFile : Path := ["proc", "sys", "kernel", "ns_last_pid"]

def lastPid (m : Machine) : Nat :=
  match m.files.get? lastPidFile with
  | some (.number n) => n
  | _ => 0

/-- Numbers are below this one. -/
def pidLimit : Nat := 32768

/-- Where numbers start again when they have come to the limit. -/
def firstPid : Nat := 300

/-- A number stands for a process or a group. A process that ended keeps its own until its parent
has seen it; outside the machine that happens at once. -/
def isTaken (m : Machine) (pid : Nat) : Bool :=
  m.processes.any fun p =>
    match p.exit with
    | none => p.pid == pid || p.group == pid
    | some _ => p.pid == pid && m.processes.any fun q => q.pid == p.parent && q.exit.isNone

def nextFree (m : Machine) : Nat → Nat → Nat
  | 0, pid => pid
  | tries + 1, pid =>
    let pid := if pid < pidLimit then pid else firstPid
    if m.isTaken pid then nextFree m tries (pid + 1) else pid

def nextPid (m : Machine) : Nat := m.nextFree pidLimit (m.lastPid + 1)

def enlist (m : Machine) (p : Proc) : Machine :=
  { m with
    files := m.files.put lastPidFile (.number p.pid)
    processes := m.processes.filter (fun old => old.pid != p.pid) ++ [p] }

/-! ## Pipes -/

def content (m : Machine) (pipe : Nat) : List UInt8 := (m.pipes.lookup pipe).getD []

def setContent (m : Machine) (pipe : Nat) (bytes : List UInt8) : Machine :=
  { m with pipes := m.pipes.map fun e => if e.1 = pipe then (pipe, bytes) else e }

def newPipe (m : Machine) : Nat × Machine :=
  (m.nextPipe, { m with nextPipe := m.nextPipe + 1, pipes := m.pipes ++ [(m.nextPipe, [])] })

def isHeld (m : Machine) (h : Handle) : Bool := m.processes.any fun p => p.handles.contains h

def hasWriter (m : Machine) (pipe : Nat) : Bool := m.isHeld (.sink pipe)

def hasReader (m : Machine) (pipe : Nat) : Bool := m.drained.contains pipe || m.isHeld (.source pipe)

def drain (m : Machine) (pipe : Nat) : List UInt8 × Machine := (m.content pipe, m.setContent pipe [])

/-! ## Signals -/

/-- Signals that do nothing unless there is an action for them. -/
def harmless : List Nat := [17, 18, 23, 28]

def stopping : List Nat := [19, 20, 21, 22]

/-- What is said of a child that a signal ended. -/
def lastWords : List (Nat × String) := [
  (1, "Hangup"), (3, "Quit"), (4, "Illegal instruction"), (5, "Trace/breakpoint trap"), (6, "Aborted"),
  (7, "Bus error"), (8, "Floating point exception"), (9, "Killed"), (10, "User defined signal 1"),
  (11, "Segmentation fault"), (12, "User defined signal 2"), (14, "Alarm clock"), (15, "Terminated")]

def ended (p : Proc) (e : Exit) (now : Nat) : Proc :=
  { p with exit := some e, frames := [], descriptors := [], wait := none, pending := []
           time := max p.time now }

def isAsleep (p : Proc) : Bool :=
  match p.wait with
  | some .time => true
  | _ => false

/-- What a signal does to a process. One that sleeps wakes up for an action, and no image is kept of
one that ends. -/
def affect (signal now : Nat) (p : Proc) : Proc :=
  if p.exit.isSome then p
  else if signal = 9 then ended p (.signalled 9 false) now
  else
    match p.environment.traps.lookup signal with
    | some "" => p
    | some _ =>
      let p := { p with pending := p.pending ++ [signal] }
      if isAsleep p then
        { p with wait := none, time := now, environment := { p.environment with status := 128 + signal } }
      else p
    | none =>
      if harmless.contains signal then
        match p.wait with
        | some .stopped => { p with wait := none, time := now }
        | _ => p
      else if stopping.contains signal then { p with wait := some .stopped }
      else ended p (.signalled signal false) now

def signal (m : Machine) (pid signal : Nat) : Machine :=
  { m with processes := m.processes.map fun p => if p.pid = pid then affect signal m.now p else p }

def signalGroup (m : Machine) (group signal : Nat) : Machine :=
  { m with processes := m.processes.map fun p => if p.group = group then affect signal m.now p else p }

/-! ## Programs -/

def shells : List String := ["sh", "dash", "bash"]

def otherPrograms : List String := shells ++ ["sleep", "yes", "env", "nohup", "setsid", "kill", "which"]

def programNames : List String := otherPrograms ++ Utility.table.map (·.1)

def searchPath : List String := ["/usr/local/bin", "/usr/bin", "/bin"]

def systemFiles : Files :=
  let directories : List Path :=
    [["bin"], ["usr"], ["usr", "bin"], ["usr", "local"], ["usr", "local", "bin"], ["etc"], ["dev"], ["home"],
      ["root"], ["tmp"], ["var"], ["proc"], ["proc", "sys"], ["proc", "sys", "kernel"]]
  ⟨directories.map (fun d => (d, Entry.directory))
    ++ [(["dev", "null"], Entry.void), (lastPidFile, Entry.number 100)]
    ++ programNames.map (fun n => (["bin", n], Entry.program n))
    ++ programNames.map (fun n => (["usr", "bin", n], Entry.program n))⟩

/-- A file that can be run: a program of the system, or a script. -/
inductive Runnable where
  | program (name : String)
  | script (content : List UInt8)

def runnable (m : Machine) (directory : Path) (text : String) : Except FileFault Runnable := do
  match ← m.files.find directory text with
  | (_, .program name) => return .program name
  | (_, .file content true) => return .script content
  | _ => throw .denied

/-- Looks for a name without slashes along the search path. -/
def locate (m : Machine) (name : String) : Option String :=
  (searchPath.map fun d => d ++ "/" ++ name).find? fun text => m.files.exists? [] text

def command (m : Machine) (directory : Path) (name : String) : Except FileFault Runnable :=
  if name.isEmpty then .error .noEntry
  else if name.toList.contains '/' then m.runnable directory name
  else
    match m.locate name with
    | some text => m.runnable [] text
    | none => .error .noEntry

end Machine

end Ensemble.Posix
