import Ensemble.Posix.Machine
import Ensemble.Posix.Reader

/-!
# What a process does to its machine

A turn is a machine and one of its processes taken out of it. The process is put back when the
turn is over.
-/

namespace Ensemble.Posix

open Jobs (Exit)

structure Turn where
  machine : Machine
  self : Proc

namespace Turn

def yield (t : Turn) : Machine := t.machine.put t.self

def setStatus (t : Turn) (n : Nat) : Turn :=
  { t with self := { t.self with environment := { t.self.environment with status := n } } }

def setEnvironment (t : Turn) (e : Environment) : Turn := { t with self := { t.self with environment := e } }

def setFiles (t : Turn) (files : Files) : Turn := { t with machine := { t.machine with files } }

def setDescriptors (t : Turn) (ds : Descriptors) : Turn :=
  { t with self := { t.self with descriptors := ds } }

def push (t : Turn) (fs : List Frame) : Turn :=
  { t with self := { t.self with frames := fs ++ t.self.frames } }

def spend (t : Turn) (time : Nat) : Turn := { t with self := { t.self with time := t.self.time + time } }

/-- Comes back to a frame when there is more to go on with. -/
def waitFor (t : Turn) (w : Wait) (f : Frame) : Turn :=
  { t with self := { t.self with wait := some w, frames := f :: t.self.frames } }

def die (t : Turn) (e : Exit) : Turn := { t with self := Machine.ended t.self e t.self.time }

def raise (t : Turn) (signal : Nat) : Turn :=
  { t with self := Machine.affect signal t.self.time t.self }

/-- Writing to a pipe that nobody reads is a signal. -/
def write (t : Turn) (descriptor : Nat) (bytes : List UInt8) : Turn :=
  if bytes.isEmpty then t
  else
    match t.self.descriptors.lookup descriptor with
    | some (.sink k) =>
      if t.machine.hasReader k || t.self.handles.contains (.source k) then
        { t with machine := t.machine.setContent k (t.machine.content k ++ bytes) }
      else t.raise 13
    | some (.writing p) => t.setFiles (t.machine.files.append p bytes)
    | _ => t

def canWrite (t : Turn) (descriptor : Nat) : Bool :=
  match t.self.descriptors.lookup descriptor with
  | some (.sink _) => true
  | some (.writing _) => true
  | some .void => true
  | _ => false

def complainAt (t : Turn) (line : Nat) (text : String) : Turn :=
  t.write 2 (Text.Utf8.encode s!"{t.self.environment.name}: {line}: {text}\n")

def complain (t : Turn) (text : String) : Turn := t.complainAt t.self.line text

/-- What a child inherits of the actions for signals: only that some are ignored. -/
def inherited (e : Environment) : Environment := { e with traps := e.traps.filter (·.2.isEmpty) }

def fork (t : Turn) (frames : List Frame) (descriptors : Descriptors) : Nat × Turn :=
  let pid := t.machine.nextPid
  let child : Proc := { t.self with
    pid, parent := t.self.pid, time := t.self.time + 300, frames, descriptors, pending := [],
    wait := none, environment := inherited t.self.environment }
  (pid, { t with machine := t.machine.enlist child })

def runs (s : String) : Frame :=
  let (ss, fault) := readScript s
  .program ss fault

/-- The script is at its end. The action for the end runs first. -/
def finish (t : Turn) (n : Nat) : Turn :=
  let e := t.self.environment
  match e.traps.lookup 0 with
  | none => t.die (.exited (n % 256))
  | some action =>
    let e := { e with traps := e.traps.filter (fun a => a.1 != 0), status := n % 256 }
    { t with self := { t.self with environment := e, frames := [runs action, .finish n] } }

def abort (t : Turn) (text : String) : Turn := (t.complain text).finish 2

/-- Leaves frames behind as long as `keep` says; descriptors are restored on the way. -/
def unwind (stop : Frame → Bool) (p : Proc) : List Frame → Proc
  | [] => { p with frames := [] }
  | f :: rest =>
    if stop f then { p with frames := f :: rest }
    else
      match f with
      | .descriptors saved => unwind stop { p with descriptors := saved } rest
      | _ => unwind stop p rest

def unwindTo (t : Turn) (stop : Frame → Bool) : Turn := { t with self := unwind stop t.self t.self.frames }

def isLoop : Frame → Bool
  | .condition .. => true
  | .again .. => true
  | .each .. => true
  | _ => false

def leaveLoops (t : Turn) : Nat → Turn
  | 0 => t
  | n + 1 =>
    let t := t.unwindTo isLoop
    leaveLoops { t with self := { t.self with frames := t.self.frames.tail } } n

def isConditional : Frame → Bool
  | .decide .. => true
  | .join .. => true
  | .invert => true
  | .condition .. => true
  | _ => false

def settle (t : Turn) : Turn :=
  if t.self.environment.has 'e' && t.self.environment.status != 0 && t.self.exit.isNone
      && !t.self.frames.any isConditional then
    t.finish t.self.environment.status
  else t

/-! ## Redirections -/

def faultWord (create : Bool) : FileFault → String
  | .noEntry => if create then "Directory nonexistent" else "No such file"
  | .notDirectory => if create then "Directory nonexistent" else "No such file"
  | f => f.message

/-- A descriptor is replaced by another handle, or closed. -/
def assignHandle (ds : Descriptors) (n : Nat) (h : Option Handle) : Descriptors :=
  ds.filter (fun d => d.1 != n) ++ (h.map fun h => (n, h)).toList

def openHandle (t : Turn) (direction : Direction) (target : String) (ds : Descriptors) :
    Except String (Option Handle × Turn) :=
  let directory := t.self.environment.directory
  match direction with
  | .read =>
    match t.machine.files.find directory target with
    | .ok (_, .void) => .ok (some .void, t)
    | .ok (p, _) => .ok (some (.reading p 0), t)
    | .error fault => .error ("cannot open " ++ target ++ ": " ++ faultWord false fault)
  | .duplicate =>
    if target = "-" then .ok (none, t)
    else
      match target.toNat? with
      | none => .error "Bad fd number"
      | some n =>
        match ds.lookup n with
        | some h => .ok (some h, t)
        | none => .error (target ++ ": Bad file descriptor")
  | .here =>
    let (k, machine) := t.machine.newPipe
    .ok (some (.source k), { t with machine := machine.setContent k (Text.Utf8.encode target) })
  | direction =>
    if target = "/dev/stdout" then .ok (ds.lookup 1, t)
    else if target = "/dev/stderr" then .ok (ds.lookup 2, t)
    else
      match t.machine.files.openToWrite directory target (direction = .append) with
      | .error fault => .error ("cannot create " ++ target ++ ": " ++ faultWord true fault)
      | .ok (p, files) =>
        .ok (some (if files.get? p = some .void then .void else .writing p), t.setFiles files)

def redirect (t : Turn) (ds : Descriptors) : List Redirection → Except String (Descriptors × Turn)
  | [] => .ok (ds, t)
  | r :: rest =>
    match Expansion.single t.self.environment r.target with
    | .error fault => .error fault.message
    | .ok (target, e) =>
      match openHandle (t.setEnvironment e) r.direction target ds with
      | .error text => .error text
      | .ok (h, t) => redirect t (assignHandle ds r.descriptor h) rest

/-! ## Input -/

/-- What can be read now, and whether more may come. -/
def available (t : Turn) (descriptor : Nat) : List UInt8 × Bool :=
  match t.self.descriptors.lookup descriptor with
  | some (.source k) => (t.machine.content k, (t.machine.put t.self).hasWriter k)
  | some (.reading p offset) =>
    match t.machine.files.get? p with
    | some e => (e.content.drop offset, false)
    | none => ([], false)
  | _ => ([], false)

def consume (t : Turn) (descriptor count : Nat) : Turn :=
  match t.self.descriptors.lookup descriptor with
  | some (.source k) => { t with machine := t.machine.setContent k ((t.machine.content k).drop count) }
  | some (.reading p offset) =>
    t.setDescriptors (assignHandle t.self.descriptors descriptor (some (.reading p (offset + count))))
  | _ => t

def pipeOf (t : Turn) (descriptor : Nat) : Option Nat :=
  match t.self.descriptors.lookup descriptor with
  | some (.source k) => some k
  | _ => none

end Turn

end Ensemble.Posix
