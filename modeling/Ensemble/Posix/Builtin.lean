import Ensemble.Posix.Turn

/-!
# Commands of the shell itself
-/

namespace Ensemble.Posix.Builtin

/-- Commands whose errors end the script. -/
def special : List String :=
  [":", "break", "continue", ".", "eval", "exec", "exit", "export", "readonly", "return", "set", "shift",
    "times", "trap", "unset"]

def fail (t : Turn) (name text : String) (status : Nat := 2) : Turn :=
  if name ∈ special then t.abort (name ++ ": " ++ text)
  else (t.complain (name ++ ": " ++ text)).setStatus status

def illegalNumber (s : String) : String := "Illegal number: " ++ s

def emit (t : Turn) (name : String) (bytes : List UInt8) : Turn :=
  if bytes.isEmpty || t.canWrite 1 then (t.setStatus 0).write 1 bytes
  else (t.complain (name ++ ": " ++ name ++ ": I/O error")).setStatus 1

def emitText (t : Turn) (name text : String) : Turn := emit t name (Text.Utf8.encode text)

def illegalOption (flags : List Char) : String := "Illegal option -" ++ String.ofList (flags.take 1)

def printf (t : Turn) (arguments : List String) : Turn :=
  match arguments with
  | [] => fail t "printf" "usage: printf format [arg ...]"
  | "--" :: rest => format t rest
  | s :: rest =>
    match s.toList with
    | '-' :: c :: _ => fail t "printf" (illegalOption [c])
    | _ => format t (s :: rest)
where
  format (t : Turn) : List String → Turn
    | [] => fail t "printf" "usage: printf format [arg ...]"
    | format :: rest =>
      let p := Format.printf format rest
      let t := emit t "printf" p.bytes
      if p.complaints.isEmpty then t
      else (p.complaints.foldl (fun t c => t.complain ("printf: " ++ c)) t).setStatus
        (if p.stops then 2 else 1)

def test (t : Turn) (name : String) (arguments : List String) : Turn :=
  match Condition.evaluate t.machine.files t.self.environment.directory arguments with
  | .ok b => t.setStatus (if b then 0 else 1)
  | .error fault => fail t name fault.message

def bracket (t : Turn) (arguments : List String) : Turn :=
  if arguments.getLast? = some "]" then test t "[" arguments.dropLast else fail t "[" "missing ]"

/-! ## Control -/

def exit (t : Turn) (arguments : List String) : Turn :=
  match arguments with
  | [] => t.finish t.self.environment.status
  | s :: _ =>
    match s.toNat? with
    | some n => t.finish n
    | none => fail t "exit" (illegalNumber s)

def isCall : Frame → Bool
  | .parameters .. => true
  | _ => false

def return_ (t : Turn) (arguments : List String) : Turn :=
  let status := match arguments with
    | [] => t.self.environment.status
    | s :: _ => s.toNat?.getD 2
  (t.unwindTo isCall).setStatus status

def loops (arguments : List String) : Nat := (arguments.head?.bind String.toNat?).getD 1

/-- Outside of loops there is nothing to leave. -/
def break_ (t : Turn) (arguments : List String) : Turn :=
  if t.self.frames.any Turn.isLoop then (t.leaveLoops (loops arguments)).setStatus 0 else t.setStatus 0

def continue_ (t : Turn) (arguments : List String) : Turn :=
  if t.self.frames.any Turn.isLoop then
    ((t.leaveLoops (loops arguments - 1)).unwindTo Turn.isLoop).setStatus 0
  else t.setStatus 0

def eval (t : Turn) (arguments : List String) : Turn :=
  (t.setStatus 0).push [Turn.runs (" ".intercalate arguments)]

def source (t : Turn) (arguments : List String) : Turn :=
  match arguments with
  | [] => t.setStatus 0
  | name :: _ =>
    match t.machine.files.read t.self.environment.directory name with
    | .ok content => (t.setStatus 0).push [Turn.runs (Text.Utf8.decodeLossy content)]
    | .error fault =>
      fail t "." (if name.toList.contains '/' then "cannot open " ++ name ++ ": " ++ Turn.faultWord false fault
        else name ++ ": not found")

/-! ## Directories and variables -/

def cd (t : Turn) (arguments : List String) : Turn :=
  let e := t.self.environment
  let home := (e.value? "HOME").getD ""
  let back := arguments.head? == some "-"
  let target := match arguments with
    | [] => home
    | "-" :: _ => (e.value? "OLDPWD").getD ""
    | s :: _ => s
  match t.machine.files.findDirectory e.directory (if target.isEmpty then "." else target) with
  | .ok p =>
    let old := e.directory.text
    let t := t.setEnvironment { (e.assign "OLDPWD" old).assign "PWD" p.text with directory := p }
    if back then emitText t "cd" (p.text ++ "\n") else t.setStatus 0
  | .error _ => fail t "cd" ("can't cd to " ++ target)

/-- Assigns the value behind an equals sign, if there is one. -/
def declare (e : Environment) (s : String) : String × Environment :=
  let name := String.ofList (s.toList.takeWhile (· != '='))
  match s.toList.dropWhile (· != '=') with
  | _ :: value => (name, e.assign name (String.ofList value))
  | [] => (name, e)

def export_ (t : Turn) (arguments : List String) : Turn :=
  let e := arguments.foldl (fun e s =>
    let (name, e) := declare e s
    e.mark name ({ · with exported := true })) t.self.environment
  (t.setEnvironment e).setStatus 0

def readOnly (t : Turn) (arguments : List String) : Turn :=
  let e := arguments.foldl (fun e s =>
    let (name, e) := declare e s
    e.mark name ({ · with readOnly := true })) t.self.environment
  (t.setEnvironment e).setStatus 0

/-- Remembers what a variable was when the function that runs was called. -/
def remember (old : Option Variable) (name : String) : List Frame → List Frame
  | [] => []
  | .parameters saved locals :: rest =>
    if locals.any (·.1 == name) then .parameters saved locals :: rest
    else .parameters saved ((name, old) :: locals) :: rest
  | f :: rest => f :: remember old name rest

def local_ (t : Turn) (arguments : List String) : Turn :=
  if t.self.frames.any isCall then
    (arguments.foldl (fun t s =>
      let e := t.self.environment
      let (name, changed) := declare e s
      let frames := remember (e.bindings.lookup name) name t.self.frames
      { t with self := { t.self with frames, environment := changed } }) t).setStatus 0
  else fail t "local" "not in a function"

def unset (t : Turn) (arguments : List String) : Turn :=
  let e := arguments.foldl (fun e s =>
    { e.unset s with functions := e.functions.filter fun f => f.1 != s || !arguments.contains "-f" })
    t.self.environment
  (t.setEnvironment e).setStatus 0

def setParameters (t : Turn) (ps : List String) : Turn :=
  t.setEnvironment { t.self.environment with parameters := ps }

def optionNames : List (Char × String) := [
  ('e', "errexit"), ('f', "noglob"), ('I', "ignoreeof"), ('i', "interactive"), ('m', "monitor"),
  ('n', "noexec"), ('s', "stdin"), ('x', "xtrace"), ('v', "verbose"), ('V', "vi"), ('E', "emacs"),
  ('C', "noclobber"), ('a', "allexport"), ('b', "notify"), ('u', "nounset")]

def switch (t : Turn) (on : Bool) (flags : List Char) : Turn :=
  let e := t.self.environment
  let others := e.options.filter (!flags.contains ·)
  t.setEnvironment { e with options := if on then others ++ flags else others }

/-- The options that flags stand for, and whether the next argument names one. -/
def chosen (flags : List Char) (next : Option String) : Except String (List Char × Bool) :=
  match flags, next with
  | ['o'], some name =>
    match optionNames.find? (·.2 == name) with
    | some (c, _) => .ok ([c], true)
    | none => .error ("Illegal option -o " ++ name)
  | _, _ =>
    match flags.find? fun c => c != 'o' && !(optionNames.any (·.1 == c)) with
    | some c => .error (illegalOption [c])
    | none => .ok (flags.filter (· != 'o'), false)

def set (t : Turn) : List String → Turn
  | [] => t.setStatus 0
  | "--" :: rest => (setParameters t rest).setStatus 0
  | s :: rest =>
    if s.startsWith "-" || s.startsWith "+" then
      match chosen (s.toList.drop 1) rest.head? with
      | .error text => fail t "set" text
      | .ok (flags, named) =>
        let t := switch t (s.startsWith "-") flags
        match named, rest with
        | true, _ :: rest => set t rest
        | _, rest => set t rest
    else (setParameters t (s :: rest)).setStatus 0

def shift (t : Turn) (arguments : List String) : Turn :=
  let ps := t.self.environment.parameters
  let n := (arguments.head?.bind String.toNat?).getD 1
  if ps.length < n then fail t "shift" "can't shift that many"
  else (setParameters t (ps.drop n)).setStatus 0

/-- The names of variables share out the words of a line; the last takes the rest. -/
def share (separators : List Char) (e : Environment) (names : List String) (line : List Char) :
    Environment :=
  match names with
  | [] => e
  | [name] =>
    let kept := (line.dropWhile isBlank).reverse.dropWhile isBlank
    e.assign name (String.ofList kept.reverse)
  | name :: rest =>
    let line := line.dropWhile isBlank
    let word := line.takeWhile (!separators.contains ·)
    let behind := (line.drop word.length).dropWhile isBlank
    let behind := match behind with
      | c :: r => if separators.contains c then r else behind
      | [] => []
    share separators (e.assign name (String.ofList word)) rest behind
where
  isBlank (c : Char) : Bool := Expansion.Fields.isBlank c && separators.contains c

/-- Backslashes take the meaning from what follows, unless the line is raw. -/
def unescapeLine : List Char → List Char
  | '\\' :: c :: rest => c :: unescapeLine rest
  | c :: rest => c :: unescapeLine rest
  | [] => []

def read (t : Turn) (separators : List Char) (arguments : List String) : Turn :=
  let raw := arguments.contains "-r"
  let names := arguments.filter fun a => !a.startsWith "-"
  if names.isEmpty then fail t "read" "arg count" else
  let (bytes, _) := t.available 0
  let line := bytes.takeWhile (· != 10)
  let complete := line.length < bytes.length
  let t := t.consume 0 (if complete then line.length + 1 else line.length)
  let text := (Text.Utf8.decodeLossy line).toList
  let text := if raw then text else unescapeLine text
  let e := t.self.environment
  (t.setEnvironment (share separators e names text)).setStatus (if complete then 0 else 1)

/-! ## Signals -/

/-- The number of a signal that is given by number or by name; zero stands for the end. -/
def signal? (s : String) : Option Nat :=
  match s.toNat? with
  | some n => if n ≤ 64 then some n else none
  | none =>
    if s = "EXIT" then some 0
    else (Jobs.signalNames.find? fun e => e.1 != 16 && e.2 == s.toUpper).map (·.1)

def setTrap (e : Environment) (action : Option String) (signal : Nat) : Environment :=
  let rest := e.traps.filter fun a => a.1 != signal
  { e with traps := rest ++ (action.map fun a => (signal, a)).toList }

def trap (t : Turn) (arguments : List String) : Turn :=
  let (action, names) : Option String × List String := match arguments with
    | [] => (none, [])
    | "-" :: rest => (none, rest)
    | [s] => (none, [s])
    | s :: rest => if (s.toNat?).isSome then (none, s :: rest) else (some s, rest)
  names.foldl (fun t s =>
    match signal? s with
    | some n => t.setEnvironment (setTrap t.self.environment action n)
    | none => (t.write 2 (Text.Utf8.encode s!"trap: {s}: bad trap\n")).setStatus 1) (t.setStatus 0)

/-- Sends a signal to one process, or to a group behind a minus sign. -/
def send (t : Turn) (signal : Nat) (target : String) : Turn :=
  match Arithmetic.number? target with
  | none => fail t "kill" (illegalNumber target)
  | some n =>
    let group := if n = 0 then t.self.group else n.natAbs
    let reached (p : Proc) : Bool :=
      p.exit.isNone && if n ≤ 0 then p.group == group else p.pid == group
    if !reached t.self && !t.machine.processes.any reached then fail t "kill" "No such process\n" 1
    else if signal = 0 then t
    else
      let affect (p : Proc) := if reached p then Machine.affect signal t.self.time p else p
      { t with machine := { t.machine with processes := t.machine.processes.map affect }
               self := affect t.self }

def kill (t : Turn) (arguments : List String) : Turn :=
  let all (signal : Nat) (targets : List String) := targets.foldl (send · signal) (t.setStatus 0)
  let usage := "Usage: kill [-s sigspec | -signum | -sigspec] [pid | job]... or\nkill -l [exitstatus]"
  match arguments with
  | "-l" :: s :: _ =>
    match (signal? s).bind fun n => Jobs.signalNames.lookup (n % 128) with
    | some name => emitText t "kill" (name ++ "\n")
    | none => fail t "kill" (illegalNumber s)
  | "-s" :: s :: targets =>
    match signal? s with
    | some n => all n targets
    | none => fail t "kill" ("invalid signal number or name: " ++ s)
  | "--" :: targets => all 15 targets
  | s :: targets =>
    match s.toList with
    | '-' :: name =>
      match signal? (String.ofList name) with
      | some n => if targets.isEmpty then fail t "kill" usage else all n targets
      | none => fail t "kill" ("Illegal option -" ++ String.ofList (name.take 1))
    | _ => all 15 (s :: targets)
  | [] => fail t "kill" usage

def wait (t : Turn) (arguments : List String) : Turn :=
  let children := (t.machine.processes.filter fun p => p.parent == t.self.pid).map (·.pid)
  match arguments.filterMap String.toNat? with
  | [] => (t.setStatus 0).push [.await children, .status 0]
  | pids =>
    if pids.all children.contains then (t.setStatus 0).push [.await pids]
    else t.setStatus 127

/-! ## The table -/

def names : List String :=
  [":", "true", "false", "echo", "printf", "test", "[", "exit", "return", "break", "continue", "eval", ".",
    "cd", "chdir", "pwd", "export", "readonly", "local", "unset", "set", "shift", "trap", "kill", "wait",
    "umask", "ulimit", "hash", "times", "jobs", "alias", "unalias", "read", "command", "type", "exec"]

def keywords : List String :=
  ["!", "case", "do", "done", "elif", "else", "esac", "fi", "for", "if", "in", "then", "until", "while",
    "\x7b", "\x7d"]

def describe (t : Turn) (name : String) : Option String :=
  if name ∈ names || name ∈ keywords || (t.self.environment.functions.lookup name).isSome then some name
  else t.machine.locate name

def kindOf (t : Turn) (name : String) : Option String :=
  if name ∈ keywords then some " is a shell keyword"
  else if (t.self.environment.functions.lookup name).isSome then some " is a shell function"
  else if name ∈ special then some " is a special shell builtin"
  else if name ∈ names then some " is a shell builtin"
  else (t.machine.locate name).map (" is " ++ ·)

def type (t : Turn) (arguments : List String) : Turn :=
  let lines := arguments.map fun name => name ++ (kindOf t name).getD ": not found" ++ "\n"
  let t := emitText t "type" (String.join lines)
  if arguments.all fun name => (kindOf t name).isSome then t else t.setStatus 127

def commandPath (t : Turn) (arguments : List String) : Turn :=
  match arguments.findSome? (describe t) with
  | some text => emitText t "command" (text ++ "\n")
  | none => t.setStatus 127

/-- A command that is done at once, or that pushes what is left to do. -/
def run? (name : String) : Option (Turn → List String → Turn) :=
  match name with
  | ":" => some fun t _ => t.setStatus 0
  | "true" => some fun t _ => t.setStatus 0
  | "false" => some fun t _ => t.setStatus 1
  | "echo" => some fun t arguments => emit t "echo" (Format.echo true arguments)
  | "printf" => some printf
  | "test" => some fun t arguments => test t "test" arguments
  | "[" => some bracket
  | "exit" => some exit
  | "return" => some return_
  | "break" => some break_
  | "continue" => some continue_
  | "eval" => some eval
  | "." => some source
  | "cd" => some cd
  | "chdir" => some cd
  | "pwd" => some fun t _ => emitText t "pwd" (t.self.environment.directory.text ++ "\n")
  | "export" => some export_
  | "readonly" => some readOnly
  | "local" => some local_
  | "unset" => some unset
  | "set" => some set
  | "shift" => some shift
  | "trap" => some trap
  | "kill" => some kill
  | "wait" => some wait
  | "type" => some type
  | "umask" => some fun t arguments =>
    if arguments.isEmpty then emitText t "umask" "0022\n" else t.setStatus 0
  | "ulimit" => some fun t _ => t.setStatus 0
  | "hash" => some fun t _ => t.setStatus 0
  | "times" => some fun t _ => t.setStatus 0
  | "jobs" => some fun t _ => t.setStatus 0
  | "alias" => some fun t _ => t.setStatus 0
  | "unalias" => some fun t _ => t.setStatus 0
  | _ => none

end Ensemble.Posix.Builtin
