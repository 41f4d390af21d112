import Ensemble.Posix.Builtin

/-!
# Steps of a script

A process takes the uppermost of its frames and does one thing with it, or finds that it has to
wait and comes back to the frame later.
-/

namespace Ensemble.Posix

open Jobs (Exit)

/-! ## Substitutions of output -/

/-- The first source in a word whose output is not known yet. -/
def Word.output? (w : Word) : Option String :=
  w.findSome? fun
    | .output source _ => some source
    | _ => none

def wordsOutput? (ws : List Word) : Option String := ws.findSome? Word.output?

def Word.fill (text : String) : Word → Word
  | [] => []
  | .output _ quoted :: rest => .value text quoted :: rest
  | p :: rest => p :: Word.fill text rest

def fillWords (text : String) : List Word → List Word
  | [] => []
  | w :: rest => if w.output?.isSome then w.fill text :: rest else w :: fillWords text rest

def fillRedirections (text : String) : List Redirection → List Redirection
  | [] => []
  | r :: rest =>
    if r.target.output?.isSome then { r with target := r.target.fill text } :: rest
    else r :: fillRedirections text rest

def fillAssignments (text : String) : List (String × Word) → List (String × Word)
  | [] => []
  | a :: rest =>
    if a.2.output?.isSome then (a.1, a.2.fill text) :: rest else a :: fillAssignments text rest

def redirectionsOutput? (rs : List Redirection) : Option String := rs.findSome? (·.target.output?)

def assignmentsOutput? (xs : List (String × Word)) : Option String := xs.findSome? (·.2.output?)

namespace Script

def output? : Script → Option String
  | .simple _ xs ws rs => (wordsOutput? ws).or ((redirectionsOutput? rs).or (assignmentsOutput? xs))
  | .redirected _ rs => redirectionsOutput? rs
  | .each _ _ ws _ => wordsOutput? ws
  | .select subject _ => subject.output?
  | _ => none

def fill (text : String) : Script → Script
  | .simple line xs ws rs =>
    if (wordsOutput? ws).isSome then .simple line xs (fillWords text ws) rs
    else if (redirectionsOutput? rs).isSome then .simple line xs ws (fillRedirections text rs)
    else .simple line (fillAssignments text xs) ws rs
  | .redirected body rs => .redirected body (fillRedirections text rs)
  | .each name given ws body => .each name given (fillWords text ws) body
  | .select subject arms => .select (subject.fill text) arms
  | s => s

def literal (line : Nat) (assignments : List (String × String)) (words : List String) : Script :=
  .simple line (assignments.map fun a => (a.1, [.text a.2 true])) (words.map fun w => [.text w true]) []

end Script

def dropLineEnds (s : String) : String :=
  String.ofList (s.toList.reverse.dropWhile (· == '\n')).reverse

namespace Turn

/-! ## Programs -/

/-- What a shell is asked to do: its environment and frames, or what is wrong. -/
def shellStart (t : Turn) (program : String) (e : Environment) :
    List String → Except String (Environment × List Frame)
  | [] =>
    .ok ({ e with name := program },
      [.run (.simple 1 [] [[.text "eval" true], [.output "cat" true]] [])])
  | option :: rest =>
    match option.toList with
    | '-' :: flags =>
      if flags.contains 'c' then
        match rest with
        | [] => .error "-c requires an argument"
        | text :: more =>
          let options := e.options ++ flags.filter (· != 'c')
          .ok ({ e with name := more.head?.getD program, parameters := more.drop 1, options },
            [Turn.runs text])
      else shellStart t program { e with options := e.options ++ flags } rest
    | _ =>
      match t.machine.files.read e.directory option with
      | .ok content =>
        .ok ({ e with name := option, parameters := rest },
          [Turn.runs (Text.Utf8.decodeLossy content)])
      | .error fault => .error ("cannot open " ++ option ++ ": " ++ faultWord false fault)

/-- A new shell knows what was exported, and nothing else. -/
def freshEnvironment (e : Environment) (more : List (String × String)) : Environment :=
  let more := more ++ if (more.lookup "PWD").isSome then [] else [("PWD", e.directory.text)]
  let exported := e.exported.filter fun v => (more.lookup v.1).isNone
  { inherited e with
    bindings := (exported ++ more).map (fun v => (v.1, ⟨v.2, true, false⟩)), functions := []
    parameters := [], status := 0, lastDetached := none, options := [] }

def becomeShell (t : Turn) (program : String) (arguments : List String) (more : List (String × String)) :
    Turn :=
  let e := { freshEnvironment t.self.environment more with pid := t.self.pid, name := program }
  match shellStart t program e arguments with
  | .ok (e, frames) => { t with self := { t.self with environment := e, frames, line := 1 } }
  | .error text =>
    let t := (t.setEnvironment e).complainAt 0 text
    { t with self := { t.self with frames := [.finish 2] } }

def runShell (t : Turn) (program : String) (arguments : List String) (more : List (String × String)) :
    Turn :=
  let (pid, t) := t.fork [] t.self.descriptors
  match t.machine.process? pid with
  | none => t
  | some child =>
    let c := Turn.becomeShell ⟨t.machine, child⟩ program arguments more
    { t with machine := c.yield }.push [.await [pid]]

/-- A time in seconds, or another unit that follows it, in microseconds. -/
def duration? (s : String) : Option Nat :=
  let cs := s.toList
  let (number, unit) := match cs.getLast? with
    | some 's' => (cs.dropLast, 1)
    | some 'm' => (cs.dropLast, 60)
    | some 'h' => (cs.dropLast, 3600)
    | some 'd' => (cs.dropLast, 86400)
    | _ => (cs, 1)
  (Format.decimal? number).bind fun (n, scale) =>
    if n < 0 then none else some (n.toNat * unit * 1000000 / Nat.pow 10 scale)

def sleep (t : Turn) (arguments : List String) : Turn :=
  match arguments with
  | [] => refuse "missing operand"
  | xs =>
    match xs.find? fun s => (duration? s).isNone with
    | some s =>
      match s.toList with
      | '-' :: c :: _ => refuse ("invalid option -- '" ++ String.singleton c ++ "'")
      | _ => refuse ("invalid time interval '" ++ s ++ "'")
    | none =>
      let t := (t.setStatus 0).spend ((xs.filterMap duration?).foldl (· + ·) 0)
      { t with self := { t.self with wait := some .time } }
where
  refuse (text : String) : Turn :=
    (t.write 2 (Text.Utf8.encode
      ("sleep: " ++ text ++ "\nTry 'sleep --help' for more information.\n"))).setStatus 1

def manyLines (s : String) : List UInt8 := (List.replicate 512 (Text.Utf8.encode (s ++ "\n"))).flatten

def runUtility (t : Turn) (name : String) (arguments : List String)
    (assignments : List (String × String)) : Turn :=
  match Utility.table.lookup name with
  | none => t.setStatus 127
  | some utility =>
    let (input, more) := if Utility.readsInput name arguments then t.available 0 else ([], false)
    match t.pipeOf 0 with
    | some k =>
      if more && !Utility.isSated name arguments input then
        t.waitFor (.input k name arguments) (.run (.literal t.self.line assignments (name :: arguments)))
      else reply t utility input
    | none => reply t utility input
where
  reply (t : Turn) (utility : Utility.Call → Utility.Reply) (input : List UInt8) : Turn :=
    let e := t.self.environment
    let r := utility {
      name, arguments, input, directory := e.directory, files := t.machine.files
      environment := (e.exported.filter fun v => (assignments.lookup v.1).isNone) ++ assignments }
    let t := ((t.consume 0 input.length).setFiles r.files).setStatus r.status
    let t := if t.canWrite 1 || r.stdout.isEmpty then t.write 1 r.stdout
      else (t.write 2 (Text.Utf8.encode (name ++ ": write error: Bad file descriptor\n"))).setStatus 1
    t.write 2 r.stderr

def splitSettings (words : List String) : List (String × String) × List String :=
  let isSetting (s : String) := Lexer.isName (s.toList.takeWhile (· != '=')) && s.toList.contains '='
  ((words.takeWhile isSetting).map fun s =>
      (String.ofList (s.toList.takeWhile (· != '=')), String.ofList ((s.toList.dropWhile (· != '=')).drop 1)),
    words.dropWhile isSetting)

def notFound : FileFault → String × Nat
  | .noEntry => (": not found", 127)
  | .notDirectory => (": not found", 127)
  | _ => (": Permission denied", 126)

def runProgram (t : Turn) (name : String) (arguments : List String)
    (assignments : List (String × String)) : Turn :=
  match t.machine.command t.self.environment.directory name with
  | .error fault =>
    let (text, status) := notFound fault
    (t.complain (name ++ text)).setStatus status
  | .ok (.script content) =>
    t.runShell name (["-c", Text.Utf8.decodeLossy content, name] ++ arguments) assignments
  | .ok (.program program) =>
    let t := t.spend 500
    if program ∈ Machine.shells then t.runShell name arguments assignments
    else if program = "sleep" then t.sleep arguments
    else if program = "yes" then
      (t.write 1 (manyLines (if arguments.isEmpty then "y" else " ".intercalate arguments))).push
        [.run (.literal t.self.line assignments (name :: arguments))]
    else if program = "kill" then Builtin.kill t arguments
    else if program = "which" then
      let found := arguments.filterMap t.machine.locate
      (t.write 1 (Text.Utf8.encode (String.join (found.map (· ++ "\n"))))).setStatus
        (if found.length = arguments.length then 0 else 1)
    else if program = "nohup" || program = "setsid" then
      t.push [.run (.literal t.self.line assignments arguments)]
    else if program = "env" then
      let (settings, words) := splitSettings arguments
      if words.isEmpty then t.runUtility "env" [] (assignments ++ settings)
      else t.push [.run (.literal t.self.line (assignments ++ settings) words)]
    else t.runUtility program arguments assignments

def assignAll (e : Environment) (xs : List (String × String)) : Environment :=
  xs.foldl (fun e a => e.assign a.1 a.2) e

/-- Runs a command of which everything is known, with its redirections done. -/
def runWords (t : Turn) (assignments : List (String × String)) (words : List String) : Turn :=
  match words with
  | [] => t
  | name :: arguments =>
    match t.self.environment.functions.lookup name with
    | some body =>
      let saved := t.self.environment.parameters
      let t := t.setEnvironment (assignAll t.self.environment assignments)
      (Builtin.setParameters t arguments).push [.run body, .parameters saved []]
    | none =>
      if name = "read" then
        let separators := match assignments.lookup "IFS" with
          | some s => s.toList
          | none => t.self.environment.separators
        let (bytes, more) := t.available 0
        match t.pipeOf 0 with
        | some k =>
          if more && !bytes.contains 10 then
            t.waitFor (.input k name arguments) (.run (.literal t.self.line assignments words))
          else Builtin.read t separators arguments
        | none => Builtin.read t separators arguments
      else if name = "command" then
        match arguments with
        | "-v" :: rest => Builtin.commandPath t rest
        | "-V" :: rest => Builtin.type t rest
        | rest => t.push [.run (.literal t.self.line assignments rest)]
      else if name = "exec" then
        match t.machine.command t.self.environment.directory (arguments.head?.getD "") with
        | .ok _ =>
          { t with self := { t.self with
            frames := [.run (.literal t.self.line assignments arguments)]
            environment := inherited t.self.environment } }
        | .error fault =>
          let (text, status) := notFound fault
          (t.complain ("exec: " ++ arguments.head?.getD "" ++ text)).finish status
      else
        match Builtin.run? name with
        | some builtin =>
          let t := if name ∈ Builtin.special then
            t.setEnvironment (assignAll t.self.environment assignments) else t
          builtin t arguments
        | none => t.runProgram name arguments assignments

/-- The values of assignments, each seeing the ones before it. -/
def assignmentValues (e : Environment) :
    List (String × Word) → Except Expansion.Fault (List (String × String) × Environment)
  | [] => .ok ([], e)
  | (name, w) :: rest => do
    let (value, e) ← Expansion.single e w
    if e.isReadOnly name then throw (.parameter name "is read only")
    let (more, e) ← assignmentValues (e.assign name value) rest
    return ((name, value) :: more, e)

def hasValue (xs : List (String × Word)) : Bool :=
  xs.any fun a => a.2.any fun
    | .value _ _ => true
    | _ => false

/-- Shows a command before it runs, when that is asked for. -/
def trace (t : Turn) (assignments : List (String × String)) (words : List String) : Turn :=
  let shown := assignments.map (fun a => a.1 ++ "=" ++ a.2) ++ words
  if t.self.environment.has 'x' && !shown.isEmpty then
    t.write 2 (Text.Utf8.encode ("+ " ++ " ".intercalate shown ++ "\n"))
  else t

/-- A command without words: assignments stay, redirections do not. -/
def runBare (t : Turn) (xs : List (String × Word)) (rs : List Redirection) : Turn :=
  match assignmentValues t.self.environment xs with
  | .error fault => t.abort fault.message
  | .ok (assignments, e) =>
    let t := (t.trace assignments []).setEnvironment e
    match t.redirect t.self.descriptors rs with
    | .error text => (t.complain text).setStatus 2
    | .ok (_, t) => if hasValue xs then t else t.setStatus 0

def runSimple (t : Turn) (line : Nat) (xs : List (String × Word)) (ws : List Word)
    (rs : List Redirection) : Turn :=
  let t := { t with self := { t.self with line } }
  match Expansion.fields t.machine.files t.self.environment ws with
  | .error fault => t.abort fault.message
  | .ok ([], e) => runBare (t.setEnvironment e) xs rs
  | .ok (name :: arguments, e) =>
    match assignmentValues e xs with
    | .error fault => t.abort fault.message
    | .ok (assignments, _) =>
      let t := (t.trace assignments (name :: arguments)).setEnvironment e
      let old := t.self.descriptors
      match t.redirect old rs with
      | .error text =>
        if name ∈ Builtin.special then t.abort text else (t.complain text).setStatus 2
      | .ok (ds, t) =>
        if name = "exec" ∧ arguments.isEmpty then (t.setDescriptors ds).setStatus 0
        else if rs.isEmpty then t.runWords assignments (name :: arguments)
        else ((t.push [.descriptors old]).setDescriptors ds).runWords assignments (name :: arguments)

/-! ## Compound commands -/

/-- The body of the first arm with a pattern that the text has the form of. -/
def armOf (e : Environment) (text : String) : Script → Option Script
  | .arm ps body others =>
    let fits (w : Word) := match Expansion.pattern e w with
      | .ok (p, _) => Pattern.accepts p text.toList
      | .error _ => false
    if ps.any fits then some body else armOf e text others
  | _ => none

def runPipe (t : Turn) (a b : Script) : Turn :=
  let (k, machine) := t.machine.newPipe
  let t := { t with machine }
  let ds := t.self.descriptors
  let (p, t) := t.fork [.run a] (assignHandle ds 1 (some (.sink k)))
  let (q, t) := t.fork [.run b] (assignHandle ds 0 (some (.source k)))
  t.push [.await [p, q]]

/-- Starts a child whose output goes into a script. -/
def substitute (t : Turn) (source : String) (s : Script) : Turn :=
  let (k, machine) := t.machine.newPipe
  let t := { t with machine }
  let (child, t) := t.fork [runs source] (assignHandle t.self.descriptors 1 (some (.sink k)))
  t.push [.collect k child s]

def runScript (t : Turn) (s : Script) : Turn :=
  match s.output? with
  | some source => t.substitute source s
  | none =>
    match s with
    | .empty => t.setStatus 0
    | .simple line xs ws rs => t.runSimple line xs ws rs
    | .sequence a b => t.push [.run a, .run b]
    | .both a b => t.push [.run a, .join true b]
    | .either a b => t.push [.run a, .join false b]
    | .not a => t.push [.run a, .invert]
    | .pipe a b => t.runPipe a b
    | .detached a =>
      let (pid, t) := t.fork [.run a] (assignHandle t.self.descriptors 0 (some .void))
      (t.setEnvironment { t.self.environment with lastDetached := some pid }).setStatus 0
    | .subshell a =>
      let (pid, t) := t.fork [.run a] t.self.descriptors
      t.push [.await [pid]]
    | .redirected a rs =>
      let old := t.self.descriptors
      match t.redirect old rs with
      | .error text => (t.complain text).setStatus 2
      | .ok (ds, t) => (t.push [.run a, .descriptors old]).setDescriptors ds
    | .choice c yes no => t.push [.run c, .decide yes no]
    | .repeat_ until_ c body => t.push [.run c, .condition until_ c body 0]
    | .each name given ws body =>
      if !given then (t.setStatus 0).push [.each name t.self.environment.parameters body]
      else
        match Expansion.fields t.machine.files t.self.environment ws with
        | .error fault => t.abort fault.message
        | .ok (values, e) => ((t.setEnvironment e).setStatus 0).push [.each name values body]
    | .select subject arms =>
      match Expansion.single t.self.environment subject with
      | .error fault => t.abort fault.message
      | .ok (text, e) =>
        let t := (t.setEnvironment e).setStatus 0
        match armOf e text arms with
        | some body => t.push [.run body]
        | none => t
    | .arm .. => t
    | .define name body =>
      let e := t.self.environment
      (t.setEnvironment { e with
        functions := (name, body) :: e.functions.filter fun f => f.1 != name }).setStatus 0

/-! ## Frames -/

def statusOf : Exit → Nat
  | .exited n => n
  | .signalled n _ => 128 + n

/-- Takes over the end of the last of some children. -/
def afterChildren (t : Turn) (children : List Nat) (f : Frame) : Turn :=
  let found := children.filterMap t.machine.process?
  if found.any (·.exit.isNone) then t.waitFor (.children children) f
  else
    let time := found.foldl (fun n p => max n p.time) t.self.time
    let last := children.getLast?.bind t.machine.process?
    let t := { t with
      machine := { t.machine with
        processes := t.machine.processes.filter fun p => !children.contains p.pid }
      self := { t.self with time } }
    match last.bind (·.exit) with
    | none => t
    | some e =>
      let t := t.setStatus (statusOf e)
      match e with
      | .signalled n dumped =>
        match Machine.lastWords.lookup n with
        | some words =>
          let words := if dumped then words ++ " (core dumped)" else words
          t.write 2 (Text.Utf8.encode (words ++ "\n"))
        | none => t
      | .exited _ => t

def runFrame (t : Turn) (f : Frame) : Turn :=
  let status := t.self.environment.status
  match f with
  | .run s =>
    let after := t.runScript s
    if t.self.frames.length < after.self.frames.length then after else after.settle
  | .program [] none => t
  | .program [] (some (fault, line)) =>
    (t.complainAt line ("Syntax error: " ++ fault.message)).finish 2
  | .program (s :: rest) fault => t.push [.run s, .program rest fault]
  | .decide yes no =>
    if status = 0 then t.push [.run yes] else (t.setStatus 0).push [.run no]
  | .join success s => if success == (status == 0) then t.push [.run s] else t
  | .invert => t.setStatus (if status = 0 then 1 else 0)
  | .condition until_ c body last =>
    if (status == 0) != until_ then t.push [.run body, .again until_ c body] else t.setStatus last
  | .again until_ c body => t.push [.run c, .condition until_ c body status]
  | .each _ [] _ => t
  | .each name (v :: vs) body =>
    (t.setEnvironment (t.self.environment.assign name v)).push [.run body, .each name vs body]
  | .descriptors saved => (t.setDescriptors saved).settle
  | .parameters saved locals =>
    let t := Builtin.setParameters t saved
    (t.setEnvironment (locals.foldl (fun e v => e.restore v.1 v.2) t.self.environment)).settle
  | .await children => (t.afterChildren children f).settle
  | .collect k child s =>
    if t.machine.hasWriter k then t.waitFor (.input k "" []) f
    else
      match t.machine.process? child with
      | some c =>
        match c.exit with
        | none => t.waitFor (.children [child]) f
        | some e =>
          let text := dropLineEnds (Text.Utf8.decodeLossy ((t.machine.content k).filter (· != 0)))
          let t := { t with
            machine := { t.machine with
              processes := t.machine.processes.filter fun p => p.pid != child
              pipes := t.machine.pipes.filter fun p => p.1 != k }
            self := { t.self with time := max t.self.time c.time } }
          (t.setStatus (statusOf e)).push [.run (s.fill text)]
      | none => t
  | .status n => t.setStatus n
  | .finish n => t.finish n

/-- One step of a process. Actions for signals come first, except that children are waited for. -/
def step (t : Turn) : Turn :=
  let t := { t with self := { t.self with wait := none } }.spend 20
  match t.self.pending, t.self.frames with
  | _, .await children :: rest =>
    { t with self := { t.self with frames := rest } }.runFrame (.await children)
  | signal :: more, frames =>
    let action := (t.self.environment.traps.lookup signal).getD ""
    { t with self := { t.self with
      pending := more, frames := runs action :: .status t.self.environment.status :: frames } }
  | [], [] => t.finish t.self.environment.status
  | [], f :: rest => { t with self := { t.self with frames := rest } }.runFrame f

end Turn

/-! ## The clock -/

namespace Machine

/-- When a process can take its next step, if it can without anybody else. -/
def readyAt (m : Machine) (p : Proc) : Option Nat :=
  if p.exit.isSome then none
  else
    match p.wait with
    | none => some p.time
    | some .time => some p.time
    | some .stopped => none
    | some (.children pids) =>
      if (pids.filterMap m.process?).any (·.exit.isNone) then none else some (max p.time m.now)
    | some (.input k name arguments) =>
      let content := m.content k
      let enough := !m.hasWriter k || Utility.isSated name arguments content
        || (name == "read" && content.contains 10)
      if enough then some (max p.time m.now) else none

def next? (m : Machine) : Option (Nat × Proc) :=
  m.processes.foldl (fun best p =>
    match m.readyAt p, best with
    | none, _ => best
    | some n, none => some (n, p)
    | some n, some (b, q) => if n < b then some (n, p) else some (b, q)) none

def advance (m : Machine) (time : Nat) (p : Proc) : Machine :=
  let m := { m with now := max m.now time }
  (Turn.step ⟨m, { p with time := max p.time time }⟩).yield

/-- Runs until something is so, a time has come, or nothing can happen any more. -/
def runUntil (stop : Machine → Bool) (limit : Nat) (fuel : Nat) (m : Machine) : Machine :=
  match fuel with
  | 0 => m
  | fuel + 1 =>
    if stop m then m
    else
      match m.next? with
      | none => { m with now := max m.now limit }
      | some (time, p) =>
        if limit < time then { m with now := max m.now limit }
        else runUntil stop limit fuel (m.advance time p)

/-! ## Starting commands -/

inductive StartFault where
  | file (fault : FileFault)
  | notExecutable
  | tooLong
  | nul
deriving DecidableEq

def StartFault.message : StartFault → String
  | .file fault => s!"{fault.message} (os error {fault.number})"
  | .notExecutable => "Exec format error (os error 8)"
  | .tooLong => "Argument list too long (os error 7)"
  | .nul => "nul byte found in provided data"

def baseEnvironment : List (String × String) := [
  ("HOME", "/root"), ("PATH", ":".intercalate searchPath), ("SHELL", "/bin/sh")]

def hasNul (s : String) : Bool := s.toList.contains (Char.ofNat 0)

/-- The most bytes an argument may have. -/
def maxArgument : Nat := 131071

structure Started where
  pid : Nat
  stdout : Nat
  stderr : Nat

/-- Starts a command in a group of its own, with nothing to read. -/
def start (m : Machine) (c : Jobs.Command) : Except StartFault (Started × Machine) := do
  let texts := c.program :: c.arguments ++ c.directory.toList ++ c.environment.flatMap fun v => [v.1, v.2]
  if texts.any hasNul then throw .nul
  if c.arguments.any fun a => maxArgument < a.utf8ByteSize then throw .tooLong
  let directory ← (m.files.findDirectory [] (c.directory.getD "/")).mapError .file
  let kind ← (m.command directory c.program).mapError .file
  let settings := c.environment.foldl (fun vs v => vs.filter (fun old => old.1 != v.1) ++ [v]) baseEnvironment
  let (stdout, m) := m.newPipe
  let (stderr, m) := m.newPipe
  let pid := m.nextPid
  let environment : Environment := {
    pid, directory, name := c.program, bindings := settings.map fun v => (v.1, ⟨v.2, true, false⟩) }
  let p : Proc := {
    pid, parent := 0, group := pid, time := m.now + 1000, environment
    descriptors := [(0, .void), (1, .sink stdout), (2, .sink stderr)] }
  let m := { m with drained := m.drained ++ [stdout, stderr] }.enlist p
  match kind with
  | .script content =>
    if "#!".toList.isPrefixOf (Text.Utf8.decodeLossy (content.take 2)).toList then
      let t := Turn.becomeShell ⟨m, p⟩ "/bin/sh" (c.program :: c.arguments) []
      return (⟨pid, stdout, stderr⟩, t.yield)
    else throw .notExecutable
  | .program name =>
    if name ∈ shells then
      return (⟨pid, stdout, stderr⟩, (Turn.becomeShell ⟨m, p⟩ c.program c.arguments []).yield)
    else
      let frames := [Frame.run (.literal 1 [] (("/bin/" ++ name) :: c.arguments))]
      return (⟨pid, stdout, stderr⟩, m.put { p with frames })

end Machine

end Ensemble.Posix
