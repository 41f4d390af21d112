/-!
# The command line

A command with its options and words. An option that takes a value may have it in the same
argument or in the next one; behind `--` everything is a word. No option may be given twice.
-/

namespace Ensemble.Cli

structure Flag where
  name : String
  short : Option Char := none
  takesValue : Bool := true
  /-- A path may not be empty. -/
  isPath : Bool := false
deriving DecidableEq

structure Grammar where
  flags : List Flag := []
  maxWords : Nat := 0

inductive Stop where
  | usage
  | help
deriving DecidableEq

structure Reading where
  values : List (String × String) := []
  words : List String := []
  pending : Option Flag := none
  literal : Bool := false

namespace Reading

def value (r : Reading) (f : Flag) (v : String) : Except Stop Reading :=
  if (r.values.lookup f.name).isSome || (f.isPath && v.isEmpty) then .error .usage
  else .ok { r with values := r.values ++ [(f.name, v)], pending := none }

def word (g : Grammar) (r : Reading) (w : String) : Except Stop Reading :=
  if r.words.length < g.maxWords then .ok { r with words := r.words ++ [w] } else .error .usage

def long (g : Grammar) (r : Reading) (body : List Char) : Except Stop Reading :=
  let name := String.ofList (body.takeWhile (· != '='))
  match body.dropWhile (· != '='), g.flags.find? (·.name == name) with
  | [], some f => if f.takesValue then .ok { r with pending := some f } else r.value f ""
  | _ :: v, some f => if f.takesValue then r.value f (String.ofList v) else .error .usage
  | rest, none => .error (if name = "help" ∧ rest = [] then .help else .usage)

def short (g : Grammar) (r : Reading) : List Char → Except Stop Reading
  | [] => .ok r
  | letter :: rest =>
    match g.flags.find? (·.short == some letter) with
    | none => .error (if letter = 'h' then .help else .usage)
    | some f =>
      match rest with
      | [] => .ok { r with pending := some f }
      | '=' :: v => r.value f (String.ofList v)
      | v => r.value f (String.ofList v)

def step (g : Grammar) (r : Reading) (argument : String) : Except Stop Reading :=
  if r.literal then r.word g argument
  else
    match r.pending, argument.toList with
    | some f, ['-'] => r.value f "-"
    | some _, '-' :: _ => .error .usage
    | some f, _ => r.value f argument
    | none, ['-'] => r.word g "-"
    | none, ['-', '-'] => .ok { r with literal := true }
    | none, '-' :: '-' :: body => r.long g body
    | none, '-' :: body => r.short g body
    | none, _ => r.word g argument

end Reading

def Grammar.read (g : Grammar) (arguments : List String) : Except Stop Reading := do
  let r ← arguments.foldlM (Reading.step g) {}
  if r.pending.isSome then .error .usage else .ok r

/-! ## The commands -/

structure RunOptions where
  config : Option String := none
  agent : Option String := none
  workspace : Option String := none
  approveAll : Bool := false
  logFile : Option String := none
  prompt : String
deriving DecidableEq

inductive Command where
  | run (options : RunOptions)
  | config (path : Option String)
  | version
  /-- The name of the program with its version. -/
  | banner
deriving DecidableEq

def configFlag : Flag := { name := "config", short := some 'c', isPath := true }

def runGrammar : Grammar where
  flags := [configFlag, { name := "agent", short := some 'a' },
    { name := "workspace", short := some 'w', isPath := true },
    { name := "yolo", takesValue := false }, { name := "log-file", isPath := true }]
  maxWords := 1

def readRun (arguments : List String) : Except Stop Command := do
  let r ← runGrammar.read arguments
  match r.words with
  | [prompt] => return .run {
      config := r.values.lookup "config", agent := r.values.lookup "agent"
      workspace := r.values.lookup "workspace", approveAll := (r.values.lookup "yolo").isSome
      logFile := r.values.lookup "log-file", prompt }
  | _ => .error .usage

def commandNames : List String := ["run", "config", "version", "help"]

def Command.read : List String → Except Stop Command
  | "run" :: rest => readRun rest
  | "config" :: rest => do
    let r ← Grammar.read { flags := [configFlag] } rest
    return .config (r.values.lookup "config")
  | "version" :: rest => do
    let _ ← Grammar.read {} rest
    return .version
  | ["help"] => .error .help
  | ["help", name] => .error (if commandNames.contains name then .help else .usage)
  | "--version" :: _ => .ok .banner
  | "--help" :: _ => .error .help
  | argument :: _ =>
    match argument.toList with
    | '-' :: 'V' :: _ => .ok .banner
    | '-' :: 'h' :: _ => .error .help
    | _ => .error .usage
  | [] => .error .usage

end Ensemble.Cli
