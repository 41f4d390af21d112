import Ensemble.Jobs.Host
import Ensemble.Tool.Basic

/-!
# The shell tool set

`shell` runs a command, and `get_logs` asks for one that runs in the background.
-/

namespace Ensemble.Shell

open Jobs (Command Host LogsOutcome Output RunOutcome)

structure Config where
  /-- Where commands run that name no other directory. -/
  workingDirectory : String
  /-- A program with its first arguments; when empty, the user's shell. -/
  shell : List String := []
  environment : List (String × String) := []
  /-- In milliseconds. -/
  quickTimeout : Nat := 10000
  userShell : Option String := some "/bin/sh"

/-- The program and the arguments that come before a command. -/
def resolve (chosen : List String) (userShell : Option String) : String × List String :=
  match chosen with
  | program :: arguments => (program, arguments)
  | [] => (((userShell.filter fun s => !Text.isBlankText s)).getD "/bin/sh", ["-c"])

/-- The directory for a command. A path from the root replaces the working directory. -/
def Config.directory (c : Config) (asked : Option String) : String :=
  let asked := Text.trim (asked.getD "")
  if asked = "" ∨ asked = "." then c.workingDirectory
  else if asked.startsWith "/" then asked
  else if c.workingDirectory.endsWith "/" then c.workingDirectory ++ asked
  else c.workingDirectory ++ "/" ++ asked

def instructions : String :=
"# Shell Tool Usage Guide

Use the `shell` tool to run commands in the user's environment.

- Always pass `cwd`. Use \".\" for the current working directory.
- Each call runs in a fresh shell. Shell state such as `cd` or exported variables does not persist between calls.
- Commands that take longer than a few seconds are moved to the background automatically. The result then contains the PID instead of the full output.
- Set `background: true` for servers, watchers, and other commands that never exit.
- Use the `get_logs` tool with the PID to read the output of a background command and to learn whether it has finished.
- Prefer non-interactive flags (`-y`, `--yes`, `--no-pager`). Commands cannot read from stdin."

/-! ## What is said of outputs -/

/-- The most characters of an output that are shown. -/
def maxOutput : Nat := 30000

def truncate (s : String) : String :=
  let count := s.length
  if maxOutput < count then
    String.ofList (s.toList.take maxOutput) ++ s!"\n... [truncated, {count} total chars]"
  else s

/-- A line with the output below it, unless that is blank. -/
def withOutput (header label : String) (o : Output) : String :=
  if Text.isBlankText o.combined then header
  else header ++ "\n\n" ++ label ++ ":\n" ++ truncate o.combined

/-- The result of a command; `timeout` is in milliseconds. -/
def resultOf (timeout : Nat) : RunOutcome → ToolResult
  | .completed exit output =>
    if exit.isSuccess then
      .text (if Text.isBlankText output.combined then "(no output)" else truncate output.combined)
    else
      .error ("Error executing command: " ++ exit.description ++ "\nOutput: " ++ truncate output.combined)
  | .background pid output requested =>
    let first := if requested then s!"Command is running in background (PID: {pid})"
      else s!"Command is still running in background (PID: {pid}) after {timeout / 1000}s"
    let hint := "Use get_logs tool with this PID to check its output and status."
    .text (withOutput (first ++ "\n" ++ hint) "Output so far" output)
  | .interrupted output => .error (withOutput "[process killed by interrupt]" "Output" output)

def logsResult (pid : Nat) : LogsOutcome → ToolResult
  | .notFound => .error s!"No background process found with PID: {pid}"
  | .running output elapsed =>
    .text (withOutput s!"Process is still running (PID: {pid}, running for {elapsed / 1000}s)"
      "Output so far" output)
  | .completed exit output =>
    .text (withOutput (s!"Process completed (PID: {pid}) with " ++ exit.description) "Output" output)

/-! ## The tools -/

structure Arguments where
  command : String
  directory : Option String
  background : Bool

open Json Json.Decode in
def Arguments.decode : Decoder Arguments :=
  record "struct ShellArgs" (Arguments.mk <$> .required "cmd" text <*> .optional "cwd" text
    <*> .defaulted "background" false bool)

open Json Json.Decode in
def decodePid : Decoder UInt32 := record "struct GetLogsArgs" (.required "pid" word32)

def described (type description : String) : Json :=
  .sorted [("type", .text type), ("description", .text description)]

def schema (properties : List (String × Json)) (required : List String) : Json :=
  .sorted [("type", .text "object"), ("properties", .sorted properties), ("required", .texts required),
    ("additionalProperties", .bool false)]

def Config.command (c : Config) (a : Arguments) : Command :=
  let (program, first) := resolve c.shell c.userShell
  { program, arguments := first ++ [a.command], directory := some (c.directory a.directory)
    environment := c.environment, background := a.background }

def shellTool {σ : Type} (c : Config) (host : Host σ) : Tool σ where
  name := "shell"
  category := "shell"
  title := "Run Shell Command"
  description := "Executes the given shell command in the user's default shell. " ++
    "Returns stdout followed by stderr. Commands still running after a short " ++
    "wait continue in the background and return their PID."
  inputSchema := schema [
    ("cmd", described "string" "The shell command to execute"),
    ("cwd", described "string" "The working directory to execute the command in"),
    ("background", described "boolean" ("Set to true to run the command in the background " ++
      "immediately and return the PID. Use this for long-running commands like 'npm start', " ++
      "'npm run dev', or 'docker-compose up'."))] ["cmd", "cwd"]
  execute arguments cancelled world :=
    match Tool.readArguments Arguments.decode arguments with
    | .error e => (⟨.error e, false⟩, world)
    | .ok a =>
      match host.run (c.command a) cancelled world with
      | (.error text, world) => (⟨.ok (.error text), false⟩, world)
      | (.ok outcome, world) => (⟨.ok (resultOf c.quickTimeout outcome), false⟩, world)

def logsTool {σ : Type} (host : Host σ) : Tool σ where
  name := "get_logs"
  category := "shell"
  title := "Get Background Process Logs"
  description := "Retrieves the output logs of a command running in the background, " ++
    "and reports whether it has finished."
  inputSchema := schema [("pid", described "integer" "The PID returned by the shell tool")] ["pid"]
  readOnly := true
  execute arguments _ world :=
    match Tool.readArguments decodePid arguments with
    | .error e => (⟨.error e, false⟩, world)
    | .ok pid =>
      let (outcome, world) := host.logs pid.toNat world
      (⟨.ok (logsResult pid.toNat outcome), false⟩, world)

/-- Both tools on one host. Stopping them terminates what still runs. -/
def toolset {σ : Type} (key : Nat) (c : Config) (host : Host σ) : ToolSet σ where
  key := key
  instructions := some instructions
  tools := [shellTool c host, logsTool host]
  stop world := (.ok (), host.shutdown world)

end Ensemble.Shell
