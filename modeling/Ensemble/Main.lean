import Ensemble.Cli.Dialogue

/-!
# The program

Reads the arguments, the settings, the environment and what the user types, and prints.
-/

namespace Ensemble.Cli

open Jobs (Workshop)

/-- Seconds since 1970, from when the system came up and how long ago that was. -/
def readClock : IO Nat := do
  let stat ← IO.FS.readFile "/proc/stat"
  let uptime ← IO.FS.readFile "/proc/uptime"
  let boot := ((stat.splitOn "btime ").getD 1 "").splitOn "\n"
  let up := uptime.splitOn "."
  return (((boot.headD "").toNat?).getD 0) + (((up.headD "").toNat?).getD 0)

def readFile? (path : String) : IO (Option String) := do
  try
    return some (← IO.FS.readFile path)
  catch _ => return none

def readVariables (names : List String) : IO (List (String × String)) :=
  names.filterMapM fun name => return (← IO.getEnv name).map fun value => (name, value)

partial def serve (r : Reply Workshop) : IO UInt32 := do
  let output ← IO.getStdout
  let complaints ← IO.getStderr
  output.putStr r.output
  output.flush
  complaints.putStr r.complaint
  complaints.flush
  match r.next with
  | .finished code => return code.toUInt32
  | .asking talk message =>
    let line ← (← IO.getStdin).getLine
    serve (talk.hear message (if line.isEmpty then none else some line))

/-- There is no network here. -/
def readPlace (content : Option String) : IO (Place Workshop) := do
  let now := Time.Timestamp.ofSeconds (← readClock)
  let settings ← readVariables ["SHELL", (Config.load content).provider.keyVariable]
  return {
    environment := fun name => settings.lookup name
    directory := (← IO.currentDir).toString
    today := String.ofList now.date.print
    now
    network := .unreachable
    workshop := ⟨id, fun w _ => w⟩ }

end Ensemble.Cli

open Ensemble.Cli in
def main (arguments : List String) : IO UInt32 := do
  match Command.read arguments with
  | .error stop => serve stop.reply
  | .ok command =>
    let place ← readPlace none
    let content ← match command.settingsPath place with
      | some path => readFile? path
      | none => pure none
    serve (command.execute (← readPlace content) content {})
