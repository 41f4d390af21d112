import Ensemble.Cli.Command
import Ensemble.Config
import Ensemble.Event.Codec
import Ensemble.Run.Suggestions

/-!
# Commands at work

A command prints something, and then it is over or waits for a line of the user. A run shows its
events one a line; when it is suspended the user is asked, and the answer resumes it.
-/

namespace Ensemble.Cli

open Jobs (Workshop)

def programName : String := "troupe"

def programVersion : String := "0.5.0"

/-- What a command finds around it. -/
structure Place (σ : Type) where
  environment : String → Option String
  directory : String
  today : String
  now : Time.Timestamp
  network : Http.Network σ
  /-- Where the commands of the tools run. -/
  workshop : Part σ Workshop

structure Talk (σ : Type) where
  setup : Setup σ
  run : Run σ

inductive Next (σ : Type) where
  | finished (code : Nat)
  | asking (talk : Talk σ) (message : String)

structure Reply (σ : Type) where
  output : String := ""
  complaint : String := ""
  next : Next σ := .finished 0

variable {σ : Type}

def Reply.failed (message : String) : Reply σ :=
  { complaint := "Error: " ++ message ++ "\n", next := .finished 1 }

def question (message : String) : String := message ++ " [Y]es / [a]lways / [n]o / [c]ancel: "

def eventLines (events : List Event) : String :=
  String.join (events.map fun e => e.toJson.render ++ "\n")

namespace Talk

/-- Shows what the run did since it was last shown. -/
def shown (t : Talk σ) : Reply σ :=
  let output := eventLines t.run.events
  match t.run.events.getLast? with
  | some (.elicitationRequest _ message _) =>
    { output, complaint := question message, next := .asking t message }
  | some (.error _) => { Reply.failed "run failed" with output }
  | _ => { output }

def resume (t : Talk σ) (answer : Answer) : Reply σ :=
  match t.setup.resume t.run.session answer .never t.run.world with
  | .error e => .failed e.message
  | .ok run => shown { t with run }

/-- Takes a line of the user, who was asked `message`. The end of the input cancels; what is no
answer is asked again. -/
def hear (t : Talk σ) (message : String) : Option String → Reply σ
  | none => t.resume .cancel
  | some line =>
    match Answer.parse? line with
    | some answer => t.resume answer
    | none => { complaint := question message, next := .asking t message }

end Talk

/-! ## The commands -/

def joinPath (directory name : String) : String :=
  if directory.endsWith "/" then directory ++ name else directory ++ "/" ++ name

def fileName? (path : String) : Option String :=
  match ((path.splitOn "/").filter fun s => s != "" && s != ".").getLast? with
  | some ".." => none
  | r => r

def settingsName : String := "troupe.toml"

def RunOptions.directory (o : RunOptions) (p : Place σ) : String := o.workspace.getD p.directory

def Command.settingsPath (p : Place σ) : Command → Option String
  | .run o => some (o.config.getD (joinPath (o.directory p) settingsName))
  | .config path => some (path.getD settingsName)
  | _ => none

def RunOptions.team (o : RunOptions) (p : Place σ) (c : Config) : Except Error (Team σ) := do
  let settings ← c.provider.settings p.environment
  let shell : Shell.Config := { c.shellConfig (o.directory p) with userShell := p.environment "SHELL" }
  let tools := Shell.toolset 0 shell (Workshop.host p.workshop)
  let team ← c.team (Anthropic.model settings p.network) tools
  match o.agent with
  | some name => team.withRoot name
  | none => return team

def RunOptions.begin (o : RunOptions) (p : Place σ) (c : Config) (world : σ) :
    Except Error (Talk σ) := do
  let team ← o.team p c
  let here : Surroundings := { today := p.today, directory := p.directory }
  let setup : Setup σ := { team, config := c.run, here, now := p.now }
  let workshop : Workshop := { supervisor := { quickTimeout := c.shell.quickTimeoutSeconds * 1000 } }
  let (started, world) := team.start (p.workshop.set workshop world)
  started
  let session : Session := {
    id := "", createdAt := p.now, workingDir := some (o.directory p)
    toolsApproved := o.approveAll, permissions := c.permissions }
  let run ← setup.run (session.addUser o.prompt p.now) .never world
  return { setup, run }

/-- Logs are not written, but a path that names no file is refused. -/
def RunOptions.logFault (o : RunOptions) : Option String :=
  match o.logFile with
  | some path => if (fileName? path).isSome then none else some ("invalid log file path: " ++ path)
  | none => none

def Command.execute (p : Place σ) (content : Option String) (world : σ) : Command → Reply σ
  | .run o =>
    match o.logFault, o.begin p (Config.load content) world with
    | some message, _ => .failed message
    | none, .error e => .failed e.message
    | none, .ok talk => talk.shown
  | .config _ => { output := (Config.load content).render }
  | .version => { output := programName ++ " v" ++ programVersion ++ "\n" }
  | .banner => { output := programName ++ " " ++ programVersion ++ "\n" }

def usageText : String :=
"Usage: troupe <COMMAND>

Commands:
  run [-c FILE] [-a AGENT] [-w DIR] [--yolo] [--log-file FILE] PROMPT
  config [-c FILE]
  version
"

def Stop.reply : Stop → Reply σ
  | .usage => { complaint := usageText, next := .finished 2 }
  | .help => { output := usageText }

def Reply.followedBy (first second : Reply σ) : Reply σ := { second with
  output := first.output ++ second.output, complaint := first.complaint ++ second.complaint }

def Reply.converse (r : Reply σ) (lines : List String) : Reply σ :=
  match r.next, lines with
  | .finished _, _ => r
  | .asking t message, [] => r.followedBy (t.hear message none)
  | .asking t message, line :: rest => r.followedBy ((t.hear message (some line)).converse rest)

end Ensemble.Cli
