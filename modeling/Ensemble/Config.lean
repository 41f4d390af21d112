import Ensemble.Agent.Team
import Ensemble.Anthropic.Model
import Ensemble.Run.Config
import Ensemble.Session.Codec
import Ensemble.Shell
import Ensemble.Toml.Document
import Ensemble.Toml.Printer

/-!
# Settings of the program

Everything in a settings file may be left out. A file that is written in full reads back as the
same settings.
-/

namespace Ensemble

namespace Config

structure Provider where
  kind : String := "anthropic"
  model : String := "claude-sonnet-4-20250514"
  /-- The environment variable that holds the key. -/
  keyVariable : String := "ANTHROPIC_API_KEY"
  baseUrl : Option String := none
  maxTokens : Option UInt32 := none
  temperature : Option Float32 := none
  pricing : Option Pricing := none

structure Shell where
  quickTimeoutSeconds : Nat := 10
  /-- A program with its first arguments; when empty, the user's shell. -/
  command : List String := []
  /-- Sorted by name. -/
  environment : List (String × String) := []

structure Agent where
  name : String := "root"
  description : String := ""
  instructions : String := "You are a helpful assistant working in the user's project. " ++
    "Use the shell tool to inspect and change files."
  subAgents : List String := []
  toolsets : List String := ["shell"]
  addDate : Bool := true
  addEnvironment : Bool := true
  historyLimit : Option Nat := none

end Config

structure Config where
  provider : Config.Provider := {}
  run : RunConfig := {}
  shell : Config.Shell := {}
  permissions : Session.Permissions := {}
  /-- The first agent is the root. -/
  agents : List Config.Agent := []

namespace Config

/-! ## Reading -/

open Json Json.Decode

def milliseconds : Decoder Nat := fun src d => (word64 src d).map UInt64.toNat

def Provider.decode : Decoder Provider :=
  let base : Provider := {}
  record "provider settings" (Provider.mk <$> .defaulted "kind" base.kind text
    <*> .defaulted "model" base.model text <*> .defaulted "api_key_env" base.keyVariable text
    <*> .optional "base_url" text <*> .optional "max_tokens" word32
    <*> .optional "temperature" float32 <*> .optional "pricing" Pricing.decode)

def decodeCompaction : Decoder CompactionConfig :=
  let base : CompactionConfig := {}
  record "compaction settings" (CompactionConfig.mk <$> .defaulted "enabled" base.enabled bool
    <*> .defaulted "threshold_tokens" base.thresholdTokens size)

def decodeSuggestions : Decoder SuggestionsConfig :=
  let base : SuggestionsConfig := {}
  record "suggestion settings" (SuggestionsConfig.mk <$> .defaulted "enabled" base.enabled bool
    <*> .defaulted "max_count" base.maxCount size <*> .defaulted "timeout_ms" base.timeout milliseconds
    <*> .defaulted "max_tokens" base.maxTokens word32)

def decodeRun : Decoder RunConfig :=
  let base : RunConfig := {}
  record "run settings" (RunConfig.mk <$> .defaulted "max_iterations" base.maxIterations size
    <*> .defaulted "event_buffer" base.eventBuffer size
    <*> .defaulted "compaction" base.compaction decodeCompaction
    <*> .defaulted "suggestions" base.suggestions decodeSuggestions)

def Shell.decode : Decoder Shell :=
  let base : Shell := {}
  record "shell settings" (Shell.mk <$> .defaulted "quick_timeout_secs" base.quickTimeoutSeconds milliseconds
    <*> .defaulted "shell" base.command (list text)
    <*> .defaulted "env" base.environment (map text))

def Agent.decode : Decoder Agent :=
  let base : Agent := {}
  record "agent settings" (Agent.mk <$> .defaulted "name" base.name text
    <*> .defaulted "description" base.description text
    <*> .defaulted "instructions" base.instructions text
    <*> .defaulted "sub_agents" base.subAgents (list text)
    <*> .defaulted "toolsets" base.toolsets (list text)
    <*> .defaulted "add_date" base.addDate bool
    <*> .defaulted "add_environment_info" base.addEnvironment bool
    <*> .optional "num_history_items" size)

def decode : Decoder Config :=
  record "settings" (Config.mk <$> .defaulted "provider" {} Provider.decode
    <*> .defaulted "runtime" {} decodeRun <*> .defaulted "shell" {} Shell.decode
    <*> .defaulted "permissions" {} Session.Permissions.decode
    <*> .defaulted "agents" [] (list Agent.decode))

def read (s : String) : Except Error Config :=
  match Toml.read s with
  | none => .error (.config "invalid settings")
  | some table =>
    match decode .settings (Toml.Node.table .explicit table).toDoc with
    | .ok c => .ok c
    | .error e => .error (.config e.message)

/-- The settings of a file that may be missing. One that cannot be read counts as missing. -/
def load (content : Option String) : Config :=
  match content.map read with
  | some (.ok c) => c
  | _ => {}

/-! ## Writing -/

open Toml (Entry Section)

def entryWhenSome (name : String) (f : α → Entry) : Option α → List (String × Entry)
  | some a => [(name, f a)]
  | none => []

def Provider.sections (p : Provider) : List Section :=
  { path := ["provider"]
    entries := [("kind", .text p.kind), ("model", .text p.model), ("api_key_env", .text p.keyVariable)]
      ++ entryWhenSome "base_url" .text p.baseUrl
      ++ entryWhenSome "max_tokens" (fun n => .nat n.toNat) p.maxTokens
      ++ entryWhenSome "temperature" (fun x => .float x.toFloat) p.temperature } ::
  (p.pricing.map fun price => {
    path := ["provider", "pricing"]
    entries := [("input_per_mtok", .float price.input), ("output_per_mtok", .float price.output),
      ("cached_input_per_mtok", .float price.cachedInput),
      ("cache_write_per_mtok", .float price.cacheWrite)] : Section }).toList

def runSections (r : RunConfig) : List Section := [
  { path := ["runtime"]
    entries := [("max_iterations", .nat r.maxIterations), ("event_buffer", .nat r.eventBuffer)] },
  { path := ["runtime", "compaction"]
    entries := [("enabled", .bool r.compaction.enabled),
      ("threshold_tokens", .nat r.compaction.thresholdTokens)] },
  { path := ["runtime", "suggestions"]
    entries := [("enabled", .bool r.suggestions.enabled), ("max_count", .nat r.suggestions.maxCount),
      ("timeout_ms", .nat r.suggestions.timeout), ("max_tokens", .nat r.suggestions.maxTokens.toNat)] }]

def Shell.sections (s : Shell) : List Section := [
  { path := ["shell"]
    entries := [("quick_timeout_secs", .nat s.quickTimeoutSeconds), ("shell", .texts s.command)] },
  { path := ["shell", "env"], entries := s.environment.map fun v => (v.1, .text v.2) }]

def permissionsSection (p : Session.Permissions) : Section :=
  { path := ["permissions"], entries := [("allow", .texts p.allow), ("deny", .texts p.deny)] }

def Agent.toSection (a : Agent) : Section where
  path := ["agents"]
  listed := true
  entries := [("name", .text a.name), ("description", .text a.description),
      ("instructions", .text a.instructions), ("sub_agents", .texts a.subAgents),
      ("toolsets", .texts a.toolsets), ("add_date", .bool a.addDate),
      ("add_environment_info", .bool a.addEnvironment)]
    ++ entryWhenSome "num_history_items" .nat a.historyLimit

/-- The agents, or the one that is there when none is given. -/
def agentsOrDefault (c : Config) : List Agent := if c.agents.isEmpty then [{}] else c.agents

def sections (c : Config) : List Section :=
  c.provider.sections ++ runSections c.run ++ c.shell.sections ++ [permissionsSection c.permissions]
    ++ c.agentsOrDefault.map Agent.toSection

/-- The settings as a file, or an empty one if they cannot be written. -/
def render (c : Config) : String := (Toml.render? c.sections).getD ""

/-! ## Use -/

def Provider.options (p : Provider) : Model.Options :=
  { maxTokens := p.maxTokens, temperature := p.temperature }

/-- The model that is asked for; `environment` gives the values of environment variables. -/
def Provider.settings (p : Provider) (environment : String → Option String) :
    Except Error Anthropic.Settings :=
  if p.kind = "anthropic" then
    match environment p.keyVariable with
    | none => .error (.config (p.keyVariable ++ " not set"))
    | some apiKey =>
      let base : Anthropic.Settings :=
        { apiKey, model := p.model, options := p.options, pricing := p.pricing }
      .ok { base with url := p.baseUrl.getD base.url }
  else .error (.config ("unknown provider kind: " ++ p.kind))

def shellConfig (c : Config) (directory : String) : Ensemble.Shell.Config :=
  { workingDirectory := directory, shell := c.shell.command, environment := c.shell.environment
    quickTimeout := c.shell.quickTimeoutSeconds * 1000 }

variable {σ : Type}

/-- A new instance of a tool set. Instances differ in their keys. -/
def instanceOf (set : ToolSet σ) (number : Nat) : ToolSet σ := { set with key := set.key + number }

def toolset (shell : ToolSet σ) (name : String) : Except Error (ToolSet σ) :=
  if name = "shell" then .ok shell else .error (.config ("unknown tool set: " ++ name))

/-- Work that keeps the tool sets made so far under their names. -/
abbrev Outfitting (σ : Type) := StateT (List (String × ToolSet σ)) (Except Error)

/-- The tool set of a name, which is made when it is asked for first. -/
def takeToolset (shell : ToolSet σ) (name : String) : Outfitting σ (ToolSet σ) := do
  let held ← get
  match held.lookup name with
  | some there => return there
  | none =>
    let made ← toolset (instanceOf shell held.length) name
    set (held ++ [(name, made)])
    return made

def Agent.equipped (a : Agent) (model : Model σ) (toolsets : List (ToolSet σ)) :
    Ensemble.Agent σ where
  name := a.name
  model := model
  description := a.description
  instructions := a.instructions
  subAgents := a.subAgents
  addDate := a.addDate
  addEnvironment := a.addEnvironment
  historyLimit := a.historyLimit
  toolsets := toolsets

def Agent.build (a : Agent) (model : Model σ) (shell : ToolSet σ) :
    Outfitting σ (Ensemble.Agent σ) := do
  return a.equipped model (← a.toolsets.mapM (takeToolset shell))

/-- The team, with one model for every agent. Agents that name the same tool set share it. -/
def team (c : Config) (model : Model σ) (shell : ToolSet σ) : Except Error (Team σ) := do
  Team.build (← (c.agentsOrDefault.mapM fun a : Agent => a.build model shell).run' [])

/-! ## As JSON -/

def Provider.toJson (p : Provider) : Json :=
  .object [
    ("kind", .text p.kind), ("model", .text p.model), ("api_key_env", .text p.keyVariable),
    ("base_url", .orNull .text p.baseUrl), ("max_tokens", .orNull .word p.maxTokens),
    ("temperature", .orNull (fun x => .number (.float32 x)) p.temperature),
    ("pricing", .orNull Pricing.toJson p.pricing)]

def runToJson (r : RunConfig) : Json :=
  .object [
    ("max_iterations", .nat r.maxIterations), ("event_buffer", .nat r.eventBuffer),
    ("compaction", .object [("enabled", .bool r.compaction.enabled),
      ("threshold_tokens", .nat r.compaction.thresholdTokens)]),
    ("suggestions", .object [("enabled", .bool r.suggestions.enabled),
      ("max_count", .nat r.suggestions.maxCount), ("timeout_ms", .nat r.suggestions.timeout),
      ("max_tokens", .word r.suggestions.maxTokens)])]

def Shell.toJson (s : Shell) : Json :=
  .object [("quick_timeout_secs", .nat s.quickTimeoutSeconds), ("shell", .texts s.command),
    ("env", .object (s.environment.map fun v => (v.1, .text v.2)))]

def Agent.toJson (a : Agent) : Json :=
  .object [
    ("name", .text a.name), ("description", .text a.description),
    ("instructions", .text a.instructions), ("sub_agents", .texts a.subAgents),
    ("toolsets", .texts a.toolsets), ("add_date", .bool a.addDate),
    ("add_environment_info", .bool a.addEnvironment),
    ("num_history_items", .orNull .nat a.historyLimit)]

def toJson (c : Config) : Json :=
  .object [
    ("provider", c.provider.toJson), ("runtime", runToJson c.run), ("shell", c.shell.toJson),
    ("permissions", c.permissions.toJson), ("agents", .array (c.agents.map Agent.toJson))]

end Config

end Ensemble
