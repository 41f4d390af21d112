import Ensemble.Agent.Report
import Ensemble.Config

/-!
# Reports on settings

What settings come to, in JSON: the settings themselves, how they are written, and the team they
make.
-/

namespace Ensemble

def RunConfig.report (r : RunConfig) : Json :=
  .object [("max_iterations", .nat r.maxIterations), ("event_buffer", .nat r.eventBuffer),
    ("compaction", .array [.bool r.compaction.enabled, .nat r.compaction.thresholdTokens]),
    ("suggestions", .array [.bool r.suggestions.enabled, .nat r.suggestions.maxCount,
      .nat r.suggestions.timeout, .nat r.suggestions.maxTokens.toNat])]

def Shell.Config.report (c : Shell.Config) : Json :=
  .object [("working_dir", .text c.workingDirectory), ("shell", .texts c.shell),
    ("env", .array (c.environment.map fun v => .texts [v.1, v.2])),
    ("quick_timeout_ms", .nat c.quickTimeout)]

def Model.report {σ : Type} (m : Model σ) : Json :=
  .object [("name", .text m.name), ("model", .text m.model), ("options", m.options.toJson),
    ("pricing", .orNull Pricing.toJson m.pricing)]

namespace Config

/-- Whether the settings are written the same again after they were read back. -/
def isStable (c : Config) : Bool :=
  match read c.render with
  | .ok back => back.render == c.render
  | .error _ => false

def teamReport {σ : Type} (c : Config) (model : Model σ) (shell : ToolSet σ) : Json :=
  match c.team model shell with
  | .ok t => .object (t.report t.names ++ [("details", .array (t.agents.map Ensemble.Agent.report))])
  | .error e => e.toJson

def report {σ : Type} (c : Config) (directory : String) (model : Model σ)
    (shell : Ensemble.Shell.Config → ToolSet σ) : Json :=
  let tools := c.shellConfig directory
  .object [("config", c.toJson), ("toml", .text c.render), ("stable", .bool c.isStable),
    ("runtime", c.run.report), ("shell", tools.report), ("graph", c.teamReport model (shell tools))]

end Config

end Ensemble
