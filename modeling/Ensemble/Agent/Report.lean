import Ensemble.Agent.Handoff
import Ensemble.Error.Codec
import Ensemble.Model.Codec

/-!
# Reports on teams

What a team, its agents and their tools look like from outside, in JSON.
-/

namespace Ensemble

variable {σ : Type}

def Tool.report (t : Tool σ) : Json :=
  .object [("name", .text t.name), ("category", .text t.category), ("title", .text t.title),
    ("description", .text t.description), ("input_schema", t.inputSchema),
    ("output_schema", t.outputSchema), ("read_only", .bool t.readOnly),
    ("requires_approval", .bool t.requiresApproval), ("definition", t.definition.toJson),
    ("llm_tool", t.definition.toJson)]

def ToolResult.report (r : ToolResult) : List (String × Json) :=
  [("content", .text r.content), ("is_error", .bool r.isError)]

def Agent.report (a : Agent σ) : Json :=
  .object [("name", .text a.name), ("description", .text a.description),
    ("instructions", .text a.instructions), ("add_date", .bool a.addDate),
    ("add_environment_info", .bool a.addEnvironment),
    ("num_history_items", .orNull .nat a.historyLimit), ("tools", .texts a.tools.names),
    ("toolset_instructions", .nat a.toolsetInstructions.length), ("toolsets", .nat a.toolsets.length)]

namespace Team

def sortedTexts (xs : List String) : List String := xs.mergeSort fun a b => decide (¬ b < a)

def placeReport (t : Team σ) (name : String) : Json :=
  let targets := t.handoffTargets name
  let found := match t.agent name with
    | .ok a => .text a.name
    | .error e => e.toJson
  let choices := (((Handoff.definition targets).inputSchema.get? "properties").bind
    (Json.get? "agent")).bind (Json.get? "enum")
  .object [("found", found), ("children", .texts ((t.children name).map (·.name))),
    ("parents", .texts (t.parents name)), ("ancestors", .texts (sortedTexts (t.ancestors name))),
    ("targets", .texts (targets.map (·.name))), ("prompt", .text (Handoff.instructions targets)),
    ("enum", choices.getD .null)]

def report (t : Team σ) (names : List String) : List (String × Json) := [
  ("root", .text t.root.name), ("agents", .texts t.names), ("toolsets", .nat t.toolsets.length),
  ("info", .object (names.map fun n => (n, t.placeReport n)))]

end Team

end Ensemble
