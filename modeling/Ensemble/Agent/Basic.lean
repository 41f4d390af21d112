import Ensemble.Text.Blank
import Ensemble.Text.Quoted
import Ensemble.Tool.Registry

/-!
# Agents

An agent is a model with instructions, tools and the names of the agents below it.
-/

namespace Ensemble

structure Agent (σ : Type) where
  name : String
  model : Model σ
  description : String := ""
  instructions : String := ""
  subAgents : List String := []
  addDate : Bool := false
  /-- Tells the model the working directory and the platform. -/
  addEnvironment : Bool := false
  historyLimit : Option Nat := none
  toolsets : List (ToolSet σ) := []

namespace Agent

variable {σ : Type}

/-- The tools of all tool sets; of tools with one name, the one attached last counts. -/
def tools (a : Agent σ) : Registry σ :=
  a.toolsets.foldl (fun r set => r.registerAll set.tools) .empty

def toolsetInstructions (a : Agent σ) : List String :=
  (a.toolsets.filterMap (·.instructions)).filter fun text => !Text.isBlankText text

def summary (a : Agent σ) : String :=
  "Agent \x7b name: " ++ Text.quoted a.name ++ ", model: " ++ Text.quoted a.model.model
    ++ ", sub_agents: " ++ Text.quotedList a.subAgents ++ ", tools: "
    ++ Text.quotedList a.tools.names ++ " \x7d"

end Agent

end Ensemble
