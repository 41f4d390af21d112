import Ensemble.Agent.Team

/-!
# Handing over a task

The tool `transfer_task` and the texts around it: what the model is told about the agents it may
hand over to, and the message the receiving agent starts from.
-/

namespace Ensemble.Handoff

def toolName : String := "transfer_task"

structure Arguments where
  agent : String
  task : String
  expectedOutput : String

open Json Json.Decode in
def Arguments.decode : Decoder Arguments :=
  record "struct TransferTaskArgs" (Arguments.mk <$> .required "agent" text
    <*> .required "task" text <*> .defaulted "expected_output" "" text)

/-- The first message the receiving agent sees. -/
def Arguments.briefing (a : Arguments) (source : String) : String :=
  s!"Task from {source}: " ++ a.task ++
    (if Text.isBlankText a.expectedOutput then "" else "\n\nExpected output: " ++ a.expectedOutput)

def described (type description : String) : Json :=
  .sorted [("type", .text type), ("description", .text description)]

def schema (targets : List String) : Json :=
  .sorted [
    ("type", .text "object"),
    ("properties", .sorted [
      ("agent", .sorted [
        ("type", .text "string"), ("enum", .texts targets),
        ("description", .text "The name of the agent to transfer the task to")]),
      ("task", described "string"
        "A clear and concise description of the task the agent should achieve"),
      ("expected_output", described "string" "The expected output from the agent (optional)")]),
    ("required", .texts ["agent", "task"]),
    ("additionalProperties", .bool false)]

def definition {σ : Type} (targets : List (Agent σ)) : ToolDefinition where
  name := toolName
  description := "Transfer the conversation to another agent that is better suited to handle the " ++
    "task. The agent takes over until the user says otherwise."
  inputSchema := schema (targets.map (·.name))

def line {σ : Type} (a : Agent σ) : String :=
  if a.description.isEmpty then "\n- " ++ a.name else s!"\n- {a.name}: {a.description}"

def instructions {σ : Type} (targets : List (Agent σ)) : String :=
  "You are part of a multi-agent team. You can hand off a task to one of the following agents " ++
    "with the `transfer_task` tool when it is better suited to handle it:\n" ++
    String.join (targets.map line)

end Ensemble.Handoff
