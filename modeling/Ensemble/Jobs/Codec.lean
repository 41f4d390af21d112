import Ensemble.Json.Basic
import Ensemble.Jobs.Basic

/-!
# Outcomes of commands as JSON
-/

namespace Ensemble.Jobs

def Exit.toJson (e : Exit) : Json :=
  .object [("code", .orNull .nat e.code?), ("success", .bool e.isSuccess),
    ("description", .text e.description)]

def Output.toJson (o : Output) : Json :=
  .object [("stdout", .text o.stdout), ("stderr", .text o.stderr), ("combined", .text o.combined)]

def outcomeJson (word : String) (rest : List (String × Json)) : Json :=
  .object (("outcome", .text word) :: rest)

/-- `reference` is what a process in the background is called. -/
def RunOutcome.toJson (reference : Nat → Json) : RunOutcome → Json
  | .completed exit output =>
    outcomeJson "completed" [("exit", exit.toJson), ("output", output.toJson)]
  | .background pid output requested =>
    outcomeJson "background"
      [("ref", reference pid), ("requested", .bool requested), ("output", output.toJson)]
  | .interrupted output => outcomeJson "interrupted" [("output", output.toJson)]

def LogsOutcome.toJson : LogsOutcome → Json
  | .notFound => outcomeJson "not_found" []
  | .running output _ => outcomeJson "running" [("output", output.toJson)]
  | .completed exit output =>
    outcomeJson "completed" [("exit", exit.toJson), ("output", output.toJson)]

end Ensemble.Jobs
