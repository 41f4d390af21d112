import Ensemble.Tool.Basic

/-!
# Tool registries

A registry holds one tool a name, sorted by name. The last tool registered under a name counts.
A call can fail on two levels: its arguments are refused, which is an error of the caller, or the
tool runs and reports an error in its result.
-/

namespace Ensemble

structure Registry (σ : Type) where
  entries : List (String × Tool σ) := []

namespace Registry

variable {σ : Type}

def empty : Registry σ := {}

def register (r : Registry σ) (t : Tool σ) : Registry σ := ⟨Json.insert t.name t r.entries⟩

def registerAll (r : Registry σ) (ts : List (Tool σ)) : Registry σ := ts.foldl register r

def get? (r : Registry σ) (name : String) : Option (Tool σ) := r.entries.lookup name

def isEmpty (r : Registry σ) : Bool := r.entries.isEmpty

def names (r : Registry σ) : List String := r.entries.map (·.1)

def definitions (r : Registry σ) : List ToolDefinition := r.entries.map (·.2.definition)

def notFound (name : String) : ToolResult := .error ("Tool not found: " ++ name)

def execute (r : Registry σ) (name : String) (arguments : Json) (cancelled : Bool) (world : σ) :
    ToolReply × σ :=
  match r.get? name with
  | some tool => tool.execute arguments cancelled world
  | none => (⟨.ok (notFound name), false⟩, world)

structure CallReply where
  result : Except Error ToolResult
  cancels : Bool := false

/-- Executes a call; malformed and refused arguments are errors that name the tool. -/
def executeCall (r : Registry σ) (call : ToolCall) (cancelled : Bool) (world : σ) : CallReply × σ :=
  match call.parseArguments with
  | .error e => (⟨.error (.invalidArguments call.name e.message), false⟩, world)
  | .ok arguments =>
    let (reply, world) := r.execute call.name arguments cancelled world
    match reply.result with
    | .ok result => (⟨.ok result, reply.cancels⟩, world)
    | .error e => (⟨.error (e.toError call.name), reply.cancels⟩, world)

end Registry

end Ensemble
