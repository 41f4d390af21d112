import Ensemble.Json.Decode
import Ensemble.Run.Drive

/-!
# Suggestions

After a run the model may be asked what the user could want next. That is a run of its own, of a
single agent on a session nobody else sees, and all its failures come to the same: no
suggestions.
-/

namespace Ensemble

namespace Suggestions

def instructions : String :=
  "You are a helpful AI assistant. Based on the conversation, suggest follow-up actions or " ++
  "questions the user might want to explore next.\n\nRules:\n" ++
  "- Keep each suggestion very concise (under 8 words)\n" ++
  "- Use action verbs or short questions\n- No explanations, just the suggestion text\n\n" ++
  "Return suggestions as a JSON array of strings:\n" ++
  "[\"suggestion 1\", \"suggestion 2\", \"suggestion 3\"]\n\n" ++
  "Return ONLY the JSON array, nothing else. Order suggestions by relevance (most relevant first)."

def prompt (max : Nat) (lastUser lastAssistant : String) : String :=
  s!"Based on this conversation, suggest {max} follow-up options:\n\nLast user message: " ++
    lastUser ++ "\n\nLast assistant response: " ++ lastAssistant ++
    s!"\n\nProvide exactly {max} suggestions as a JSON array."

/-- From the first opening bracket to the last closing one, or else the whole text. -/
def candidate (cs : List Char) : List Char :=
  let start := cs.takeWhile (· ≠ '[')
  let stop := cs.reverse.takeWhile (· ≠ ']')
  if start.length + stop.length + 1 < cs.length then
    (cs.drop start.length).take (cs.length - start.length - stop.length)
  else cs

/-- The texts of a list, which may stand between other text. Blank ones are left out. -/
def parse (response : String) (max : Nat) : List String :=
  match Json.Decode.ofText (Json.Decode.list Json.Decode.text)
      (String.ofList (candidate response.toList)) with
  | .ok texts => (texts.filter fun t => !Text.isBlankText t).take max
  | .error _ => []

/-- The settings of the inner run: one request, and nothing after it. -/
def runConfig : RunConfig := { maxIterations := 1, compaction := { enabled := false } }

structure Result (σ : Type) where
  suggestions : List String
  world : σ
  expired : Bool := false
  journal : List Activity := []

def endsInError : List Event → Bool
  | [] => false
  | [.error _] => true
  | _ :: rest => endsInError rest

variable {σ : Type}

/-- The model of the inner run has its own limit and no schema for its reply. -/
def modelOf (m : Model σ) (config : SuggestionsConfig) : Model σ :=
  m.withOptions { m.options with maxTokens := some config.maxTokens, structuredOutput := none }

def agentOf (m : Model σ) (config : SuggestionsConfig) : Agent σ :=
  { name := "root", model := modelOf m config, instructions }

def sessionOf (config : SuggestionsConfig) (lastUser lastAssistant : String) (now : Time.Timestamp) :
    Session :=
  ({ id := "", createdAt := now } : Session).addUser
    (prompt config.maxCount lastUser lastAssistant) now

def generate (m : Model σ) (lastUser lastAssistant : String) (config : SuggestionsConfig)
    (here : Surroundings) (now : Time.Timestamp) (c : Cancellation) (world : σ) : Result σ :=
  if lastUser.isEmpty || lastAssistant.isEmpty then { suggestions := [], world }
  else
    match Team.build [agentOf m config] with
    | .error _ => { suggestions := [], world }
    | .ok team =>
      let setup : Setup σ := { team, config := runConfig, here, now }
      match setup.start (sessionOf config lastUser lastAssistant now) c world with
      | .error _ => { suggestions := [], world }
      | .ok r =>
        let r := Run.drive setup id none r
        let suggestions := if endsInError r.events then []
          else parse (r.session.lastContent .assistant) config.maxCount
        ⟨suggestions, r.world, r.cancel.expired, r.journal⟩

end Suggestions

namespace Run

variable {σ : Type}

/-- Asks the agent's model for suggestions within the time allowed, and reports what there is. -/
def followUp (setup : Setup σ) (r : Run σ) : Run σ :=
  let config := setup.config.suggestions
  if config.enabled then
    match setup.team.get? r.agent with
    | none => r
    | some a =>
      let result := Suggestions.generate a.model (r.session.lastContent .user)
        (r.session.lastContent .assistant) config setup.here setup.now
        { r.cancel with deadline := some config.timeout } r.world
      let r := { r with world := result.world, aside := result.journal }
      if result.expired || result.suggestions.isEmpty then r
      else r.emit (.followUpSuggestions r.agent result.suggestions)
  else r

end Run

namespace Setup

variable {σ : Type}

/-- A run of a session from its beginning to its terminal event. -/
def run (setup : Setup σ) (s : Session) (c : Cancellation) (world : σ) : Except Error (Run σ) :=
  (setup.start s c world).map (Run.drive setup (Run.followUp setup) none)

def resume (setup : Setup σ) (s : Session) (answer : Answer) (c : Cancellation) (world : σ) :
    Except Error (Run σ) :=
  (startResumed s c world).map fun (r, pending) =>
    Run.drive setup (Run.followUp setup) (some (pending, answer)) r

end Setup

end Ensemble
