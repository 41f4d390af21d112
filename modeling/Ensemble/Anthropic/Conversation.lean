import Ensemble.Message.Codec

/-!
# Conversations in turns

The messages API takes the system messages apart from the others, and the others as turns in
which user and assistant alternate. So neighbours of one role are merged; the results of all
calls of an assistant turn end up in the user turn behind it.
-/

namespace Ensemble.Anthropic

open Json Json.Decode

inductive Block where
  | text (text : String)
  | toolUse (id name : String) (input : Json)
  | toolResult (callId content : String) (isError : Option Bool)

/-- A system message; `cached` ends a stretch to keep in the cache. -/
structure SystemBlock where
  text : String
  cached : Bool
deriving DecidableEq

inductive Speaker where
  | user
  | assistant
deriving DecidableEq

structure Turn where
  speaker : Speaker
  blocks : List Block

def systemBlock? (m : Message) : Option SystemBlock :=
  match m.role with
  | .system => some ⟨m.content, m.checkpoint⟩
  | _ => none

/-- The arguments of a call as an object; an empty one if they are malformed. -/
def inputOf (c : ToolCall) : Json :=
  match c.parseArguments with
  | .ok input => input
  | .error _ => .object []

/-- Who says a message, and what there is to say. System messages are said by nobody. -/
def spoken? (m : Message) : Option (Speaker × List Block) :=
  match m.role with
  | .system => none
  | .user => some (.user, [.text m.content])
  | .assistant =>
    some (.assistant, (if m.content.isEmpty then [] else [.text m.content])
      ++ m.calls.map fun c => .toolUse c.id c.name (inputOf c))
  | .tool => some (.user, [.toolResult (m.toolCallId.getD "") m.content none])

def joinTurn (speaker : Speaker) (blocks : List Block) (turns : List Turn) : List Turn :=
  match turns with
  | t :: rest =>
    if t.speaker = speaker then ⟨speaker, blocks ++ t.blocks⟩ :: rest else ⟨speaker, blocks⟩ :: turns
  | [] => [⟨speaker, blocks⟩]

/-- The turns of a conversation. A message that says nothing takes no turn. -/
def turns : List Message → List Turn
  | [] => []
  | m :: rest =>
    match spoken? m with
    | none | some (_, []) => turns rest
    | some (speaker, blocks) => joinTurn speaker blocks (turns rest)

def systemBlocks (messages : List Message) : List SystemBlock := messages.filterMap systemBlock?

namespace Block

def toJson : Block → Json
  | .text t => .object [("type", .text "text"), ("text", .text t)]
  | .toolUse id name input =>
    .object [("type", .text "tool_use"), ("id", .text id), ("name", .text name), ("input", input)]
  | .toolResult callId content isError =>
    .object ([("type", .text "tool_result"), ("tool_use_id", .text callId),
      ("content", .text content)] ++ whenSome "is_error" .bool isError)

def decode : Decoder Block :=
  tagged "internally tagged enum ContentBlock" "type" [
    ("text", record "struct variant ContentBlock::Text" (Block.text <$> .required "text" Decode.text)),
    ("tool_use", record "struct variant ContentBlock::ToolUse"
      (toolUse <$> .required "id" Decode.text <*> .required "name" Decode.text
        <*> .required "input" any)),
    ("tool_result", record "struct variant ContentBlock::ToolResult"
      (toolResult <$> .required "tool_use_id" Decode.text <*> .required "content" Decode.text
        <*> .nullable "is_error" bool))]

end Block

def SystemBlock.toJson (b : SystemBlock) : Json :=
  .object ([("type", .text "text"), ("text", .text b.text)]
    ++ if b.cached then [("cache_control", .object [("type", .text "ephemeral")])] else [])

def Speaker.name : Speaker → String
  | .user => "user"
  | .assistant => "assistant"

def Turn.toJson (t : Turn) : Json :=
  .object [("role", .text t.speaker.name), ("content", .array (t.blocks.map Block.toJson))]

end Ensemble.Anthropic
