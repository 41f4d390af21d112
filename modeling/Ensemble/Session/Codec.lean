import Ensemble.Message.Codec
import Ensemble.Session.Basic
import Ensemble.Time.Rfc3339

/-!
# Sessions as JSON

Fields that are not set are written as null.
-/

namespace Ensemble

open Json Json.Decode

namespace Time.Timestamp

def toJson (t : Timestamp) : Json := .text t.render

def decode : Decoder Timestamp := fun src d =>
  match textAs "an RFC 3339 formatted date and time string" src d with
  | .error e => .error e
  | .ok s =>
    match parse s.toList with
    | .ok t => .ok t
    | .error fault => .error (.data (.custom fault.message))

end Time.Timestamp

namespace Authored

def members (m : Authored) : List (String × Json) :=
  [("agent_name", .text m.author), ("message", m.message.toJson), ("created_at", m.createdAt.toJson)]

def toJson (m : Authored) : Json := .object m.members

def decode : Decoder Authored :=
  record "struct AgentMessage" (Authored.mk <$> .required "agent_name" text
    <*> .required "message" Message.decode <*> .required "created_at" Time.Timestamp.decode)

end Authored

namespace Session

def Item.toJson : Item → Json
  | .message m => .object (("kind", .text "message") :: m.members)
  | .summary content createdAt =>
    .object [("kind", .text "summary"), ("summary", .text content), ("created_at", createdAt.toJson)]

def Item.decode : Decoder Item :=
  tagged "internally tagged enum SessionItem" "kind" [
    ("message", fun src d => (Authored.decode src d).map .message),
    ("summary", record "struct variant SessionItem::Summary"
      (Item.summary <$> .required "summary" text
        <*> .required "created_at" Time.Timestamp.decode))]

def Permissions.toJson (p : Permissions) : Json :=
  .object [("allow", .texts p.allow), ("deny", .texts p.deny)]

def Permissions.decode : Decoder Permissions :=
  record "struct PermissionsConfig" (Permissions.mk <$> .defaulted "allow" [] (list text)
    <*> .defaulted "deny" [] (list text))

def Pending.toJson (p : Pending) : Json :=
  .object [("agent", .text p.agent), ("tool_calls", .array (p.calls.map ToolCall.toJson))]

def Pending.decode : Decoder Pending :=
  record "struct PendingElicitation" (Pending.mk <$> .required "agent" text
    <*> .required "tool_calls" (list ToolCall.decode))

def toJson (s : Session) : Json :=
  .object [
    ("id", .text s.id), ("title", .text s.title), ("created_at", s.createdAt.toJson),
    ("items", .array (s.items.map Item.toJson)), ("tools_approved", .bool s.toolsApproved),
    ("permissions", s.permissions.toJson), ("input_tokens", .nat s.inputTokens.toNat),
    ("output_tokens", .nat s.outputTokens.toNat), ("cost", .float s.cost),
    ("working_dir", .orNull .text s.workingDir), ("active_agent", .orNull .text s.activeAgent),
    ("pending", .orNull Pending.toJson s.pending)]

def decode : Decoder Session :=
  record "struct Session" (Session.mk <$> .required "id" text
    <*> .defaulted "title" "" text
    <*> .required "created_at" Time.Timestamp.decode
    <*> .defaulted "items" [] (list Item.decode)
    <*> .defaulted "tools_approved" false bool
    <*> .defaulted "permissions" {} Permissions.decode
    <*> .defaulted "input_tokens" 0 word64
    <*> .defaulted "output_tokens" 0 word64
    <*> .defaulted "cost" 0 float
    <*> .optional "working_dir" (textAs "path string")
    <*> .optional "active_agent" text
    <*> .optional "pending" Pending.decode)

end Session

end Ensemble
