import Ensemble.EventStream
import Ensemble.Json.Decode
import Ensemble.Model.Basic

/-!
# Streamed replies

A reply comes as frames with JSON data. The reader keeps the tool use that is open, the usage and
the reason to stop; it passes over frames it does not know and data it cannot decode.
-/

namespace Ensemble.Anthropic

open Json Json.Decode
open Model (Delta)

structure Counts where
  input : UInt64
  output : UInt64
  cacheWrite : Option UInt64
  cacheRead : Option UInt64

def Counts.decode : Decoder Counts :=
  record "token counts" (Counts.mk <$> .defaulted "input_tokens" 0 word64
    <*> .defaulted "output_tokens" 0 word64
    <*> .nullable "cache_creation_input_tokens" word64
    <*> .nullable "cache_read_input_tokens" word64)

def Counts.usage (c : Counts) : Usage :=
  ⟨c.input, c.output, c.cacheRead.getD 0, c.cacheWrite.getD 0⟩

def decodeStart : Decoder Counts :=
  record "message start" (.required "message"
    (record "message" (.required "usage" Counts.decode)))

/-- The identifier and name of a tool use; other blocks have none. -/
def decodeBlock : Decoder (Option (String × String)) :=
  tagged "content block" "type" [
    ("tool_use", record "tool use"
      ((fun id name => some (id, name)) <$> .required "id" text <*> .required "name" text)),
    ("text", record "text"
      ((fun _ => none) <$> .required "text" text)),
    ("thinking", record "thinking"
      ((fun _ => none) <$> .required "thinking" text))]

def decodeBlockStart : Decoder (Option (String × String)) :=
  record "block start" ((fun _ block => block) <$> .required "index" word32
    <*> .required "content_block" decodeBlock)

inductive Fragment where
  | text (text : String)
  | thinking (text : String)
  | input (json : String)
  | signature

def Fragment.decode : Decoder Fragment :=
  tagged "fragment" "type" [
    ("text_delta", record "text fragment"
      (Fragment.text <$> .required "text" Decode.text)),
    ("thinking_delta", record "thinking fragment"
      (thinking <$> .required "thinking" Decode.text)),
    ("input_json_delta", record "input fragment"
      (input <$> .required "partial_json" Decode.text)),
    ("signature_delta", record "signature fragment"
      ((fun _ => signature) <$> .required "signature" Decode.text))]

def decodeBlockDelta : Decoder Fragment :=
  record "block fragment" ((fun _ fragment => fragment) <$> .required "index" word32
    <*> .required "delta" Fragment.decode)

def decodeMessageDelta : Decoder (Option String × Option Counts) :=
  record "message change" (Prod.mk
    <$> .required "delta" (record "message end" (.nullable "stop_reason" text))
    <*> .nullable "usage" Counts.decode)

def decodeError : Decoder String :=
  record "error" (.required "error"
    (record "error detail" ((fun _ message => message) <$> .required "type" text
      <*> .required "message" text)))

abbrev Item := Except ModelError Delta

structure Reading where
  openCall : Option String := none
  usage : Usage := .zero
  stopReason : Option String := none
deriving DecidableEq

namespace Reading

def opened (r : Reading) : Option (String × String) → Reading × List Item
  | some (id, name) => ({ r with openCall := some id }, [.ok (.callStart id name)])
  | none => (r, [])

def fragment (r : Reading) : Fragment → List Item
  | .text t => [.ok (.text t)]
  | .thinking t => [.ok (.thinking t)]
  | .input json =>
    match r.openCall with
    | some id => [.ok (.callDelta id json)]
    | none => []
  | .signature => []

/-- Any end of a block ends the call that is open. -/
def close (r : Reading) : Reading × List Item :=
  match r.openCall with
  | some id => ({ r with openCall := none }, [.ok (.callEnd id)])
  | none => (r, [])

/-- A later frame adds to what is known, and never takes back. -/
def note (r : Reading) (reason : Option String) (counts : Option Counts) : Reading :=
  { r with
    stopReason := reason.or r.stopReason
    usage := match counts with
      | some c => { r.usage with output := c.output }
      | none => r.usage }

def finish (r : Reading) : Reading × List Item :=
  ({ r with stopReason := none }, [.ok (.done (some (r.stopReason.getD "end_turn")) (some r.usage))])

def take (r : Reading) (event data : String) : Reading × List Item :=
  match event with
  | "message_start" =>
    match ofText decodeStart data with
    | .ok counts => ({ r with usage := counts.usage }, [])
    | .error _ => (r, [])
  | "content_block_start" =>
    match ofText decodeBlockStart data with
    | .ok block => r.opened block
    | .error _ => (r, [])
  | "content_block_delta" =>
    match ofText decodeBlockDelta data with
    | .ok fragment => (r, r.fragment fragment)
    | .error _ => (r, [])
  | "content_block_stop" => r.close
  | "message_delta" =>
    match ofText decodeMessageDelta data with
    | .ok (reason, counts) => (r.note reason counts, [])
    | .error _ => (r, [])
  | "message_stop" => r.finish
  | "error" =>
    match ofText decodeError data with
    | .ok message => (r, [.error (.stream message)])
    | .error _ => (r, [])
  | _ => (r, [])

/-- Takes the bytes of a frame. One without data says nothing. -/
def frame (r : Reading) (bytes : List UInt8) : Reading × List Item :=
  match EventStream.Frame.decode bytes with
  | .error flaw => (r, [.error (.invalidResponse ("event is not UTF-8: " ++ flaw.message))])
  | .ok f => if f.data.isEmpty then (r, []) else r.take f.event f.data

end Reading

/-- Reads bytes as they come; those of the frame that is not complete yet wait in the buffer. -/
structure Reader where
  buffer : List UInt8 := []
  reading : Reading := {}

namespace Reader

def drain (r : Reader) : Reader × List Item :=
  match _h : EventStream.frameEnd? r.buffer with
  | none => (r, [])
  | some size =>
    let (reading, items) := r.reading.frame (r.buffer.take size)
    let (r, rest) := drain ⟨r.buffer.drop (size + 2), reading⟩
    (r, items ++ rest)
termination_by r.buffer.length
decreasing_by
  have := EventStream.frameEnd?_le _h
  simp only [List.length_drop]
  omega

def feed (r : Reader) (chunk : List UInt8) : Reader × List Item :=
  drain { r with buffer := r.buffer ++ chunk }

def read (r : Reader) : List (List UInt8) → List Item
  | [] => []
  | chunk :: rest =>
    let (r, items) := r.feed chunk
    items ++ r.read rest

end Reader

def items (chunks : List (List UInt8)) : List Item := Reader.read {} chunks

end Ensemble.Anthropic
