import Ensemble.Json.Lexer

/-!
# JSON documents

A document keeps the values of a text in the order they stand in, repeated members included, up
to the place where the text stops being JSON: an array or object cut short there carries the
error in its `tail`. So a reader that walks a document in order meets the first thing that is
wrong, whether it is wrong as JSON or not what the reader wants.
-/

namespace Ensemble.Json

inductive Doc where
  | null
  | bool (b : Bool)
  | number (n : Number)
  | text (s : String)
  | array (items : List Doc) (tail : Option ReadError)
  | object (members : List (Except ReadError String × Doc)) (tail : Option ReadError)
  /-- Refused when it is read, accepted when it is skipped. -/
  | guarded (e : ReadError) (inner : Doc)
  | broken (e : ReadError)

instance : Inhabited Doc := ⟨.null⟩

structure Document where
  root : Doc
  trailing : Option ReadError

namespace Doc

/-- A container part way through, its content backwards. An object holds the name whose value is
being read. -/
inductive Frame where
  | array (items : List Doc) (place : Position)
  | object (members : List (Except ReadError String × Doc)) (name : Option (Except ReadError String))
      (place : Position)

inductive Expected where
  | value
  | firstItem
  | firstName
  | item
  | name
  | colon
  | next
deriving DecidableEq

/-- Containers may be nested this deep. -/
def depthLimit : Nat := 127

/-- The container of a frame that has `outer` frames around it. -/
def closeFrame (tail : Option ReadError) (outer : Nat) : Frame → Doc
  | .array items place =>
    let d := Doc.array items.reverse tail
    if depthLimit ≤ outer then .guarded ⟨.tooDeep, place⟩ d else d
  | .object members _ place =>
    let d := Doc.object members.reverse tail
    if depthLimit ≤ outer then .guarded ⟨.tooDeep, place⟩ d else d

def Frame.add (d : Doc) : Frame → Frame
  | .array items place => .array (d :: items) place
  | .object members (some name) place => .object ((name, d) :: members) none place
  | .object members none place => .object members none place

/-- The document when reading stops with `e`. -/
def cutShort (e : ReadError) : List Frame → Option Doc → Doc
  | [], none => .broken e
  | [], some d => d
  | frame :: outer, inner =>
    let filled := match inner, frame with
      | some d, frame => frame.add d
      | none, .object members (some name) place => .object ((name, .broken e) :: members) none place
      | none, frame => frame
    cutShort e outer (some (closeFrame (some e) outer.length filled))

/-- The value a token stands for by itself. -/
def ofLexeme : Token → Option Doc
  | ⟨.null, _⟩ => some .null
  | ⟨.bool b, _⟩ => some (.bool b)
  | ⟨.number (some n), _⟩ => some (.number n)
  | ⟨.number none, place⟩ => some (.guarded ⟨.numberOutOfRange, place⟩ .null)
  | ⟨.text none (.ok s), _⟩ => some (.text s)
  | ⟨.text (some flaw) (.ok s), _⟩ => some (.guarded flaw (.text s))
  | _ => none

def valueError : Token → ReadError
  | ⟨.malformed e, _⟩ => e
  | ⟨.text flaw (.error e), _⟩ => flaw.getD e
  | ⟨.endOfText, place⟩ => ⟨.endInValue, place⟩
  | ⟨_, place⟩ => ⟨.expectedValue, place⟩

def trailing? : List Token → Option ReadError
  | ⟨.endOfText, _⟩ :: _ => none
  | ⟨_, place⟩ :: _ => some ⟨.trailingCharacters, place⟩
  | [] => none

inductive Step where
  | go (frames : List Frame) (expected : Expected)
  | done (root : Doc)
  | stop (e : ReadError)

def complete (d : Doc) : List Frame → Step
  | [] => .done d
  | frame :: outer => .go (frame.add d :: outer) .next

def beginValue (t : Token) (frames : List Frame) : Step :=
  match t.lexeme with
  | .openArray => .go (.array [] t.place :: frames) .firstItem
  | .openObject => .go (.object [] none t.place :: frames) .firstName
  | _ =>
    match ofLexeme t with
    | some d => complete d frames
    | none => .stop (valueError t)

def close (frame : Frame) (outer : List Frame) : Step :=
  complete (closeFrame none outer.length frame) outer

def beginName (t : Token) (frame : Frame) (outer : List Frame) (atEnd : ReadFault) : Step :=
  match t.lexeme, frame with
  | .text flaw (.ok s), .object members _ place =>
    let name := match flaw with
      | none => Except.ok s
      | some e => Except.error e
    .go (.object members (some name) place :: outer) .colon
  | .text flaw (.error e), _ => .stop (flaw.getD e)
  | .endOfText, _ => .stop ⟨atEnd, t.place⟩
  | _, _ => .stop ⟨.keyNotText, t.place⟩

def stepToken (t : Token) (expected : Expected) (frames : List Frame) : Step :=
  match expected, frames with
  | .value, _ => beginValue t frames
  | .firstItem, frame :: outer =>
    match t.lexeme with
    | .closeArray => close frame outer
    | .endOfText => .stop ⟨.endInArray, t.place⟩
    | _ => beginValue t frames
  | .item, _ =>
    match t.lexeme with
    | .closeArray => .stop ⟨.trailingComma, t.place⟩
    | _ => beginValue t frames
  | .firstName, frame :: outer =>
    match t.lexeme with
    | .closeObject => close frame outer
    | _ => beginName t frame outer .endInObject
  | .name, frame :: outer =>
    match t.lexeme with
    | .closeObject => .stop ⟨.trailingComma, t.place⟩
    | _ => beginName t frame outer .endInValue
  | .colon, _ =>
    match t.lexeme with
    | .colon => .go frames .value
    | .endOfText => .stop ⟨.endInObject, t.place⟩
    | _ => .stop ⟨.expectedColon, t.place⟩
  | .next, .array items place :: outer =>
    match t.lexeme with
    | .closeArray => close (.array items place) outer
    | .comma => .go frames .item
    | .endOfText => .stop ⟨.endInArray, t.place⟩
    | _ => .stop ⟨.expectedArrayEnd, t.place⟩
  | .next, .object members name place :: outer =>
    match t.lexeme with
    | .closeObject => close (.object members name place) outer
    | .comma => .go frames .name
    | .endOfText => .stop ⟨.endInObject, t.place⟩
    | _ => .stop ⟨.expectedObjectEnd, t.place⟩
  | _, [] => beginValue t frames

def ofTokens (frames : List Frame) (expected : Expected) : List Token → Document
  | [] => ⟨cutShort ⟨.endInValue, ⟨1, 0⟩⟩ frames none, none⟩
  | t :: rest =>
    match stepToken t expected frames with
    | .go frames expected => ofTokens frames expected rest
    | .done root => ⟨root, trailing? rest⟩
    | .stop e => ⟨cutShort e frames none, none⟩

end Doc

def Document.read (s : String) : Document := Doc.ofTokens [] .value (tokens s.toList)

namespace Doc

mutual

def ofJson : Json → Doc
  | .null => .null
  | .bool b => .bool b
  | .number n => .number n
  | .text s => .text s
  | .array items => .array (ofItems items) none
  | .object members => .object (ofMembers members) none

def ofItems : List Json → List Doc
  | [] => []
  | v :: rest => ofJson v :: ofItems rest

def ofMembers : List (String × Json) → List (Except ReadError String × Doc)
  | [] => []
  | (name, v) :: rest => (.ok name, ofJson v) :: ofMembers rest

end

def tailError : Option ReadError → Except ReadError Unit
  | none => .ok ()
  | some e => .error e

mutual

/-- The value of a document. Members are sorted, and of members with one name the last counts. -/
def toJson : Doc → Except ReadError Json
  | .null => .ok .null
  | .bool b => .ok (.bool b)
  | .number n => .ok (.number n)
  | .text s => .ok (.text s)
  | .array items tail => do
    let vs ← toItems items
    tailError tail
    return .array vs
  | .object members tail => do
    let ms ← toMembers members
    tailError tail
    return .sorted ms
  | .guarded e _ => .error e
  | .broken e => .error e

def toItems : List Doc → Except ReadError (List Json)
  | [] => .ok []
  | d :: rest => do
    let v ← toJson d
    return v :: (← toItems rest)

def toMembers : List (Except ReadError String × Doc) → Except ReadError (List (String × Json))
  | [] => .ok []
  | (name, d) :: rest => do
    let n ← name
    let v ← toJson d
    return (n, v) :: (← toMembers rest)

end

mutual

/-- Passes over a document without reading it. -/
def skip : Doc → Except ReadError Unit
  | .array items tail => do
    skipItems items
    tailError tail
  | .object members tail => do
    skipMembers members
    tailError tail
  | .guarded _ inner => skip inner
  | .broken e => .error e
  | _ => .ok ()

def skipItems : List Doc → Except ReadError Unit
  | [] => .ok ()
  | d :: rest => do
    skip d
    skipItems rest

def skipMembers : List (Except ReadError String × Doc) → Except ReadError Unit
  | [] => .ok ()
  | (_, d) :: rest => do
    skip d
    skipMembers rest

end

end Doc

end Ensemble.Json
