import Ensemble.Json.Error
import Ensemble.Json.Number
import Ensemble.Text.Digits

/-!
# JSON tokens

The lexer is a fold over the characters of a text: `Mode` says inside what it is, and each step
may complete tokens. Every text has tokens. A malformed token says what is wrong with it and is
the last that matters.
-/

namespace Ensemble.Json

inductive Lexeme where
  | openArray
  | closeArray
  | openObject
  | closeObject
  | colon
  | comma
  | null
  | bool (b : Bool)
  /-- `none` is a number out of range. -/
  | number (n : Option Number)
  /-- `flaw` is an unpaired surrogate; only a reader who skips the text overlooks it. -/
  | text (flaw : Option ReadError) (body : Except ReadError String)
  | malformed (e : ReadError)
  | stray
  | endOfText

structure Token where
  lexeme : Lexeme
  place : Position

/-- Where a number may go on from its last character. -/
inductive NumberPhase where
  | sign
  | zero
  | whole
  | point
  | fraction
  | mark
  | markSign
  | exponent
deriving DecidableEq

/-- Inside a quoted text: what has been read (backwards), the first flaw, and a leading surrogate
that waits for its partner. -/
structure TextState where
  read : List Char
  flaw : Option ReadError
  leading : Option Nat

inductive Mode where
  | between
  | word (rest : List Char) (lexeme : Lexeme) (start : Position)
  | number (phase : NumberPhase) (text : NumberText) (start : Position)
  | text (s : TextState) (start : Position)
  | escape (s : TextState) (start : Position)
  | hex (digits : List Char) (bytes : Nat) (s : TextState) (start : Position)

/-- The place of a character, given the place before it. -/
def Position.of (before : Position) (c : Char) : Position :=
  if c = '\n' then ⟨before.line + 1, 0⟩ else ⟨before.line, before.column + 1⟩

def Position.past (before : Position) (c : Char) : Position :=
  if c = '\n' then ⟨before.line + 1, 0⟩ else ⟨before.line, before.column + c.utf8Size⟩

def isJsonBlank (c : Char) : Bool := c == ' ' || c == '\n' || c == '\t' || c == '\r'

def digitOf (c : Char) : Nat := c.toNat - 48

def beginToken (c : Char) (place : Position) : Mode × List Token :=
  let one (l : Lexeme) : Mode × List Token := (.between, [⟨l, place⟩])
  if isJsonBlank c then (.between, [])
  else if c = '[' then one .openArray
  else if c = ']' then one .closeArray
  else if c = '\x7b' then one .openObject
  else if c = '\x7d' then one .closeObject
  else if c = ':' then one .colon
  else if c = ',' then one .comma
  else if c = '"' then (.text ⟨[], none, none⟩ place, [])
  else if c = 'n' then (.word ['u', 'l', 'l'] .null place, [])
  else if c = 't' then (.word ['r', 'u', 'e'] (.bool true) place, [])
  else if c = 'f' then (.word ['a', 'l', 's', 'e'] (.bool false) place, [])
  else if c = '-' then (.number .sign ⟨true, [], none, none⟩ place, [])
  else if c = '0' then (.number .zero ⟨false, [0], none, none⟩ place, [])
  else if c.isDigit then (.number .whole ⟨false, [digitOf c], none, none⟩ place, [])
  else one .stray

def NumberText.pushWhole (t : NumberText) (d : Nat) : NumberText := { t with whole := t.whole ++ [d] }

def NumberText.pushFraction (t : NumberText) (d : Nat) : NumberText :=
  { t with fraction := some (t.fraction.getD [] ++ [d]) }

def NumberText.pushExponent (t : NumberText) (d : Nat) : NumberText :=
  { t with exponent := t.exponent.map fun (down, ds) => (down, ds ++ [d]) }

/-- The number as far as it goes, before a character that does not belong to it. -/
def endNumber (phase : NumberPhase) (t : NumberText) (start fault : Position) (atEnd : Bool) : Token :=
  match phase with
  | .zero | .whole | .fraction | .exponent => ⟨.number t.toNumber?, start⟩
  | _ => ⟨.malformed ⟨if atEnd then .endInValue else .invalidNumber, fault⟩, start⟩

inductive NumberStep where
  | more (phase : NumberPhase) (t : NumberText)
  | malformed
  | ends

def stepNumber (phase : NumberPhase) (t : NumberText) (c : Char) : NumberStep :=
  let isMark := c == 'e' || c == 'E'
  match phase with
  | .sign =>
    if c = '0' then .more .zero (t.pushWhole 0)
    else if c.isDigit then .more .whole (t.pushWhole (digitOf c))
    else .malformed
  | .zero =>
    if c.isDigit then .malformed
    else if c = '.' then .more .point t
    else if isMark then .more .mark { t with exponent := some (false, []) }
    else .ends
  | .whole =>
    if c.isDigit then .more .whole (t.pushWhole (digitOf c))
    else if c = '.' then .more .point t
    else if isMark then .more .mark { t with exponent := some (false, []) }
    else .ends
  | .point => if c.isDigit then .more .fraction (t.pushFraction (digitOf c)) else .malformed
  | .fraction =>
    if c.isDigit then .more .fraction (t.pushFraction (digitOf c))
    else if isMark then .more .mark { t with exponent := some (false, []) }
    else .ends
  | .mark =>
    if c.isDigit then .more .exponent (t.pushExponent (digitOf c))
    else if c = '+' then .more .markSign t
    else if c = '-' then .more .markSign { t with exponent := some (true, []) }
    else .malformed
  | .markSign => if c.isDigit then .more .exponent (t.pushExponent (digitOf c)) else .malformed
  | .exponent => if c.isDigit then .more .exponent (t.pushExponent (digitOf c)) else .ends

def TextState.mark (s : TextState) (fault : ReadFault) (place : Position) : TextState :=
  { s with flaw := s.flaw.or (some ⟨fault, place⟩), leading := none }

/-- A surrogate that waits finds no escape behind it. -/
def TextState.settle (s : TextState) (place : Position) : TextState :=
  if s.leading.isSome then s.mark .surrogateCutShort place else s

def TextState.push (s : TextState) (c : Char) : TextState := { s with read := c :: s.read }

/-- The code unit of a hexadecimal escape joins a waiting surrogate, waits itself, or stands for
its character. -/
def TextState.pushUnit (s : TextState) (unit : Nat) (place : Position) : TextState :=
  let isTrailing := 0xDC00 ≤ unit && unit ≤ 0xDFFF
  let isLeading := 0xD800 ≤ unit && unit ≤ 0xDBFF
  match s.leading with
  | some high =>
    if isTrailing then
      { s with leading := none }.push (Char.ofNat (0x10000 + (high - 0xD800) * 0x400 + (unit - 0xDC00)))
    else s.mark .loneSurrogate place
  | none =>
    if isTrailing then s.mark .loneSurrogate place
    else if isLeading then { s with leading := some unit }
    else s.push (Char.ofNat unit)

def simpleEscape? (c : Char) : Option Char :=
  if c = '"' then some '"'
  else if c = '\\' then some '\\'
  else if c = '/' then some '/'
  else if c = 'b' then some '\x08'
  else if c = 'f' then some '\x0c'
  else if c = 'n' then some '\n'
  else if c = 'r' then some '\r'
  else if c = 't' then some '\t'
  else none

def textToken (s : TextState) (body : Except ReadError String) (start : Position) : Token :=
  ⟨.text s.flaw body, start⟩

def stepMode (mode : Mode) (c : Char) (place : Position) : Mode × List Token :=
  match mode with
  | .between => beginToken c place
  | .word [] lexeme start =>
    let (next, tokens) := beginToken c place
    (next, ⟨lexeme, start⟩ :: tokens)
  | .word (w :: rest) lexeme start =>
    if c = w then
      match rest with
      | [] => (.between, [⟨lexeme, start⟩])
      | _ => (.word rest lexeme start, [])
    else (.between, [⟨.malformed ⟨.expectedLiteral, place⟩, start⟩])
  | .number phase t start =>
    match stepNumber phase t c with
    | .more phase t => (.number phase t start, [])
    | .malformed => (.between, [⟨.malformed ⟨.invalidNumber, place⟩, start⟩])
    | .ends =>
      let (next, tokens) := beginToken c place
      (next, endNumber phase t start place false :: tokens)
  | .text s start =>
    if c = '\\' then (.escape s start, [])
    else
      let s := s.settle place
      if c = '"' then (.between, [textToken s (.ok (String.ofList s.read.reverse)) start])
      else if c.toNat < 0x20 then
        (.between, [textToken s (.error ⟨.controlCharacter, place⟩) start])
      else (.text (s.push c) start, [])
  | .escape s start =>
    if c = 'u' then (.hex [] 0 s start, [])
    else
      let s := s.settle place
      match simpleEscape? c with
      | some d => (.text (s.push d) start, [])
      | none => (.between, [textToken s (.error ⟨.invalidEscape, place⟩) start])
  | .hex digits bytes s start =>
    let digits := digits ++ [c]
    let bytes := bytes + c.utf8Size
    if bytes < 4 then (.hex digits bytes s start, [])
    else
      match Text.hexNumber? digits with
      | some unit => (.text (s.pushUnit unit place) start, [])
      | none => (.between, [textToken s (.error ⟨.invalidEscape, place⟩) start])

def finishMode (mode : Mode) (place : Position) : List Token :=
  let stop : Token := ⟨.endOfText, place⟩
  match mode with
  | .between => [stop]
  | .word [] lexeme start => [⟨lexeme, start⟩, stop]
  | .word _ _ start => [⟨.malformed ⟨.endInValue, place⟩, start⟩, stop]
  | .number phase t start => [endNumber phase t start place true, stop]
  | .text s start | .escape s start | .hex _ _ s start =>
    [textToken s (.error ⟨.endInText, place⟩) start, stop]

/-- The lexer part way through a text: the tokens so far (backwards) and the place behind the last
character. -/
structure Lexer where
  mode : Mode
  place : Position
  read : List Token

def Lexer.start : Lexer := ⟨.between, ⟨1, 0⟩, []⟩

def Lexer.step (l : Lexer) (c : Char) : Lexer :=
  let (next, tokens) := stepMode l.mode c (l.place.of c)
  ⟨next, l.place.past c, tokens.reverse ++ l.read⟩

def Lexer.finish (l : Lexer) : List Token := l.read.reverse ++ finishMode l.mode l.place

def tokens (cs : List Char) : List Token := (cs.foldl Lexer.step Lexer.start).finish

end Ensemble.Json
