/-!
# UTF-8

Decoding is a fold over bytes. It yields the characters and, where the bytes are malformed, how
many of them belong together: the longest start of a well-formed sequence, or a single byte.
What is left waiting at the end is an incomplete sequence.
-/

namespace Ensemble.Text.Utf8

/-- A decoded piece and the number of bytes it took. -/
inductive Piece where
  | char (c : Char) (size : Nat)
  | malformed (size : Nat)
  | incomplete (size : Nat)
deriving DecidableEq

def Piece.size : Piece → Nat
  | .char _ n => n
  | .malformed n => n
  | .incomplete n => n

/-- A sequence part way through: the range the next byte must lie in, how many bytes follow that
one, the bits so far and the bytes so far. -/
structure Partial where
  low : UInt8
  high : UInt8
  more : Nat
  bits : Nat
  size : Nat

abbrev State := Option Partial

def bitsOf (b : UInt8) (modulus : Nat) : Nat := b.toNat % modulus

def start (b : UInt8) : State × List Piece :=
  if b < 0x80 then (none, [.char (Char.ofNat b.toNat) 1])
  else if b < 0xC2 then (none, [.malformed 1])
  else if b < 0xE0 then (some ⟨0x80, 0xBF, 0, bitsOf b 32, 1⟩, [])
  else if b = 0xE0 then (some ⟨0xA0, 0xBF, 1, 0, 1⟩, [])
  else if b = 0xED then (some ⟨0x80, 0x9F, 1, bitsOf b 16, 1⟩, [])
  else if b < 0xF0 then (some ⟨0x80, 0xBF, 1, bitsOf b 16, 1⟩, [])
  else if b = 0xF0 then (some ⟨0x90, 0xBF, 2, 0, 1⟩, [])
  else if b < 0xF4 then (some ⟨0x80, 0xBF, 2, bitsOf b 8, 1⟩, [])
  else if b = 0xF4 then (some ⟨0x80, 0x8F, 2, bitsOf b 8, 1⟩, [])
  else (none, [.malformed 1])

def step (state : State) (b : UInt8) : State × List Piece :=
  match state with
  | none => start b
  | some p =>
    if p.low ≤ b ∧ b ≤ p.high then
      let bits := p.bits * 64 + bitsOf b 64
      match p.more with
      | 0 => (none, [.char (Char.ofNat bits) (p.size + 1)])
      | more + 1 => (some ⟨0x80, 0xBF, more, bits, p.size + 1⟩, [])
    else
      let (next, pieces) := start b
      (next, .malformed p.size :: pieces)

def finish : State → List Piece
  | none => []
  | some p => [.incomplete p.size]

/-- The pieces so far (backwards) and the sequence part way through. -/
structure Decoder where
  state : State
  read : List Piece

def Decoder.step (d : Decoder) (b : UInt8) : Decoder :=
  let (next, pieces) := Utf8.step d.state b
  ⟨next, pieces.reverse ++ d.read⟩

def Decoder.finish (d : Decoder) : List Piece := d.read.reverse ++ Utf8.finish d.state

def pieces (bytes : List UInt8) : List Piece := (bytes.foldl Decoder.step ⟨none, []⟩).finish

inductive Flaw where
  | malformed (size index : Nat)
  | incomplete (index : Nat)
deriving DecidableEq

def Flaw.message : Flaw → String
  | .malformed size index => s!"invalid utf-8 sequence of {size} bytes from index {index}"
  | .incomplete index => s!"incomplete utf-8 byte sequence from index {index}"

def firstFlaw? (index : Nat) : List Piece → Option Flaw
  | [] => none
  | .char _ n :: ps => firstFlaw? (index + n) ps
  | .malformed n :: _ => some (.malformed n index)
  | .incomplete _ :: _ => some (.incomplete index)

/-- A piece that is no character reads as the replacement character. -/
def Piece.shown : Piece → Char
  | .char c _ => c
  | _ => '\uFFFD'

/-- All the characters, or the first flaw. -/
def decode (bytes : List UInt8) : Except Flaw String :=
  let ps := pieces bytes
  match firstFlaw? 0 ps with
  | some flaw => .error flaw
  | none => .ok (String.ofList (ps.map Piece.shown))

/-- Every malformed or incomplete sequence reads as one replacement character. -/
def decodeLossy (bytes : List UInt8) : String := String.ofList ((pieces bytes).map Piece.shown)

def encode (s : String) : List UInt8 := s.toUTF8.data.toList

end Ensemble.Text.Utf8
