import Ensemble.Posix.Arithmetic
import Ensemble.Text.Utf8

/-!
# Formatted output

What the commands that print texts do with escapes and directives.
-/

namespace Ensemble.Posix.Format

/-- Bytes with the complaints about arguments. `stops` tells that nothing more is to be written. -/
structure Piece where
  bytes : List UInt8 := []
  complaints : List String := []
  stops : Bool := false

def isOctal (c : Char) : Bool := '0' ≤ c && c ≤ '7'

/-- The byte of at most `limit` octal digits, and what follows them. -/
def octal (limit : Nat) (cs : List Char) : UInt8 × List Char :=
  let digits := (cs.take limit).takeWhile isOctal
  (UInt8.ofNat (digits.foldl (fun acc c => acc * 8 + (c.toNat - 48)) 0), cs.drop digits.length)

def control? : Char → Option UInt8
  | 'a' => some 7
  | 'b' => some 8
  | 'e' => some 27
  | 'f' => some 12
  | 'n' => some 10
  | 'r' => some 13
  | 't' => some 9
  | 'v' => some 11
  | '\\' => some 92
  | _ => none

/-- What stands behind a backslash. `zero` asks for a zero before octal digits, as in arguments. -/
def escape (zero : Bool) (cs : List Char) : List UInt8 × List Char :=
  match cs with
  | [] => ([92], [])
  | c :: rest =>
    match control? c with
    | some b => ([b], rest)
    | none =>
      if zero && c == '0' then
        let (b, r) := octal 3 rest
        ([b], r)
      else if !zero && isOctal c then
        let (b, r) := octal 3 cs
        ([b], r)
      else (92 :: Text.Utf8.encode (String.singleton c), rest)

def unescape (fuel : Nat) (cs : List Char) : Piece :=
  match fuel, cs with
  | 0, _ => {}
  | _, [] => {}
  | _, '\\' :: 'c' :: _ => { stops := true }
  | fuel + 1, '\\' :: rest =>
    let (bytes, r) := escape true rest
    let more := unescape fuel r
    { more with bytes := bytes ++ more.bytes }
  | fuel + 1, c :: rest =>
    let more := unescape fuel (rest.dropWhile (· != '\\'))
    let run := String.ofList (c :: rest.takeWhile (· != '\\'))
    { more with bytes := Text.Utf8.encode run ++ more.bytes }

/-- The arguments with blanks between them, and a line end unless the first is `-n`. -/
def echo (escapes : Bool) (arguments : List String) : List UInt8 :=
  let (line, arguments) := match arguments with
    | "-n" :: rest => (false, rest)
    | _ => (true, arguments)
  let text := " ".intercalate arguments
  let piece : Piece := if escapes then unescape (text.length + 1) text.toList
    else { bytes := Text.Utf8.encode text }
  piece.bytes ++ if line && !piece.stops then [10] else []

structure Directive where
  left : Bool := false
  zero : Bool := false
  plus : Bool := false
  space : Bool := false
  alternate : Bool := false
  width : Nat := 0
  precision : Option Nat := none

namespace Directive

def flags (d : Directive) : List Char → Directive × List Char
  | '-' :: r => flags { d with left := true } r
  | '0' :: r => flags { d with zero := true } r
  | '+' :: r => flags { d with plus := true } r
  | ' ' :: r => flags { d with space := true } r
  | '#' :: r => flags { d with alternate := true } r
  | cs => (d, cs)

def number (cs : List Char) : Nat × List Char :=
  ((String.ofList (cs.takeWhile Char.isDigit)).toNat?.getD 0, cs.dropWhile Char.isDigit)

/-- Everything between the sign of a directive and its letter. -/
def read (cs : List Char) : Directive × List Char :=
  let (d, cs) := flags {} cs
  let (width, cs) := number cs
  match cs with
  | '.' :: r =>
    let (precision, r) := number r
    ({ d with width, precision := some precision }, r)
  | _ => ({ d with width }, cs)

def pad (d : Directive) (bytes : List UInt8) : List UInt8 :=
  let blanks := List.replicate (d.width - bytes.length) 32
  if d.left then bytes ++ blanks else blanks ++ bytes

/-- Sign and digits in the width of the directive. -/
def padNumber (d : Directive) (sign digits : List Char) : List UInt8 :=
  let digits := List.replicate (d.precision.getD 0 - digits.length) '0' ++ digits
  let fill := if d.zero && !d.left && d.precision.isNone then
    List.replicate (d.width - sign.length - digits.length) '0' else []
  d.pad ((sign ++ fill ++ digits).map fun c => UInt8.ofNat c.toNat)

def signOf (d : Directive) (n : Int) : List Char :=
  if n < 0 then ['-'] else if d.plus then ['+'] else if d.space then [' '] else []

end Directive

/-- The number an argument stands for, with a complaint if it is none. -/
def numberOf (s : String) : Int × List String :=
  match s.toList with
  | [] => (0, [])
  | '\'' :: c :: _ => (c.toNat, [])
  | '"' :: c :: _ => (c.toNat, [])
  | cs =>
    match Arithmetic.number? s with
    | some n => (n, [])
    | none =>
      let (sign, body) := match cs with
        | '-' :: r => (['-'], r)
        | '+' :: r => ([], r)
        | r => ([], r)
      let digits := body.takeWhile Char.isDigit
      if digits.isEmpty then (0, [s ++ ": expected numeric value"])
      else ((Arithmetic.number? (String.ofList (sign ++ digits))).getD 0,
        [s ++ ": not completely converted"])

/-- A decimal text as a fraction: numerator, and how many places stand behind the point. -/
def decimal? (cs : List Char) : Option (Int × Nat) :=
  let (negative, body) := match cs with
    | '-' :: r => (true, r)
    | '+' :: r => (false, r)
    | r => (false, r)
  let before := body.takeWhile Char.isDigit
  let after := match body.dropWhile Char.isDigit with
    | '.' :: r => some r
    | [] => some []
    | _ => none
  after.bind fun places =>
    if places.all Char.isDigit && !(before.isEmpty && places.isEmpty) then
      let n : Int := ((String.ofList (before ++ places)).toNat?.getD 0 : Nat)
      some (if negative then -n else n, places.length)
    else none

/-- Fixed places; a half goes to the even neighbour. -/
def fixed (d : Directive) (n : Int) (scale : Nat) : List UInt8 :=
  let places := d.precision.getD 6
  let numerator := n.natAbs * Nat.pow 10 places
  let denominator := Nat.pow 10 scale
  let quotient := numerator / denominator
  let twice := 2 * (numerator % denominator)
  let rounded := if denominator < twice ∨ (twice = denominator ∧ quotient % 2 = 1) then quotient + 1
    else quotient
  let digits := Nat.toDigits 10 rounded
  let digits := List.replicate (places + 1 - digits.length) '0' ++ digits
  let whole := digits.take (digits.length - places)
  let text := whole ++ if places = 0 then [] else '.' :: digits.drop (digits.length - places)
  { d with precision := none }.padNumber (d.signOf n) text

def convert (d : Directive) (letter : Char) (argument : String) : Piece :=
  let whole (render : Int → List UInt8) : Piece :=
    let (n, complaints) := numberOf argument
    { bytes := render n, complaints }
  let unsigned (n : Int) : Nat := (n % 0x10000000000000000).toNat
  let based (base : Nat) (lead : List Char) (upper : Bool) (n : Int) : List UInt8 :=
    let digits := Nat.toDigits base (unsigned n)
    let digits := if upper then digits.map Char.toUpper else digits
    d.padNumber (if d.alternate then lead else []) digits
  let cut (bytes : List UInt8) := match d.precision with
    | some n => bytes.take n
    | none => bytes
  match letter with
  | 's' => { bytes := d.pad (cut (Text.Utf8.encode argument)) }
  | 'b' =>
    let p := unescape (argument.length + 1) argument.toList
    { p with bytes := d.pad (cut p.bytes) }
  | 'c' => { bytes := d.pad ((Text.Utf8.encode argument).take 1) }
  | 'd' => whole fun n => d.padNumber (d.signOf n) (Nat.toDigits 10 n.natAbs)
  | 'i' => whole fun n => d.padNumber (d.signOf n) (Nat.toDigits 10 n.natAbs)
  | 'u' => whole (based 10 [] false)
  | 'o' => whole (based 8 ['0'] false)
  | 'x' => whole (based 16 ['0', 'x'] false)
  | 'X' => whole (based 16 ['0', 'X'] true)
  | 'f' =>
    match decimal? argument.toList with
    | some (n, scale) => { bytes := fixed d n scale }
    | none =>
      { bytes := fixed d 0 0
        complaints := if argument.isEmpty then [] else [argument ++ ": expected numeric value"] }
  | _ => { complaints := ["%" ++ String.singleton letter ++ ": invalid directive"], stops := true }

structure Pass where
  piece : Piece := {}
  rest : List String
  used : Bool := false

def Pass.add (p : Pass) (more : Piece) : Pass :=
  { p with piece := { bytes := p.piece.bytes ++ more.bytes
                      complaints := p.piece.complaints ++ more.complaints
                      stops := more.stops } }

def pass (fuel : Nat) (p : Pass) (cs : List Char) : Pass :=
  match fuel with
  | 0 => p
  | fuel + 1 =>
    if p.piece.stops then p
    else
      match cs with
      | [] => p
      | '\\' :: rest =>
        let (bytes, r) := escape false rest
        pass fuel (p.add { bytes }) r
      | '%' :: '%' :: rest => pass fuel (p.add { bytes := [37] }) rest
      | '%' :: rest =>
        let (d, r) := Directive.read rest
        match r with
        | letter :: r =>
          let piece := convert d letter (p.rest.head?.getD "")
          pass fuel ({ p with rest := p.rest.tail, used := true }.add piece) r
        | [] => p.add { complaints := ["%: missing conversion character"], stops := true }
      | c :: rest =>
        let isPlain (c : Char) := c != '\\' && c != '%'
        let run := String.ofList (c :: rest.takeWhile isPlain)
        pass fuel (p.add { bytes := Text.Utf8.encode run }) (rest.dropWhile isPlain)

/-- The format is used again as long as there are arguments left. -/
def repeatPass (fuel : Nat) (format : List Char) (p : Pass) : Piece :=
  let p := pass (format.length + 1) { p with used := false } format
  match fuel with
  | 0 => p.piece
  | fuel + 1 =>
    if p.piece.stops || !p.used || p.rest.isEmpty then p.piece else repeatPass fuel format p

def printf (format : String) (arguments : List String) : Piece :=
  repeatPass arguments.length format.toList { rest := arguments }

end Ensemble.Posix.Format
