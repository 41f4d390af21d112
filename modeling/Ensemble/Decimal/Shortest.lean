import Ensemble.Decimal.Binary

/-!
# Shortest decimals

The decimal of a binary number is the one with the fewest digits among those that read back as
that number; of several, the nearest, and of two equally near ones the even one. A `Layout`
says how it is written down.
-/

namespace Ensemble.Decimal

/-- The number `digits * 10 ^ scale`. -/
structure Scaled where
  digits : Nat
  scale : Int
deriving DecidableEq

/-- A positive binary number with the reals that round to it, all over one denominator. -/
structure Interval where
  low : Nat
  mid : Nat
  high : Nat
  unit : Nat
  closed : Bool

def Interval.of (mantissa : Nat) (exponent : Int) (narrow : Bool) : Interval :=
  let up := Nat.pow 2 exponent.toNat
  let down := if narrow then 1 else 2
  { low := (4 * mantissa - down) * up
    mid := 4 * mantissa * up
    high := (4 * mantissa + 2) * up
    unit := 4 * Nat.pow 2 (-exponent).toNat
    closed := mantissa % 2 == 0 }

/-- The place of the first digit: the least `k` near the estimate with `mid / unit < 10 ^ k`. -/
def Interval.magnitude (i : Interval) : Int :=
  let guess : Int := ((i.mid.log2 : Int) - i.unit.log2) * 30103 / 100000 - 1
  let below (k : Int) : Bool := i.mid * Nat.pow 10 (-k).toNat < i.unit * Nat.pow 10 k.toNat
  if below guess then guess
  else if below (guess + 1) then guess + 1
  else if below (guess + 2) then guess + 2
  else guess + 3

def Interval.holds (i : Interval) (digits : Nat) (scale : Int) : Bool :=
  let x := digits * i.unit * Nat.pow 10 scale.toNat
  let low := i.low * Nat.pow 10 (-scale).toNat
  let high := i.high * Nat.pow 10 (-scale).toNat
  if i.closed then low ≤ x && x ≤ high else low < x && x < high

/-- The better of the two neighbours on the grid of multiples of `10 ^ scale`. -/
def Interval.onGrid (i : Interval) (scale : Int) : Option Nat :=
  let step := i.unit * Nat.pow 10 scale.toNat
  let mid := i.mid * Nat.pow 10 (-scale).toNat
  let floor := mid / step
  let rest := mid % step
  match i.holds floor scale, i.holds (floor + 1) scale with
  | true, true =>
    some (if rest * 2 < step ∨ (rest * 2 = step ∧ floor % 2 = 0) then floor else floor + 1)
  | true, false => some floor
  | false, true => some (floor + 1)
  | false, false => none

def Scaled.normal : Nat → Scaled → Scaled
  | 0, d => d
  | fuel + 1, d =>
    if d.digits ≠ 0 ∧ d.digits % 10 = 0 then normal fuel ⟨d.digits / 10, d.scale + 1⟩ else d

def Interval.search (i : Interval) (magnitude : Int) : Nat → Nat → Scaled
  | count, 0 => ⟨i.mid / i.unit, magnitude - count⟩
  | count, left + 1 =>
    match i.onGrid (magnitude - count) with
    | some digits => Scaled.normal 20 ⟨digits, magnitude - count⟩
    | none => search i magnitude (count + 1) left

def shortest (mantissa : Nat) (exponent : Int) (narrow : Bool) : Scaled :=
  if mantissa = 0 then ⟨0, 0⟩
  else
    let i := Interval.of mantissa exponent narrow
    i.search i.magnitude 1 17

/-- How a decimal is written: in places when the exponent of its first digit lies in a range, and
otherwise with that exponent. The texts are for what is no number. -/
structure Layout where
  places : Int → Bool
  exponentMark : Int → String
  nan : Bool → String
  infinity : Bool → String

def digitChars (n : Nat) : List Char := Nat.toDigits 10 n

def inPlaces (d : Scaled) : String :=
  let cs := digitChars d.digits
  if 0 ≤ d.scale then String.ofList (cs ++ List.replicate d.scale.toNat '0' ++ ['.', '0'])
  else
    let after := (-d.scale).toNat
    let padded := List.replicate (after + 1 - cs.length) '0' ++ cs
    String.ofList (padded.take (padded.length - after) ++ '.' :: padded.drop (padded.length - after))

def withExponent (mark : Int → String) (d : Scaled) : String :=
  let cs := digitChars d.digits
  let exponent := d.scale + cs.length - 1
  let head := match cs with
    | [] => []
    | [c] => [c]
    | c :: rest => c :: '.' :: rest
  String.ofList head ++ mark exponent

def Layout.decimal (layout : Layout) (d : Scaled) : String :=
  if layout.places (d.scale + (digitChars d.digits).length - 1) then inPlaces d
  else withExponent layout.exponentMark d

def Layout.parts (layout : Layout) : Parts → String
  | .nan negative => layout.nan negative
  | .infinity negative => layout.infinity negative
  | .finite negative mantissa exponent narrow =>
    (if negative then "-" else "") ++ layout.decimal (shortest mantissa exponent narrow)

def Layout.float (layout : Layout) (x : Float) : String := layout.parts (.ofFloat x)

def Layout.float32 (layout : Layout) (x : Float32) : String := layout.parts (.ofFloat32 x)

end Ensemble.Decimal
