import Ensemble.Json.Basic

/-!
# Numbers in JSON text

A number without fraction and exponent is whole as long as it fits in 64 bits. Every other one is
a float: as many leading digits as fit in 64 bits are kept, and their value is then scaled by
powers of ten, each step rounding. That is not always the float nearest to the text.
-/

namespace Ensemble.Json

/-- The digits of a number by their place; `exponent` holds its sign and digits. -/
structure NumberText where
  negative : Bool
  whole : List Nat
  fraction : Option (List Nat)
  exponent : Option (Bool × List Nat)

def maxWord : Nat := 0xFFFFFFFFFFFFFFFF

/-- Appends digits while the value fits in a word; also the digits that were left over. -/
def takeDigits (value : Nat) : List Nat → Nat × List Nat
  | [] => (value, [])
  | d :: ds => if value * 10 + d ≤ maxWord then takeDigits (value * 10 + d) ds else (value, d :: ds)

def powerOfTen (n : Nat) : Float := Float.ofScientific 1 false n

/-- Scales by a power of ten of at most 308 at a time. Nothing is left of a word after three
divisions by the largest. -/
def scaleFloat : Nat → Float → Int → Option Float
  | fuel, f, exponent =>
    if exponent.natAbs ≤ 308 then
      if 0 ≤ exponent then
        let g := f * powerOfTen exponent.toNat
        if g.isInf then none else some g
      else some (f / powerOfTen (-exponent).toNat)
    else if f == 0 then some f
    else if 0 ≤ exponent then none
    else match fuel with
      | 0 => some 0
      | fuel + 1 => scaleFloat fuel (f / powerOfTen 308) (exponent + 308)

def signed (negative : Bool) (f : Float) : Float := if negative then -f else f

/-- The decimal `value * 10 ^ exponent`, or nothing when it is beyond every float. -/
def floatOfDecimal (negative : Bool) (value : Nat) (exponent : Int) : Option Float :=
  (scaleFloat 4 (UInt64.ofNat value).toFloat exponent).map (signed negative)

def digitsValue (ds : List Nat) : Nat := ds.foldl (fun acc d => acc * 10 + d) 0

/-- The kept digits and the power of ten they count, from the whole part and the fraction. -/
def NumberText.scaled (t : NumberText) : Nat × Int :=
  let (kept, dropped) := takeDigits 0 t.whole
  match t.fraction with
  | none => (kept, dropped.length)
  | some ds =>
    let (kept, rest) := takeDigits kept ds
    (kept, (dropped.length : Int) - ((ds.length : Int) - rest.length))

/-- An exponent beyond 31 bits leaves zero or nothing, whatever the digits say. -/
def NumberText.toFloat? (t : NumberText) : Option Float :=
  let (kept, scale) := t.scaled
  match t.exponent with
  | none => floatOfDecimal t.negative kept scale
  | some (down, ds) =>
    let e := digitsValue ds
    if e ≤ 2147483647 then floatOfDecimal t.negative kept (if down then scale - e else scale + e)
    else if kept ≠ 0 ∧ ¬ down then none
    else some (signed t.negative 0)

def NumberText.toNumber? (t : NumberText) : Option Number :=
  match t.fraction, t.exponent with
  | none, none =>
    let (value, dropped) := takeDigits 0 t.whole
    if dropped ≠ [] then t.toFloat?.map .float
    else if ¬ t.negative then some (.whole value)
    else if value = 0 ∨ 0x8000000000000000 < value then some (.float (-(UInt64.ofNat value).toFloat))
    else some (.whole (-value))
  | _, _ => t.toFloat?.map .float

end Ensemble.Json
