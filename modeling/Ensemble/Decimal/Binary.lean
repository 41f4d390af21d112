/-!
# Binary floating point numbers taken apart

A finite number is a sign, a whole mantissa and a power of two. `shortened` rounds a natural
number to a mantissa of a given width, ties to the even neighbour.
-/

namespace Ensemble.Decimal

/-- What the bits of a float stand for. A finite one is `mantissa * 2 ^ exponent`; `narrow` marks
the numbers whose lower neighbour is only half as far away as the upper one. -/
inductive Parts where
  | nan (negative : Bool)
  | infinity (negative : Bool)
  | finite (negative : Bool) (mantissa : Nat) (exponent : Int) (narrow : Bool)
deriving DecidableEq

/-- `fraction` and `width` are the numbers of fraction and exponent bits. -/
def Parts.ofBits (fraction width bits : Nat) : Parts :=
  let unit := Nat.pow 2 fraction
  let top := Nat.pow 2 width
  let negative := bits / (unit * top) % 2 == 1
  let biased := bits / unit % top
  let low := bits % unit
  let bias : Int := top / 2 - 1
  if biased = top - 1 then
    if low = 0 then .infinity negative else .nan negative
  else if biased = 0 then .finite negative low (1 - bias - fraction) false
  else
    .finite negative (unit + low) (biased - bias - fraction) (low == 0 && biased != 1)

def Parts.ofFloat (x : Float) : Parts := .ofBits 52 11 x.toBits.toNat

def Parts.ofFloat32 (x : Float32) : Parts := .ofBits 23 8 x.toBits.toNat

/-- The nearest number with at most `width` significant bits, an exact half going to the even
neighbour. -/
def shortened (width n : Nat) : Nat :=
  let excess := n.log2 + 1 - width
  let unit := Nat.pow 2 excess
  let below := n / unit
  let rest := n % unit
  if rest * 2 < unit ∨ (rest * 2 = unit ∧ below % 2 = 0) then below * unit
  else (below + 1) * unit

end Ensemble.Decimal
