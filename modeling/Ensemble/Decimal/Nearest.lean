import Ensemble.Decimal.Shortest

/-!
# The float nearest to a decimal
-/

namespace Ensemble.Decimal

def infinity : Float := 1 / 0

/-- Decimals far outside the range of floats are not computed. -/
def Scaled.toFloat (d : Scaled) : Float :=
  let place := d.scale + (digitChars d.digits).length
  if d.digits = 0 ∨ place < -330 then 0
  else if 310 < place then infinity
  else if 0 ≤ d.scale then Float.ofScientific d.digits false d.scale.toNat
  else Float.ofScientific d.digits true (-d.scale).toNat

end Ensemble.Decimal
