import Antimeridian.Scalar.Binary64

/-!
# Rounding to decimal places

A quotient of whole numbers goes to the nearest whole number, a tie to the even one. A double is
rounded to a number of decimal places by that rule on its exact value, and the answer is the
double nearest to the decimal found.
-/

namespace Antimeridian.Decimal

/-- The whole number nearest to `n / d`, a tie going to the even neighbour. -/
def roundDiv (n d : Nat) : Nat :=
  let below := n / d
  let rest := n % d
  if 2 * rest < d then below
  else if d < 2 * rest then below + 1
  else if below % 2 = 0 then below else below + 1

/-- The magnitude of a finite double, counted in units of the last of some decimal places. -/
def unitsAt (x : Float) (places : Nat) : Nat :=
  let p := Binary64.parts x
  let scaled := p.significand.natAbs * Nat.pow 10 places
  if 0 ≤ p.exponent then scaled * Nat.pow 2 p.exponent.toNat
  else roundDiv scaled (Nat.pow 2 (-p.exponent).toNat)

/-- A double rounded to a number of decimal places. What is not finite stays as it is. -/
def toPlaces (x : Float) (places : Nat) : Float :=
  if !x.isFinite then x
  else
    let magnitude := Float.ofScientific (unitsAt x places) true places
    if x < 0 then -magnitude else magnitude

end Antimeridian.Decimal
