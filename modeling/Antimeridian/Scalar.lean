/-!
# Scalars

Envelopes, grids, splits and handlers are written once over a type of scalars. `Scalar` lists
what they ask of it: the four operations, the order, decimal constants, the integer below a
number, and a way to tell the numbers that mark "no coordinate" from the others. Run over
binary64 the definitions keep the order of operations they are written in; read over an ordered
field they are the exact arithmetic that the same formulas mean.

The functions below fix how the library compares and rounds, so that no other module chooses.
-/

namespace Antimeridian

/-- Arithmetic with a decidable order, enough to place coordinates. -/
class Scalar (α : Type) extends Add α, Sub α, Mul α, Div α, Neg α, LE α, LT α, BEq α where
  /-- The order on scalars can be tested. -/
  decidableLE : DecidableLE α
  /-- The strict order on scalars can be tested. -/
  decidableLT : DecidableLT α
  /-- `decimal m p` is `m` divided by ten to the `p`. -/
  decimal : Int → Nat → α
  /-- A bound that exceeds every coordinate. -/
  infinity : α
  /-- The greatest integer below a finite scalar. -/
  floor : α → Int
  /-- Neither infinite nor missing. -/
  isFinite : α → Bool
  /-- `mod x p` is `x` moved by whole multiples of `p` into the range from zero to `p`, with the
  sign of `p`. -/
  mod : α → α → α

attribute [reducible, instance] Scalar.decidableLE Scalar.decidableLT

namespace Scalar

variable {α : Type} [Scalar α]

instance (priority := low) (n : Nat) : OfNat α n := ⟨decimal n 0⟩

instance (priority := low) : OfScientific α :=
  ⟨fun m down e => if down then decimal m e else decimal (m * Nat.pow 10 e : Nat) 0⟩

/-- The scalar of an integer. -/
def ofInt (n : Int) : α := decimal n 0

/-- The larger of two scalars, the first one where they do not compare. -/
def max (a b : α) : α := if a < b then b else a

/-- The smaller of two scalars, the first one where they do not compare. -/
def min (a b : α) : α := if b < a then b else a

/-- The distance from zero. -/
def abs (a : α) : α := if a < 0 then -a else a

/-- The least integer above a finite scalar. -/
def ceil (a : α) : Int := -floor (-a)

/-- The integer left of a finite scalar when its fraction is dropped. -/
def truncate (a : α) : Int := if a < 0 then ceil a else floor a

/-- The integer nearest to a finite scalar; a half goes to the even neighbour. -/
def roundEven (a : α) : Int :=
  let below := floor a
  let rest := a - ofInt below
  if rest < 0.5 then below
  else if (0.5 : α) < rest then below + 1
  else if below % 2 = 0 then below else below + 1

/-- The nearest whole number as a scalar; what is not finite stays as it is. -/
def roundWhole (a : α) : α := if isFinite a then ofInt (roundEven a) else a

/-- The largest element of a list, the first one where they do not compare. -/
def maximum (first : α) (rest : List α) : α := rest.foldl max first

/-- The smallest element of a list, the first one where they do not compare. -/
def minimum (first : α) (rest : List α) : α := rest.foldl min first

/-- Running sums of a list, each element included in its own sum. -/
def runningSums : α → List α → List α
  | _, [] => []
  | total, x :: xs => (total + x) :: runningSums (total + x) xs

end Scalar

/-- Scalars with the length of a plane vector. -/
class PlanarLength (α : Type) where
  /-- The length of the vector with the given components. -/
  length : α → α → α

end Antimeridian
