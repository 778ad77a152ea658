import Antimeridian.Failure

/-!
# Integers from scalars

The integers next to a scalar, where it has any: what is not a number has no value, and an
infinite one is too large.
-/

namespace Antimeridian.Integral

variable {α : Type} [Scalar α]

/-- An integer taken from a finite scalar. -/
def ofFinite (read : α → Int) (a : α) : Except (Failure α) Int :=
  if Scalar.isFinite a then .ok (read a)
  else if a == a then .error .overflow
  else .error .valueRejected

/-- The greatest integer below a scalar. -/
def floor (a : α) : Except (Failure α) Int := ofFinite Scalar.floor a

/-- The least integer above a scalar. -/
def ceil (a : α) : Except (Failure α) Int := ofFinite Scalar.ceil a

/-- The integer nearest to a scalar; a half goes to the even neighbour. -/
def round (a : α) : Except (Failure α) Int := ofFinite Scalar.roundEven a

end Antimeridian.Integral
