import Antimeridian.Decimal.Layout
import Antimeridian.Raster.Pixel
import Antimeridian.Text.Literal

/-!
# Memory for reads

A read is refused when its pixels, times a safety factor for what else a read holds, would not
fit in the memory that is free.
-/

namespace Antimeridian

open Text (Literal)

/-- What is known of a read's need for memory. -/
structure MemoryCheck where
  /-- The gigabytes that the read needs. -/
  required : Float
  /-- The bytes that are free. -/
  free : Nat
  /-- The safety factor that the need includes. -/
  factor : Literal
  /-- Whether the read fits. -/
  fits : Bool

namespace MemoryCheck

/-- The factor for what a read holds besides its pixels, unless a caller gives another. -/
def defaultFactor : Literal := .decimal 3

/-- A number of bytes, whole as long as only whole numbers take part in it. -/
inductive Amount where
  | whole (bytes : Int)
  | real (bytes : Float)

namespace Amount

variable {α : Type}

/-- The amount that a value stands for. -/
def ofLiteral : Literal → Except (Failure α) Amount
  | .whole n => .ok (.whole n)
  | .flag b => .ok (.whole (if b then 1 else 0))
  | .decimal x => .ok (.real x)
  | _ => .error .typeRejected

/-- The amount as a double, which may be too large for one. -/
def toFloat : Amount → Except (Failure α) Float
  | real x => .ok x
  | whole n =>
    let x : Float := Scalar.ofInt n
    if x.isFinite then .ok x else .error .overflow

/-- The product of two amounts. -/
def times : Amount → Amount → Except (Failure α) Amount
  | whole a, whole b => .ok (.whole (a * b))
  | a, b => return .real ((← a.toFloat) * (← b.toFloat))

/-- The number of bytes in a gigabyte. -/
def gigabyte : Nat := 1073741824

/-- The amount in gigabytes. -/
def inGigabytes : Amount → Except (Failure α) Float
  | real x => .ok (x / Float.ofNat gigabyte)
  | whole n =>
    let x := Binary64.ofRat (mkRat n gigabyte)
    if x.isFinite then .ok x else .error .overflow

/-- Whether an amount exceeds a whole number of bytes. -/
def exceeds (limit : Nat) : Amount → Bool
  | whole n => limit < n
  | real x => Float.ofNat limit < x

end Amount

/-- The memory needed for some bands of pixels of a number of bytes. -/
def ofExtents {α : Type} (free : Nat) (bands width height : Literal) (size : Nat)
    (factor : Literal) : Except (Failure α) MemoryCheck := do
  let row ← (← Amount.ofLiteral bands).times (← Amount.ofLiteral width)
  let pixels ← row.times (← Amount.ofLiteral height)
  let required ← (← pixels.times (.whole size)).times (← Amount.ofLiteral factor)
  return { required := ← required.inGigabytes, free, factor, fits := !required.exceeds free }

/-- A number of gigabytes with two decimal places. -/
def gigabytes (x : Float) : String :=
  if x.isFinite then Decimal.fixed x 2 else Decimal.coordinate.write x

/-- What a check found. -/
def message (c : MemoryCheck) : String :=
  let available := gigabytes (Float.ofNat c.free / Float.ofNat Amount.gigabyte)
  if c.fits then
    "Memory Check Passed: Requires ~" ++ gigabytes c.required ++ " GB (Available: " ++ available
      ++ " GB)."
  else
    "Insufficient Memory: read requires ~" ++ gigabytes c.required ++ " GB RAM (Factor: "
      ++ c.factor.write ++ "), but only " ++ available ++ " GB is available."

end MemoryCheck

end Antimeridian
