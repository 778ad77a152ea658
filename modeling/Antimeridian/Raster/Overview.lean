import Antimeridian.Failure
import Antimeridian.Raster.Stretch
import Antimeridian.Text.Literal

/-!
# Overviews

An overview is a copy of a raster with fewer pixels, kept beside it, so that a coarse read need not
look at every pixel. Overviews are made by factors and found again by the factor that their size
tells, which is not always the one they were made with.
-/

namespace Antimeridian

open Text (Literal)

/-- The size of a copy with fewer pixels. -/
structure Overview where
  columns : Nat
  rows : Nat
  deriving DecidableEq

namespace Overview

/-- The copy of a raster of some columns and rows by a factor. Parts of a pixel count whole. -/
def ofFactor (columns rows factor : Nat) : Overview where
  columns := (columns + factor - 1) / factor
  rows := (rows + factor - 1) / factor

/-- A quotient rounded to the nearest whole number, a half upward. -/
def quotient (n d : Nat) : Nat := (2 * n + d) / (2 * d)

/-- Whether the factor of a copy is told by its columns: unless rows are more than twice as many,
and unless a single column says less than the rows. -/
def isByColumns (columns rows : Nat) (columnTellsNothing : Bool) : Bool :=
  rows / 2 ≤ columns && !(columns < rows && columnTellsNothing)

/-- The factor that the size of a copy tells. -/
def factor (columns rows : Nat) (o : Overview) : Nat :=
  if isByColumns columns rows (o.columns = 1 && 1 < o.rows) then quotient columns o.columns
  else quotient rows o.rows

/-- The factor that the size of a copy made by a factor will tell. -/
def toldFactor (columns rows wanted : Nat) : Nat :=
  let o := ofFactor columns rows wanted
  if isByColumns columns rows (columns < wanted) then quotient columns o.columns
  else quotient rows o.rows

/-- The factor of a copy among its columns. -/
def columnFactor (columns : Nat) (o : Overview) : Nat :=
  Decimal.roundDiv columns o.columns

/-- Whether a copy stands for one made by a factor. -/
def stands (columns rows wanted : Nat) (o : Overview) : Bool :=
  let single : Overview := ⟨1, 1⟩
  let told := o.factor columns rows
  told = wanted || told = toldFactor columns rows wanted
    || (o = single && ofFactor columns rows wanted = single)

/-- The copies of a raster made by some factors, in their order. Where a copy stands for another
factor as well, none is made for it. -/
def build (columns rows : Nat) (factors : List Nat) : List Overview :=
  factors.foldl (fun made wanted =>
    if made.any (stands columns rows wanted) then made
    else made ++ [ofFactor columns rows wanted]) []

/-- A factor as it is asked for. -/
def requested {α : Type} : Literal → Except (Failure α) Float
  | .whole n => .ok (Scalar.ofInt n)
  | .flag b => .ok (if b then 1 else 0)
  | .decimal x => .ok x
  | _ => .error .typeRejected

/-- The factors asked for, without their fractions. They have to be positive, and no more than one
of them may leave a single pixel. -/
def factors {α : Type} (columns rows : Nat) (wanted : List Literal) :
    Except (Failure α) (List Nat) := do
  let wanted ← wanted.mapM fun l => do
    let factor ← requested l
    if factor == 0 then throw .divisionByZero
    let length (n : Nat) : Int := Scalar.truncate ((Float.ofNat n + factor - 1) / factor)
    return (Scalar.truncate factor, length columns = 1 && length rows = 1)
  if 1 < (wanted.filter (·.2)).length then throw .overviewRejected
  if wanted.any (·.1 ≤ 0) then throw .factorRejected
  return wanted.map (·.1.toNat)

/-! ## Choice -/

/-- How much smaller than a raster of some columns and rows a copy is, along the axis where it is
less so. -/
def reduction (columns rows : Nat) (o : Overview) : Float :=
  Scalar.min (Float.ofNat columns / Float.ofNat o.columns) (Float.ofNat rows / Float.ofNat o.rows)

/-- The reduction of a read: along the axis where it is less, or along the columns where a single
row is read. -/
def desiredReduction (x y : Stretch) : Float :=
  let byColumns := Float.ofNat x.size / Float.ofNat x.count
  let byRows := Float.ofNat y.size / Float.ofNat y.count
  if byColumns < byRows || y.count = 1 then byColumns else byRows

/-- The copy that a read looks at: the smallest one whose reduction does not exceed the read's by
more than a slack, or the first one that is close to it. None where no pixels are merged. -/
def choose? (slack : Float) (x y : Stretch) (copies : List Overview) : Option Overview :=
  if x.size ≤ x.count && y.size ≤ y.count then none
  else
    let desired := desiredReduction x y
    let rec go (best : Option Overview) (reached : Float) : List Overview → Option Overview
      | [] => best
      | o :: rest =>
        let r := o.reduction x.total y.total
        if desired * slack + 0.1 ≤ r || r ≤ reached then go best reached rest
        else if (desired - r).abs < 0.1 then some o
        else go (some o) r rest
    go none 0 copies

/-- The pixel of a raster that stands at an index of a copy's axis. -/
def sourceIndex (total copied index : Nat) : Nat :=
  (Scalar.truncate (0.5 + Float.ofNat index * (Float.ofNat total / Float.ofNat copied))).toNat

end Overview

end Antimeridian
