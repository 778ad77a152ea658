import Antimeridian.Raster.Crop
import Antimeridian.Transform.Basic

/-!
# Resampling

Pixels looked at on another grid: at a different size over the same area, or warped into another
system. A warp takes the nearest pixel whatever the method, which is what the methods agree on
where all pixels are equal.
-/

namespace Antimeridian

/-- How the value of a pixel between others is found. -/
inductive Resampling where
  | nearest
  | bilinear
  | cubic
  | cubicSpline
  | lanczos
  | average
  | mode
  | gauss
  | maximum
  | minimum
  | median
  | lowerQuartile
  | upperQuartile
  | sum
  | rootMeanSquare
  deriving DecidableEq

namespace Resampling

/-- Every method. -/
def all : List Resampling :=
  [nearest, bilinear, cubic, cubicSpline, lanczos, average, mode, gauss, maximum, minimum, median,
    lowerQuartile, upperQuartile, sum, rootMeanSquare]

/-- The name of a method. -/
def label : Resampling → String
  | nearest => "nearest"
  | bilinear => "bilinear"
  | cubic => "cubic"
  | cubicSpline => "cubic_spline"
  | lanczos => "lanczos"
  | average => "average"
  | mode => "mode"
  | gauss => "gauss"
  | maximum => "max"
  | minimum => "min"
  | median => "med"
  | lowerQuartile => "q1"
  | upperQuartile => "q3"
  | sum => "sum"
  | rootMeanSquare => "rms"

/-- The method of a name. -/
def ofLabel? (text : String) : Option Resampling := all.find? (·.label == text)

/-- Whether a read in the system of the pixels can use a method. -/
def isForReads : Resampling → Bool
  | maximum | minimum | median | lowerQuartile | upperQuartile | sum => false
  | _ => true

/-- Whether a read in another system can use a method. -/
def isForWarps (m : Resampling) : Bool := m ≠ gauss

end Resampling

namespace Raster

variable {α : Type}

/-! ## Missing pixels -/

/-- The pixel that marks missing ones. -/
def mark? (t : PixelType) (nodata : Option Float) : Option Pixel :=
  nodata.map fun x =>
    if t.isReal then .real (t.narrow x) else .whole (PixelType.dropFraction x)

/-- Whether a pixel stands for a missing value. -/
def isMissing (t : PixelType) (nodata : Option Float) (p : Pixel) : Bool :=
  match mark? t nodata with
  | none => false
  | some mark => p.equals mark || (mark.toFloat.isNaN && p.toFloat.isNaN)

/-- The value of missing pixels as a pixel, zero where there is none. -/
def missingPixel (t : PixelType) (nodata : Option Float) : Pixel := t.cast (.real (nodata.getD 0))

/-! ## Another size -/

/-- The raster at another size over the same area, with the pixels of that size. -/
def resized [Scalar α] (r : Raster α) (width height : Nat) (pixel : Nat → Nat → Nat → Pixel) :
    Raster α :=
  { r with
    rows := height
    columns := width
    pixel
    transform := r.transform.compose
      (.scaling (Scalar.ofInt r.columns / Scalar.ofInt width)
        (Scalar.ofInt r.rows / Scalar.ofInt height)) }

/-! ## Another system -/

/-- Pixels computed once, band by band and row by row. -/
structure Table where
  rows : Nat
  columns : Nat
  cells : Array Pixel

/-- The table of some computed pixels. -/
def Table.tabulate (bands rows columns : Nat) (pixel : Nat → Nat → Nat → Pixel) : Table where
  rows := rows
  columns := columns
  cells := (Array.range (bands * rows * columns)).map fun i =>
    pixel (i / (rows * columns)) (i / columns % rows) (i % columns)

/-- The pixel of a table. -/
def Table.pixel (t : Table) (b row column : Nat) : Pixel :=
  t.cells.getD ((b * t.rows + row) * t.columns + column) default

variable [Scalar α]

/-- The pixel that holds a pixel coordinate on an axis of a number of pixels. -/
def holder? (coordinate : α) (size : Nat) : Option Nat :=
  let moved := coordinate + 1e-10
  if Scalar.isFinite moved && 0 ≤ moved then
    let index := (Scalar.floor moved).toNat
    if index < size then some index else none
  else none

/-- The row and column of the pixel that a pixel of a grid in another system comes from, if it
comes from any. -/
def origin? (r : Raster α) (g : Grid α) (toSource : Transform α) (inverse : Affine α)
    (row column : Nat) : Option (Nat × Nat) := do
  let (x, y) := g.transform.apply (Scalar.ofInt column + 0.5) (Scalar.ofInt row + 0.5)
  let (sx, sy) := toSource.image x y
  let (px, py) := inverse.apply sx sy
  return (← holder? py r.rows, ← holder? px r.columns)

/-- The raster on a grid of another system, counted from the origin. Pixels that come from outside
the raster are missing. -/
def warped (r : Raster α) (atlas : Atlas α) (g : Grid α) : Except (Failure α) (Raster α) := do
  let toSource ← atlas.find g.crs r.crs
  let inverse ← r.transform.inverse
  let missing := missingPixel r.pixelType r.nodata
  let rows := g.height.toNat
  let columns := g.width.toNat
  let table := Table.tabulate r.bands rows columns fun b row column =>
    match r.origin? g toSource inverse row column with
    | some (y, x) => r.pixel b y x
    | none => missing
  return { r with rows, columns, pixel := table.pixel, transform := g.transform, crs := g.crs }

end Raster

end Antimeridian
