import Antimeridian.Raster.Overview
import Antimeridian.Raster.Resample

/-!
# Merging pixels

A coarse read merges pixels. It looks at the raster or at the overview that is nearly as coarse,
takes the pixels there one to one if that is all it needs, and otherwise finds each pixel by a
method: the nearest one, a mean of those it covers, the most frequent of them, or a filter over its
surroundings. Missing pixels are left out.
-/

namespace Antimeridian

/-- The pixel of a row and a column. -/
abbrev Cells := Nat → Nat → Pixel

/-- What a merged pixel has to fit. -/
structure PixelFormat where
  /-- What pixels are held in. -/
  pixelType : PixelType
  /-- The value of missing pixels. -/
  nodata : Option Float

namespace PixelFormat

/-- Whether values are kept whole while they are merged. -/
def isSmallWhole (f : PixelFormat) : Bool := f.pixelType == .uint8 || f.pixelType == .uint16

/-- A computed value with the digits it is kept with until it is stored. -/
def working (f : PixelFormat) (x : Float) : Float :=
  if f.pixelType == .int8 || f.pixelType == .int16 || f.pixelType == .float32 then
    PixelType.narrow .float32 x
  else x

/-- The pixel of a computed value. Whole pixels are rounded, a half away from zero, and limited to
what they can be. -/
def stored (f : PixelFormat) (x : Float) : Pixel :=
  let t := f.pixelType
  if t.isReal then .real (t.narrow x)
  else
    let nearest := if x < 0 then Scalar.ceil (x - 0.5) else Scalar.floor (x + 0.5)
    .whole (max t.least (min nearest (t.least + t.count - 1)))

/-- The pixel next to one that would stand for a missing value. -/
def besideMark (f : PixelFormat) : Pixel → Pixel
  | .whole n => .whole (if n + 1 < f.pixelType.least + f.pixelType.count then n + 1 else n - 1)
  | .real x => .real x

/-- The missing pixel. -/
def missing (f : PixelFormat) : Pixel := Raster.missingPixel f.pixelType f.nodata

/-- Whether a pixel is missing. -/
def isMissing (f : PixelFormat) (p : Pixel) : Bool := Raster.isMissing f.pixelType f.nodata p

/-- A pixel that is there, so it is moved away from the value of missing ones. -/
def present (f : PixelFormat) (p : Pixel) : Pixel := if f.isMissing p then f.besideMark p else p

end PixelFormat

namespace Merge

/-- The sum of some numbers in their order. -/
def sum (xs : List Float) : Float := xs.foldl (· + ·) 0

/-- The values that are there under a block of weights, with the weights. -/
def block (f : PixelFormat) (cells : Cells) (rows columns : Weights) :
    List (Float × Float) :=
  rows.flatMap fun (row, n) => columns.filterMap fun (column, m) =>
    let p := cells row column
    if f.isMissing p then none else some (p.toFloat, m * n)

/-- The mean of weighted values, each seen through a function. -/
def mean (values : List (Float × Float)) (view : Float → Float) : Float :=
  sum (values.map fun (v, w) => view v * w) / sum (values.map (·.2))

/-- The mean of the pixels under a block. -/
def average (f : PixelFormat) (values : List (Float × Float)) : Pixel :=
  let x := mean values id
  if f.isSmallWhole then f.present (.whole (Scalar.floor (x + 0.5)))
  else f.stored (f.working x)

/-- The root of the mean square of the pixels under a block. -/
def rootMeanSquare (f : PixelFormat) (values : List (Float × Float)) : Pixel :=
  let square := mean values fun v => v * v
  if f.isSmallWhole then
    let root := Scalar.floor square.sqrt
    let up := Scalar.ofInt (2 * root * (root + 1) + 1) < 2 * square
    f.present (.whole (if up then root + 1 else root))
  else f.stored (f.working square.sqrt)

/-- The value that is first to be seen more often than any before it. -/
def mode (pixels : List Pixel) : Option Pixel :=
  let go (seen : List (Pixel × Nat) × Option Pixel × Nat) (p : Pixel) :=
    let (counts, best, most) := seen
    let count := 1 + ((counts.find? (·.1.equals p)).map (·.2)).getD 0
    let counts := (p, count) :: counts.filter (!·.1.equals p)
    if most < count then (counts, some p, count) else (counts, best, most)
  (pixels.foldl go ([], none, 0)).2.1

/-- The length of the longest run of values that are there. -/
def longestRun (line : List (Option Float × Float)) : Nat :=
  (line.foldl (fun (run, best) (v, _) =>
    let run := if v.isSome then run + 1 else 0
    (run, max run best)) (0, 0)).2

/-- A line seen through a filter. Where values are missing the others stand in for them, unless
none of them counts, or the filter has waves and fewer than half of them are together. -/
def filterLine (hasWaves : Bool) (line : List (Option Float × Float)) : Option Float :=
  let values := line.filterMap fun (v, w) => v.map (·, w)
  let weight := sum (values.map (·.2))
  if values.length = line.length then
    let scale := if weight == 0 then 1 else 1 / weight
    some (sum (values.map fun (v, w) => v * (w * scale)))
  else if weight ≤ 0 || (hasWaves && longestRun line < line.length / 2) then none
  else some (sum (values.map fun (v, w) => v * w) / weight)

/-- A pixel seen through a filter, along the columns first. -/
def filter (f : PixelFormat) (hasWaves : Bool) (cells : Cells) (rows columns : Weights) :
    Pixel :=
  let value (row column : Nat) : Option Float :=
    let p := cells row column
    if f.isMissing p then none else some p.toFloat
  let line (row : Nat) : Option Float :=
    filterLine hasWaves (columns.map fun (column, w) => (value row column, w))
  match filterLine hasWaves (rows.map fun (row, w) => (line row, w)) with
  | none => f.missing
  | some x =>
    if f.isSmallWhole then f.present (f.stored x)
    else
      let kept := f.working x
      let atMark := f.isMissing (if f.pixelType.isReal then .real kept else f.stored kept)
      if atMark && (f.stored kept).toFloat == kept then f.besideMark (f.stored kept)
      else f.stored kept

/-- The pixels of a stretch of rows and one of columns, found by a method. -/
def cells (f : PixelFormat) (method : Resampling) (source : Cells) (x y : Stretch) : Cells :=
  let nearest : Cells := fun row column => source (y.nearest row) (x.nearest column)
  let orMissing {β : Type} (values : List β) (merged : List β → Pixel) : Pixel :=
    if values.isEmpty then f.missing else merged values
  let covered (radius row column : Nat) : List (Float × Float) :=
    block f source ((y.alignment radius).shares row) ((x.alignment radius).shares column)
  let smooth (radius : Nat) (shape : Float → Float) (hasWaves : Bool) : Cells :=
    fun row column => filter f hasWaves source
      ((y.alignment radius).filtered radius shape row)
      ((x.alignment radius).filtered radius shape column)
  if x.size = x.count && y.size = y.count then
    fun row column => source (y.first + row) (x.first + column)
  else match method with
    | .average => fun row column => orMissing (covered 0 row column) (average f)
    | .rootMeanSquare => fun row column => orMissing (covered 0 row column) (rootMeanSquare f)
    | .mode => fun row column =>
      let pixels := ((y.alignment 0).shares row).flatMap fun (r, _) =>
        ((x.alignment 0).shares column).map fun (c, _) => source r c
      (mode (pixels.filter (!f.isMissing ·))).getD f.missing
    | .gauss => fun row column =>
      let bell (s : Stretch) := (s.alignment 1).underBell (Stretch.Alignment.bell y.ratio)
      orMissing (block f source (bell y row) (bell x column)) fun values =>
        f.stored (mean values id)
    | .bilinear => smooth 1 FilterShape.linear false
    | .cubic => smooth 2 FilterShape.cubic true
    | .cubicSpline => smooth 2 FilterShape.spline false
    | .lanczos => smooth 3 FilterShape.wave true
    | _ => nearest

/-- How much coarser than a read an overview may be. -/
def slack (method : Resampling) : Float := if method = .nearest then 1.2 else 1

/-- The pixels of a stretch of rows and one of columns of a source with overviews. -/
def cellsOver (f : PixelFormat) (method : Resampling) (overviews : List Overview)
    (source : Cells) (x y : Stretch) : Cells :=
  match Overview.choose? (slack method) x y overviews with
  | none => cells f method source x y
  | some o =>
    cells f method (fun row column =>
        source (Overview.sourceIndex y.total o.rows row)
          (Overview.sourceIndex x.total o.columns column))
      (x.onCopy o.columns) (y.onCopy o.rows)

end Merge

/-- Some columns and rows of a raster at another size. -/
def Raster.merged {α : Type} [Scalar α] (r : Raster α) (method : Resampling)
    (overviews : List Overview) (column row width height toWidth toHeight : Nat) : Raster α :=
  let x := Stretch.whole r.columns column width toWidth
  let y := Stretch.whole r.rows row height toHeight
  (r.window column row width height).resized toWidth toHeight fun b =>
    Merge.cellsOver ⟨r.pixelType, r.nodata⟩ method overviews (r.pixel b) x y

end Antimeridian
