import Antimeridian.Grid.Basic
import Antimeridian.Raster.Pixel
import Antimeridian.Scalar.Sum

/-!
# Rasters

A raster holds bands of rows of pixels and the transform that places pixel corners in a system.
Pixels are looked up by band, row and column, all counted from zero; outside the raster the
look-up answers something, and nothing may depend on it.
-/

namespace Antimeridian

/-- Pixels in a system. -/
structure Raster (α : Type) where
  /-- The number of bands. -/
  bands : Nat
  /-- The number of rows. -/
  rows : Nat
  /-- The number of columns. -/
  columns : Nat
  /-- The pixel of a band, a row and a column. -/
  pixel : Nat → Nat → Nat → Pixel
  /-- What the pixels are held in. -/
  pixelType : PixelType
  /-- The place of pixel corners. -/
  transform : Affine α
  /-- The system of the places. -/
  crs : Crs
  /-- The value of missing pixels. -/
  nodata : Option Float := none
  /-- The names of bands, with their numbers counted from one, as they were given. -/
  bandNames : List (String × Text.Literal) := []

namespace Raster

/-- Numbers of pixels along the axes of an array. -/
structure Extents where
  bands : Nat
  rows : Nat
  columns : Nat

/-- Arrays of two axes are a single band of rows, arrays of three are bands. -/
def Extents.ofShape {α : Type} : List Nat → Except (Failure α) Extents
  | [rows, columns] => .ok ⟨1, rows, columns⟩
  | [bands, rows, columns] => .ok ⟨bands, rows, columns⟩
  | shape => .error (.dataShape shape)

variable {α : Type}

/-- The raster of an array of pixels, given by its shape, in a system that is required. -/
def make (shape : List Nat) (pixel : Nat → Nat → Nat → Pixel) (pixelType : PixelType)
    (transform : Affine α) (crs : Except (Failure α) Crs) (nodata : Option Float)
    (bandNames : List (String × Text.Literal)) : Except (Failure α) (Raster α) := do
  let extents ← Extents.ofShape shape
  return { bands := extents.bands, rows := extents.rows, columns := extents.columns, pixel,
           pixelType, transform, crs := ← crs, nodata, bandNames }

/-! ## Contents -/

/-- The rows of a band. -/
def band (r : Raster α) (b : Nat) : List (List Pixel) :=
  (List.range r.rows).map fun row => (List.range r.columns).map (r.pixel b row)

/-- Every pixel, band by band and row by row. -/
def pixels (r : Raster α) : List Pixel := (List.range r.bands).flatMap fun b => (r.band b).flatten

/-- The sum of all pixels. -/
def total (r : Raster α) : Float := Scalar.sum (r.pixels.map Pixel.toFloat)

/-- The same raster with its pixels moved to a type. -/
def cast (r : Raster α) (t : PixelType) : Raster α :=
  { r with pixelType := t, pixel := fun b row column => t.cast (r.pixel b row column) }

/-- A position along an axis, counted from the end where it is negative. -/
def position (size : Nat) (index : Int) : Except (Failure α) Nat :=
  let fromStart := if index < 0 then index + size else index
  if 0 ≤ fromStart ∧ fromStart < size then .ok fromStart.toNat else .error .indexRejected

/-- The pixels that one index or none for each axis stands for, as a test of positions and their
number. The axes without an index are taken whole. -/
def selection (r : Raster α) (indices : List Int) :
    Except (Failure α) ((Nat → Nat → Nat → Bool) × Nat) := do
  if 3 < indices.length then .error .indexRejected
  let b ← (indices[0]?).mapM (position r.bands)
  let y ← (indices[1]?).mapM (position r.rows)
  let x ← (indices[2]?).mapM (position r.columns)
  let fits (wanted : Option Nat) (index : Nat) : Bool := (wanted.map (· == index)).getD true
  let count (wanted : Option Nat) (size : Nat) : Nat := if wanted.isSome then 1 else size
  return (fun b' y' x' => fits b b' && fits y y' && fits x x',
    count b r.bands * count y r.rows * count x r.columns)

/-- The raster with some pixels replaced by a value, their number, and the pixel as it is
stored. -/
def set (r : Raster α) (indices : List Int) (value : Text.Literal) :
    Except (Failure α) (Raster α × Nat × Pixel) := do
  let (selected, count) ← r.selection indices
  let stored ← r.pixelType.store value
  let pixel (b y x : Nat) : Pixel := if selected b y x then stored else r.pixel b y x
  return ({ r with pixel }, count, stored)

/-! ## Places -/

variable [Scalar α]

/-- The bounds of the raster: left, bottom, right and top. Where the axes are not turned they are
those of the first and last corner, so along an axis that runs backwards they fall. -/
def bounds (r : Raster α) : α × α × α × α :=
  let t := r.transform
  let width : α := Scalar.ofInt r.columns
  let height : α := Scalar.ofInt r.rows
  if t.b == 0 && t.d == 0 then (t.c, t.f + t.e * height, t.c + t.a * width, t.f)
  else
    let e := Grid.boundCorners (t.c, t.f) (t.apply 0 height) (t.apply width height)
      (t.apply width 0) none
    (e.minx, e.miny, e.maxx, e.maxy)

/-- The envelope of the pixels. -/
def envelope (r : Raster α) : Envelope α :=
  let (west, south, east, north) := r.bounds
  ⟨Scalar.min west east, Scalar.min south north, Scalar.max west east, Scalar.max south north,
    some r.crs⟩

/-- Whether two values of missing pixels are equal. What is not a number equals nothing. -/
def sameNodata : Option Float → Option Float → Bool
  | none, none => true
  | some a, some b => a == b
  | _, _ => false

/-- Equal pixels in equal places, with equal values for missing ones. Pixel types and band names
do not matter. -/
def equals (r s : Raster α) : Bool :=
  r.transform.equals s.transform && r.crs == s.crs && sameNodata r.nodata s.nodata
    && r.bands == s.bands && r.rows == s.rows && r.columns == s.columns
    && (r.pixels.zip s.pixels).all fun p => p.1.equals p.2

/-- The text of a raster: its shape, pixel type, system and bounds. -/
def describe (number : α → String) (r : Raster α) : String :=
  let (west, south, east, north) := r.bounds
  "<Raster shape=" ++ describeShape [r.bands, r.rows, r.columns]
    ++ " dtype=" ++ r.pixelType.label ++ " crs=" ++ r.crs.text
    ++ " bounds=(" ++ ", ".intercalate ([west, south, east, north].map number) ++ ")>"

end Raster

end Antimeridian
