import Antimeridian.Grid.Affine
import Antimeridian.Integral

/-!
# Grids

A grid is a rectangle of pixels with the transform that places it in a system. The transform maps
absolute pixel corners, so the rectangle need not start at the origin: a padded grid has negative
offsets.
-/

namespace Antimeridian

/-- A rectangle of pixels in a system. -/
structure Grid (α : Type) where
  /-- The first column. -/
  column : Int
  /-- The first row. -/
  row : Int
  /-- The number of columns. -/
  width : Int
  /-- The number of rows. -/
  height : Int
  /-- The place of pixel corners. -/
  transform : Affine α
  /-- The system of the places. -/
  crs : Crs
  /-- A grid has columns. -/
  width_pos : 0 < width
  /-- A grid has rows. -/
  height_pos : 0 < height

/-- A rectangle of pixels: first column, first row, number of columns, number of rows. -/
structure PixelRect where
  column : Int
  row : Int
  width : Int
  height : Int
  deriving DecidableEq

/-- The pixels of a rectangle among some columns and rows counted from zero, if there are any. -/
def PixelRect.clamped? (rect : PixelRect) (columns rows : Nat) : Option PixelRect :=
  let column := max 0 rect.column
  let row := max 0 rect.row
  let columnEnd := min (columns : Int) (rect.column + rect.width)
  let rowEnd := min (rows : Int) (rect.row + rect.height)
  if columnEnd ≤ column || rowEnd ≤ row then none
  else some ⟨column, row, columnEnd - column, rowEnd - row⟩

namespace Grid

variable {α : Type} [Scalar α]

/-- The grid of a rectangle of pixels, which has to hold some, in a system that is required. -/
def make (rect : PixelRect) (transform : Affine α) (crs : Except (Failure α) Crs) :
    Except (Failure α) (Grid α) := do
  if h : 0 < rect.width ∧ 0 < rect.height then
    return ⟨rect.column, rect.row, rect.width, rect.height, transform, ← crs, h.1, h.2⟩
  else .error (.gridSize rect.width rect.height)

/-- The north-up grid whose rectangle of pixels covers an envelope exactly. -/
def ofEnvelope (e : Envelope α) (rect : PixelRect) : Except (Failure α) (Grid α) := do
  if e.isEmpty then .error .gridOverNothing
  let transform ← Affine.overBounds e.minx e.miny e.maxx e.maxy rect.width rect.height
  make rect
    (transform.compose (.translation (Scalar.ofInt (-rect.column)) (Scalar.ofInt (-rect.row))))
    (Crs.required e.crs)

/-- The rectangle of pixels of a grid. -/
def rect (g : Grid α) : PixelRect := ⟨g.column, g.row, g.width, g.height⟩

/-- The extent of a pixel along each axis. -/
def resolution (g : Grid α) : α × α := (Scalar.abs g.transform.a, Scalar.abs g.transform.e)

/-- The place of a pixel corner. -/
def place (g : Grid α) (column row : Int) : α × α :=
  g.transform.apply (Scalar.ofInt column) (Scalar.ofInt row)

/-- The bounding envelope of four points. -/
def boundCorners (p q r s : α × α) (crs : Option Crs) : Envelope α :=
  ⟨Scalar.minimum p.1 [q.1, r.1, s.1], Scalar.minimum p.2 [q.2, r.2, s.2],
    Scalar.maximum p.1 [q.1, r.1, s.1], Scalar.maximum p.2 [q.2, r.2, s.2], crs⟩

/-- The envelope of the rectangle of pixels. -/
def envelope (g : Grid α) : Envelope α :=
  let east := g.column + g.width
  let south := g.row + g.height
  boundCorners (g.place g.column g.row) (g.place east south) (g.place g.column south)
    (g.place east g.row) (some g.crs)

/-- The fraction of a pixel below which a pixel coordinate counts as the integer next to it. -/
def snap : α := 1e-6

/-- The rectangle of pixels that covers a rectangle of pixel coordinates, slivers aside. Pixels that
it covers in part are included. -/
def coveringPixels (bound : Envelope α) : Except (Failure α) PixelRect := do
  let column ← Integral.floor (bound.minx + snap)
  let row ← Integral.floor (bound.miny + snap)
  let columnEnd ← Integral.ceil (bound.maxx - snap)
  let rowEnd ← Integral.ceil (bound.maxy - snap)
  return ⟨column, row, columnEnd - column, rowEnd - row⟩

/-- The rectangle of pixels that covers an envelope. It can be a little larger. -/
def pixelsOf (g : Grid α) (e : Envelope α) : Except (Failure α) PixelRect := do
  let inverse ← g.transform.inverse
  coveringPixels (boundCorners (inverse.apply e.minx e.miny) (inverse.apply e.maxx e.maxy)
    (inverse.apply e.minx e.maxy) (inverse.apply e.maxx e.miny) none)

/-- The grid grown by a number of pixels on every side. -/
def withGutter (g : Grid α) (padding : Int) : Except (Failure α) (Grid α) :=
  make ⟨g.column - padding, g.row - padding, g.width + 2 * padding, g.height + 2 * padding⟩
    g.transform (.ok g.crs)

/-- The same pixels counted from the origin. -/
def normalized (g : Grid α) : Grid α :=
  { g with
    column := 0
    row := 0
    transform := g.transform.compose (.translation (Scalar.ofInt g.column) (Scalar.ofInt g.row)) }

/-- The same pixels in the same places of the same system. -/
def equals (g h : Grid α) : Bool :=
  g.rect == h.rect && g.transform.equals h.transform && g.crs == h.crs

end Grid

end Antimeridian
