import Antimeridian.Raster.Basic

/-!
# Crops

A raster is cut to an envelope by whole pixels: the pixel range of the envelope's corners is
snapped outward, slivers aside, and clamped to the raster.
-/

namespace Antimeridian.Raster

variable {α : Type} [Scalar α]

/-- The pixels from a column and a row on, a number of columns and rows of them. They stay where
they are. -/
def window (r : Raster α) (column row width height : Nat) : Raster α :=
  let corner := r.transform.apply (Scalar.ofInt column) (Scalar.ofInt row)
  { r with
    rows := height
    columns := width
    pixel := fun b y x => r.pixel b (row + y) (column + x)
    transform := (Affine.translation (corner.1 - r.transform.c) (corner.2 - r.transform.f)).compose
      r.transform }

/-- The pixels of some columns and rows that an envelope covers, found from its north-western and
south-eastern corners, or none where it covers no pixel of them. -/
def coveredPixels? (transform : Affine α) (columns rows : Nat) (e : Envelope α) :
    Except (Failure α) (Option PixelRect) := do
  let inverse ← transform.inverse
  let (west, north) := inverse.apply e.minx e.maxy
  let (east, south) := inverse.apply e.maxx e.miny
  let rect ← Grid.coveringPixels
    ⟨Scalar.min west east, Scalar.min north south, Scalar.max west east, Scalar.max north south,
      none⟩
  return rect.clamped? columns rows

/-- The raster cut to the whole pixels that cover an envelope in its system. -/
def crop (r : Raster α) (e : Envelope α) : Except (Failure α) (Raster α) := do
  match ← coveredPixels? r.transform r.columns r.rows e with
  | none => .error (.noOverlap e r.envelope)
  | some rect =>
    return r.window rect.column.toNat rect.row.toNat rect.width.toNat rect.height.toNat

end Antimeridian.Raster
