import Antimeridian.Envelope.Reproject
import Antimeridian.Grid.Basic

/-!
# Read resolutions

How finely data have to be read so that a pixel of a rendered grid needs about one pixel of
theirs. Some pixels of the grid are carried into the data's system; the finest size found wins,
so that no part of the rendering is read too coarsely.
-/

namespace Antimeridian.Grid

variable {α : Type} [Scalar α]

/-- The number of pixels looked at along each axis unless a caller asks for another. -/
def defaultSamples : Int := 5

/-- A number of scalars at equal distances from the first to the last. -/
def spread (first last : α) (count : Nat) : List α :=
  let distance := last - first
  let gaps : α := Scalar.ofInt (count - 1 : Nat)
  let step := distance / gaps
  let at' (i : Nat) : α :=
    if count = 1 then Scalar.ofInt i * distance + first
    else if i + 1 = count then last
    else if step == 0 then Scalar.ofInt i / gaps * distance + first
    else Scalar.ofInt i * step + first
  (List.range count).map at'

/-- The centres of some pixels along an axis. -/
def sampleCentres (start size samples : Int) : List α :=
  (spread (Scalar.ofInt start) (Scalar.ofInt (start + size - 1)) (max samples 1).toNat).map
    (· + 0.5)

/-- The lengths of the images of two neighbouring pixel steps, to the right and down, from a
pixel centre. -/
def imageSteps [PlanarLength α] (g : Grid α) (t : Transform α) (column row : α) : α × α :=
  let image (column row : α) : α × α :=
    let (x, y) := g.transform.apply column row
    t.image x y
  let (x, y) := image column row
  let (rx, ry) := image (column + 1) row
  let (dx, dy) := image column (row + 1)
  (PlanarLength.length (rx - x) (ry - y), PlanarLength.length (dx - x) (dy - y))

/-- The size of a pixel in another system, from the finest of some samples. Where none of them
has an image it is taken from the envelopes. -/
def sampledResolution [PlanarLength α] (atlas : Atlas α) (g : Grid α) (crs : Crs)
    (samples : Int) : Except (Failure α) (α × α) := do
  let t ← atlas.find g.crs crs
  let steps := (sampleCentres g.row g.height samples).flatMap fun row =>
    (sampleCentres g.column g.width samples).map fun column => imageSteps g t column row
  let valid := steps.filter fun s =>
    Scalar.isFinite s.1 && Scalar.isFinite s.2 && 0 < s.1 && 0 < s.2
  match valid with
  | [] =>
    let e ← g.envelope.transform atlas crs
    return (e.width / Scalar.ofInt g.width, e.height / Scalar.ofInt g.height)
  | first :: rest =>
    return (Scalar.minimum first.1 (rest.map (·.1)), Scalar.minimum first.2 (rest.map (·.2)))

/-- The resolution in which to read data of a system for a grid, never finer than the data's
own. -/
def readResolution [PlanarLength α] (atlas : Atlas α) (g : Grid α) (crs : Crs)
    (native : Option (α × α)) (samples : Int) : Except (Failure α) (α × α) := do
  let (x, y) ←
    if g.crs.same crs then pure g.resolution else sampledResolution atlas g crs samples
  match native with
  | none => return (x, y)
  | some (nativeX, nativeY) => return (Scalar.max x nativeX, Scalar.max y nativeY)

end Antimeridian.Grid
