import Antimeridian.Crs.Reference
import Antimeridian.Transform.Basic

/-!
# Envelopes in other systems

The image of a rectangle is bounded through the images of points along its outline. Points
without an image are left out. Into longitude and latitude the images are unwrapped first, so
that a rectangle across the antimeridian keeps its width, and a rectangle around a pole covers
every longitude up to that pole.
-/

namespace Antimeridian.Envelope

variable {α : Type} [Scalar α]

/-- The number of points sampled along each edge unless a caller asks for another. -/
def defaultDensity : Int := 32

/-- The fractions of an edge at which it is sampled, its far end excluded. -/
def fractions (n : Nat) : List α :=
  let step : α := 1 / Scalar.ofInt n
  (List.range n).map fun (i : Nat) => Scalar.ofInt i * step + 0

/-- Points along the outline: counter-clockwise from the south-west corner and back to it. -/
def outline (e : Envelope α) (density : Int) : List (α × α) :=
  let n := (max density 2).toNat
  let ts : List α := fractions n
  let w := e.maxx - e.minx
  let h := e.maxy - e.miny
  ts.map (fun t => (e.minx + t * w, e.miny))
    ++ ts.map (fun t => (e.maxx, e.miny + t * h))
    ++ ts.map (fun t => (e.maxx - t * w, e.maxy))
    ++ ts.map (fun t => (e.minx, e.maxy - t * h))
    ++ [(e.minx, e.miny)]

/-- The coordinates of a pair are both finite. -/
def isFinitePoint (p : α × α) : Bool := Scalar.isFinite p.1 && Scalar.isFinite p.2

/-- The range of a non-empty list. -/
def range (first : α) (rest : List α) : α × α :=
  (Scalar.minimum first rest, Scalar.maximum first rest)

/-- The range of longitudes of an outline, given its longitudes in order and whether every point
of the outline has one. An outline that covers a turn, or does not close, goes all the way
around; any other range is placed with its middle in the period around zero. -/
def longitudeRange (first : α) (rest : List α) (complete : Bool) : α × α :=
  let turn : α := Longitude.turn
  let lon := Longitude.unwrap turn (first :: rest)
  let (low, high) := range (lon.headD first) lon.tail
  let gap := Scalar.abs (lon.getLastD first - lon.headD first)
  if turn ≤ high - low || (complete && turn / 2 < gap) then (-180, 180)
  else
    let shift := Scalar.roundWhole ((low + high) / 2 / turn) * turn
    (low - shift, high - shift)

/-- A geographic range widened to a pole, if the envelope holds the pole's image. -/
def withPole (e : Envelope α) (toOwn : Transform α) (bound : Envelope α) (pole : α) :
    Envelope α :=
  let (x, y) := toOwn.image 0 pole
  if Scalar.isFinite x && Scalar.isFinite y && e.containsPoint x y then
    { bound with
      minx := -180
      maxx := 180
      miny := Scalar.min bound.miny pole
      maxy := Scalar.max bound.maxy pole }
  else bound

/-- The geographic envelope of an outline's finite images. -/
def boundGeographic (atlas : Atlas α) (e : Envelope α) (own target : Crs)
    (first : α × α) (rest : List (α × α)) (complete : Bool) :
    Except (Failure α) (Envelope α) := do
  let (minx, maxx) := longitudeRange first.1 (rest.map (·.1)) complete
  let (miny, maxy) := range first.2 (rest.map (·.2))
  let toOwn ← atlas.find target own
  let bound : Envelope α := ⟨minx, miny, maxx, maxy, some target⟩
  return withPole e toOwn (withPole e toOwn bound 90) (-90)

/-- The envelope in another system. Between equal systems it is relabelled, and the empty
envelope stays empty. -/
def sampledTransform (e : Envelope α) (atlas : Atlas α) (target : Crs) (density : Int) :
    Except (Failure α) (Envelope α) := do
  let some own := e.crs | .error .envelopeWithoutCrs
  let target := target.horizontal
  if own.same target then return e.withCrs (some target)
  if e.isEmpty then return empty (some target)
  let base ← atlas.find own target
  let transform :=
    if own.isGeographic && target.isGeographic then .preserving base Longitude.turn else base
  let images := (e.outline density).map fun p => transform.image p.1 p.2
  match images.filter isFinitePoint with
  | [] => .error (.imageless e target)
  | first :: rest =>
    if target.isGeographic && !own.isGeographic then
      boundGeographic atlas e own target first rest (images.all isFinitePoint)
    else
      let (minx, maxx) := range first.1 (rest.map (·.1))
      let (miny, maxy) := range first.2 (rest.map (·.2))
      return ⟨minx, miny, maxx, maxy, some target⟩

/-- The envelope in another system, with the usual number of points along each edge. -/
def transform (e : Envelope α) (atlas : Atlas α) (target : Crs) :
    Except (Failure α) (Envelope α) :=
  e.sampledTransform atlas target defaultDensity

/-- The envelope in the system that a value names. An envelope without a system of its own is
refused before the value is read. -/
def transformTo (e : Envelope α) (atlas : Atlas α) (target : Text.Literal) (density : Int) :
    Except (Failure α) (Envelope α) := do
  if e.crs.isNone then .error .envelopeWithoutCrs
  e.sampledTransform atlas (← Crs.ofLiteral target) density

end Antimeridian.Envelope
