import Antimeridian.Crs.Family
import Antimeridian.Envelope.Reproject
import Antimeridian.Geometry.Unwrap
import Antimeridian.Plane.Overlay

/-!
# Rendering requests

A rendering request paints data of one system into an area of another. It knows the two systems,
the geographic base of the target, where valid areas and antimeridian splits are reasoned about,
and, when the horizontal axis of the target repeats and copies are wanted, the cycle with which
it does.
-/

namespace Antimeridian

/-- What reprojecting and cutting is done with. -/
structure Setting (α : Type) where
  /-- The relations between reference systems. -/
  atlas : Atlas α
  /-- The operations on areas. -/
  overlay : Overlay α

/-- How the horizontal axis of a system repeats. -/
structure Cycle (α : Type) where
  /-- The distance along the axis that covers half a turn of longitude. -/
  radius : α
  /-- The longitude at the origin of the axis, in degrees. -/
  centralMeridian : α
  /-- The abscissa of that longitude. -/
  origin : α
  /-- The ordinate along which rings around the southern pole are closed. -/
  south : α
  /-- The ordinate along which rings around the northern pole are closed. -/
  north : α

/-- A request to render data of one system in an area of another. -/
structure Rendering (α : Type) where
  /-- The area being rendered, in the target system. -/
  area : Envelope α
  /-- The system of the data. -/
  source : Crs
  /-- The system of the rendering. -/
  target : Crs
  /-- The geographic base of the target. -/
  base : Crs
  /-- The area the target renders sensibly, none for the whole globe. -/
  validArea : Option (Envelope α)
  /-- The family of the target. -/
  family : Family
  /-- The greatest number of whole turns by which a query or a geometry is moved. -/
  cap : Int
  /-- The transform from the source to the target. -/
  relation : Transform α
  /-- How the target's horizontal axis repeats, where copies are wanted. -/
  cycle : Option (Cycle α)

namespace Rendering

variable {α : Type} [Scalar α]

/-- The number of whole turns considered on each side unless a caller asks for another. -/
def defaultCap : Int := 10

/-- The system of a rendering area that is there, carries one and is not empty. -/
def checkArea (area : Option (Envelope α)) : Except (Failure α) (Envelope α × Crs) :=
  match area with
  | none => .error .renderingWithoutCrs
  | some e =>
    match e.crs with
    | none => .error .renderingWithoutCrs
    | some crs => if e.isEmpty then .error .renderingEmpty else .ok (e, crs)

/-- A request without copies. The rendering area is checked before the source is. -/
def plain (setting : Setting α) (source : Except (Failure α) Crs)
    (validArea : Option (Envelope α)) (area : Option (Envelope α)) (family : Family) :
    Except (Failure α) (Rendering α) := do
  let (area, crs) ← checkArea area
  let source := (← source).horizontal
  let target := crs.horizontal
  let some base := target.base? | .error (.frameMissing target)
  let relation ← setting.atlas.find source target
  return { area, source, target, base, validArea, family, cap := defaultCap, relation,
           cycle := none }

/-- The cycle of a geographic system. -/
def geographicCycle : Cycle α :=
  { radius := 180, centralMeridian := 0, origin := 0, south := -90, north := 90 }

/-- The ordinates of the valid area's southern and northern edges, or of the rendering area's
where those have none. -/
def poleOrdinates (r : Rendering α) (toTarget : Transform α) (meridian : α) : α × α :=
  let (south, north) :=
    match r.validArea with
    | some valid => (valid.miny, valid.maxy)
    | none => (-ValidArea.mercatorLimit, ValidArea.mercatorLimit)
  let low := (toTarget.image meridian south).2
  let high := (toTarget.image meridian north).2
  if Scalar.isFinite low && Scalar.isFinite high then (low, high) else (r.area.miny, r.area.maxy)

/-- The cycle of a projected system, measured along the equator from its central meridian. -/
def measuredCycle (setting : Setting α) (r : Rendering α) : Except (Failure α) (Cycle α) := do
  let centralMeridian : α := r.target.centralMeridian.toScalar
  let toTarget ← setting.atlas.find r.base r.target
  let start := (toTarget.image centralMeridian 0).1
  let half := (toTarget.image (centralMeridian + 180) 0).1
  let radius := Scalar.abs (half - start)
  if !Scalar.isFinite radius || radius ≤ 0 then .error (.periodUnmeasured r.target)
  let (south, north) := r.poleOrdinates toTarget centralMeridian
  return { radius, centralMeridian, origin := start, south, north }

/-- A request with up to `cap` copies on each side of everything it renders. -/
def wrapping (setting : Setting α) (source : Except (Failure α) Crs)
    (validArea : Option (Envelope α)) (area : Option (Envelope α)) (family : Family) (cap : Int) :
    Except (Failure α) (Rendering α) := do
  let r ← plain setting source validArea area family
  if cap < 0 then .error (.negativeWraps cap)
  let cycle ← if r.target.isGeographic then pure geographicCycle else measuredCycle setting r
  return { r with cap, cycle := some cycle }

/-- What a request keeps while it is worked on. -/
structure State (α : Type) where
  /-- Whether queries that cross the antimeridian are split there. -/
  acrossDateline : Bool
  /-- The queries, once they have been planned. -/
  queries : Option (List (Envelope α)) := none
  /-- The number of copies made so far, the first place of each geometry aside. -/
  copiesMade : Nat := 0

/-- Work on a request. A failure keeps what has been changed before it. -/
abbrev Action (α : Type) := ExceptT (Failure α) (StateM (State α))

/-- Whether the request makes copies. -/
def makesCopies (r : Rendering α) : Bool := r.cycle.isSome

/-- The state in which work on a request starts: copies go with split queries. -/
def start (r : Rendering α) : State α := { acrossDateline := r.makesCopies }

/-- The request for painting data of a system in an area, with its state, or none for data
without a system. The family of the target decides on the valid area, and whether queries are
split and, if wanted, copies are made. -/
def find (setting : Setting α) (area : Option (Envelope α))
    (source : Except (Failure α) (Option Crs)) (wrap : Bool) (cap : Int) :
    Except (Failure α) (Option (Rendering α × State α)) := do
  let some crs := area.bind (·.crs) | .error .renderingRequired
  if source matches .ok none then return none
  let source := source.bind Crs.required
  let target := crs.horizontal
  let family := Family.of target
  let validArea ← ValidArea.of target family
  if family.isPeriodic && wrap && 0 < cap then
    let r ← wrapping setting source validArea area family cap
    return some (r, r.start)
  else
    let r ← plain setting source validArea area family
    return some (r, { r.start with acrossDateline := family.isPeriodic })

/-- The kind of a request, as shown in its text. -/
def kindText (r : Rendering α) : String :=
  if r.makesCopies then "WrappingProjectionHandler" else "ProjectionHandler"

/-- The text of a request: its kind, the family of its target and the names of its systems. -/
def describe (r : Rendering α) : String :=
  "<" ++ r.kindText ++ " family=" ++ r.family.label ++ " source=" ++ Text.quoted r.source.name
    ++ " target=" ++ Text.quoted r.target.name ++ ">"

/-- The transform that renders source geometries, from one between the two systems. Between
geographic systems copies need whole turns to be kept. -/
def renderingTransform (r : Rendering α) (t : Transform α) : Transform α :=
  if r.makesCopies && t.source.isGeographic && t.target.isGeographic && !t.isIdentity then
    .preserving t Longitude.turn
  else t

end Rendering

end Antimeridian
