import Antimeridian.Projection.Placement
import Antimeridian.Transform.Basic

/-!
# Relations between systems

Two systems of one body are related through the place they describe: its longitude from the
international meridian and its latitude, which all frames of a body are taken to share. Frames
that count longitudes from the same meridian pass them on as they are.
-/

namespace Antimeridian.Projection

/-- Coordinates of a system that is tied to a body, to and from places on it. -/
inductive Coordinates where
  /-- Longitude from a meridian, given in degrees, and latitude, both in units of some degrees. -/
  | angular (meridian unit : Float)
  /-- The plane of a map. -/
  | planar (placement : Placement)
  /-- The axes through the centre of a globe that meet the equator. Heights along the third axis
  and above the globe count as none. -/
  | axial (figure : Figure)

/-- The body and the coordinates of a system. Heights and methods without a chart have none. -/
def Coordinates.of? (c : Crs) : Option (Body × Coordinates) :=
  match c.system with
  | .geographic frame =>
    some (frame.body, .angular frame.meridian.toScalar frame.angularUnit.toScalar)
  | .projected frame plotting =>
    (Placement.of? frame plotting).map fun p => (frame.body, .planar p)
  | .geocentric frame => some (frame.body, .axial (.of frame.ellipsoid))
  | .vertical => none

/-- A longitude counted from another meridian. -/
def turnTo (offset lon lat : Float) : Option (Float × Float) := do
  let (lon, _) ← onGlobe? lon lat
  some (degrees (foldLongitude (lon + radians offset)), lat)

/-- The distances of a place from the planes through the poles, in metres. -/
def axesOf (g : Figure) (lon lat : Float) : Option (Float × Float) := do
  let (lon, lat) ← onGlobe? lon lat
  let radius := g.radius * g.parallelRadius lat
  some (radius * lon.cos, radius * lon.sin)

/-- The place above or below a point of the plane of the equator. Near the centre of the globe that
is a pole. -/
def ofAxes (g : Figure) (x y : Float) : Option (Float × Float) :=
  if !(x.isFinite && y.isFinite) then none
  else
    some (degrees (y.atan2 x),
      if Binary64.length x y ≤ g.squaredEccentricity * g.radius then 90 else 0)

namespace Coordinates

/-- The place that coordinates describe. -/
def toPlace : Coordinates → Float → Float → Option (Float × Float)
  | angular meridian unit, x, y =>
    if meridian == 0 then some (unit * x, unit * y) else turnTo meridian (unit * x) (unit * y)
  | planar placement, x, y => placement.invert x y
  | axial figure, x, y => ofAxes figure x y

/-- The coordinates of a place. -/
def ofPlace : Coordinates → Float → Float → Option (Float × Float)
  | angular meridian unit, lon, lat => do
    let (lon, lat) ← if meridian == 0 then some (lon, lat) else turnTo (-meridian) lon lat
    some (lon / unit, lat / unit)
  | planar placement, lon, lat => placement.project lon lat
  | axial figure, lon, lat => axesOf figure lon lat

/-- Whether coordinates are the same angles, which then go over as they are. -/
def sameAngles : Coordinates → Coordinates → Bool
  | angular a u, angular b v => a == b && u == v
  | _, _ => false

/-- The image of coordinates in other coordinates. -/
def image (source target : Coordinates) (x y : Float) : Option (Float × Float) := do
  let (lon, lat) ←
    match source, target with
    | angular a u, angular b _ => turnTo (a - b) (u * x) (u * y)
    | _, _ => source.toPlace x y
  match source, target with
  | angular _ _, angular _ v => some (lon / v, lat / v)
  | _, _ => target.ofPlace lon lat

end Coordinates

/-- The mark of a point without an image. -/
def unplaced (x y : Float) : Float × Float :=
  if x.isNaN || y.isNaN then (0.0 / 0.0, 0.0 / 0.0) else (1.0 / 0.0, 1.0 / 0.0)

/-- The mapping between the coordinates of two systems. -/
def mapping (source target : Coordinates) : Mapping Float where
  image x y := (source.image target x y).getD (unplaced x y)
  fails x y :=
    match source.image target x y with
    | some (u, v) => !(u.isFinite && v.isFinite)
    | none => true

/-- The mapping that leaves every point where it is. -/
def stay : Mapping Float where
  image x y := (x, y)
  fails _ _ := false
  verbatim := true

/-- The relations between the systems of a body. -/
def atlas : Atlas Float where
  relation? source target :=
    match Coordinates.of? source, Coordinates.of? target with
    | some (a, s), some (b, t) =>
      if a ≠ b then none else some (if s.sameAngles t then stay else mapping s t)
    | _, _ => if source.same target then some stay else none

end Antimeridian.Projection
