import Antimeridian.Crs.Basic
import Antimeridian.Scalar.Binary64

/-!
# The globe

The figure of a globe of unit equatorial radius, the angles on it, and the latitudes that stand
in for the geodetic one: a projection that keeps angles starts from the conformal latitude, one
that keeps areas from the authalic latitude.
-/

namespace Antimeridian.Projection

/-- Half a turn in radians. -/
def pi : Float := 3.141592653589793

/-- A quarter turn in radians. -/
def quarter : Float := pi / 2

/-- An angle this small counts as none. -/
def smallAngle : Float := 1e-10

/-- Degrees as radians. -/
def radians (degrees : Float) : Float := degrees * (pi / 180)

/-- Radians as degrees. -/
def degrees (radians : Float) : Float := radians * (180 / pi)

/-- The longitude, in radians, moved by whole turns to within half a turn of zero. One that is
there already, or on the edge, stays. -/
def foldLongitude (lon : Float) : Float :=
  if lon.abs < pi + 1e-12 then lon
  else
    let turn := 2 * pi
    let east := lon + pi
    east - turn * (east / turn).floor - pi

/-- The shape of a globe. -/
structure Figure where
  /-- The radius of the equator in metres. -/
  radius : Float
  /-- The flattening. -/
  flattening : Float

namespace Figure

/-- The shape of an ellipsoid. -/
def of (ellipsoid : Ellipsoid) : Figure where
  radius := ellipsoid.semiMajor.toScalar
  flattening :=
    match ellipsoid.inverseFlattening with
    | some reciprocal => 1 / reciprocal.toScalar
    | none => 0

/-- The sphere with the radius of the equator. -/
def sphere (g : Figure) : Figure := { g with flattening := 0 }

/-- Whether the figure is a sphere. -/
def isSphere (g : Figure) : Bool := g.flattening == 0

/-- The square of the first eccentricity. -/
def squaredEccentricity (g : Figure) : Float :=
  2 * g.flattening - g.flattening * g.flattening

/-- The first eccentricity. -/
def eccentricity (g : Figure) : Float := g.squaredEccentricity.sqrt

/-- The third flattening. -/
def thirdFlattening (g : Figure) : Float := g.flattening / (2 - g.flattening)

/-- The radius of the parallel at a latitude. -/
def parallelRadius (g : Figure) (lat : Float) : Float :=
  let s := lat.sin
  lat.cos / (1 - g.squaredEccentricity * s * s).sqrt

/-- The tangent of half the angle between the conformal latitude and the north pole. -/
def polarRatio (g : Figure) (lat : Float) : Float :=
  let s := lat.sin
  let c := lat.cos
  let e := g.eccentricity
  (e * (e * s).atanh).exp * (if 0 < s then c / (1 + s) else (1 - s) / c)

/-- The tangent of the conformal latitude, from the tangent of the geodetic one, and the secants of
both. -/
def conformalTangent (g : Figure) (t : Float) : Float × Float × Float :=
  let e := g.eccentricity
  let secant := (1 + t * t).sqrt
  let sigma := (e * (e * t / secant).atanh).sinh
  let reached := (1 + sigma * sigma).sqrt * t - sigma * secant
  (reached, secant, (1 + reached * reached).sqrt)

/-- Newton's method for the tangent of the latitude whose conformal latitude has a given tangent,
until a step is within the tolerance, at most `fuel` steps. -/
def refineTangent (g : Figure) (wanted tolerance : Float) : Nat → Float → Float
  | 0, t => t
  | fuel + 1, t =>
    let narrow := 1 - g.squaredEccentricity
    let (reached, secant, reachedSecant) := g.conformalTangent t
    let step := (wanted - reached) * (1 + narrow * (t * t)) / (narrow * secant * reachedSecant)
    if tolerance ≤ step.abs then refineTangent g wanted tolerance fuel (t + step) else t + step

/-- The latitude whose conformal latitude has the given tangent. Beyond a certain steepness the
start is as good as any refinement. -/
def latitudeOfConformal (g : Figure) (tangent : Float) : Float :=
  let rootStep := 1.4901161193847656e-08
  let tolerance := rootStep / 10 * (if tangent.abs < 1 then 1 else tangent.abs)
  let e := g.eccentricity
  let start :=
    if 70 < tangent.abs then tangent * (e * e.atanh).exp
    else tangent / (1 - g.squaredEccentricity)
  if start.abs < 2 / rootStep then (g.refineTangent tangent tolerance 5 start).atan
  else start.atan

/-- The latitude with a given polar ratio. -/
def latitudeOfPolarRatio (g : Figure) (ratio : Float) : Float :=
  g.latitudeOfConformal ((1 / ratio - ratio) / 2)

/-- The area between the equator and a parallel, for a turn of longitude of one radian, from the
sine of its latitude; doubled. -/
def zoneArea (g : Figure) (s : Float) : Float :=
  let e := g.eccentricity
  if e < 1e-7 then s + s
  else
    let x := e * s
    (1 - g.squaredEccentricity) * (s / (1 - x * x) - 0.5 / e * ((1 - x) / (1 + x)).log)

/-- The latitude whose authalic latitude is given: a series in the squared eccentricity. -/
def latitudeOfAuthalic (g : Figure) (beta : Float) : Float :=
  let m := g.squaredEccentricity
  let m2 := m * m
  let m3 := m2 * m
  let a := m * (1.0 / 3.0) + m2 * (31.0 / 180.0) + m3 * (517.0 / 5040.0)
  let b := m2 * (23.0 / 360.0) + m3 * (251.0 / 3780.0)
  let c := m3 * (761.0 / 45360.0)
  let t := beta + beta
  beta + a * t.sin + b * (t + t).sin + c * (t + t + t).sin

end Figure

/-- A projection of a globe of unit equatorial radius. Angles are in radians, longitudes are
relative to the central meridian, and a point without an image has none. -/
structure Chart where
  /-- The point of the plane for a longitude and a latitude. -/
  plot : Float → Float → Option (Float × Float)
  /-- The longitude and latitude for a point of the plane. -/
  locate : Float → Float → Option (Float × Float)

/-- The angle with a given sine. A sine that exceeds one by rounding only is one. -/
def arcSine? (s : Float) : Option Float :=
  if 1 ≤ s.abs then
    if 1.00000000000001 < s.abs then none else some (if s < 0 then -quarter else quarter)
  else some s.asin

end Antimeridian.Projection
