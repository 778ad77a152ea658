import Antimeridian.Projection.ConformalSphere
import Antimeridian.Projection.Conic
import Antimeridian.Projection.Cylindrical
import Antimeridian.Projection.ObliqueMercator
import Antimeridian.Projection.Robinson
import Antimeridian.Projection.Stereographic
import Antimeridian.Projection.TransverseMercator
import Antimeridian.Projection.World

/-!
# Charts in place

A projected system is a chart of its globe, placed by a central meridian, a false origin and the
length of its unit. Longitudes and latitudes are in degrees from the international meridian.
-/

namespace Antimeridian.Projection

open Crs (Plotting Method Role)

/-- A chart with what places it. -/
structure Placement where
  /-- The projection of the globe of unit radius. -/
  chart : Chart
  /-- The radius of the equator in metres. -/
  radius : Float
  /-- The central meridian in radians. -/
  meridian : Float
  /-- Metres from the origin of the coordinates to that of the chart, to the east. -/
  easting : Float
  /-- Metres from the origin of the coordinates to that of the chart, to the north. -/
  northing : Float
  /-- Metres in a unit of the coordinates. -/
  unit : Float

/-- The parameter of a projection with one of some roles, or a standard value. -/
def parameter (p : Plotting) (roles : List Role) (standard : Float) : Float :=
  ((roles.findSome? fun role => p.parameters.lookup role).map Quantity.toScalar).getD standard

/-- The angle with one of some roles in radians, zero where there is none. -/
def angle (p : Plotting) (roles : List Role) : Float := radians (parameter p roles 0)

/-- The latitude of a projection's origin in radians. -/
def originLatitude (p : Plotting) : Float :=
  angle p [.naturalLatitude, .falseLatitude, .centreLatitude]

/-- The scale at a projection's origin. -/
def originScale (p : Plotting) : Float := parameter p [.naturalScale, .centreScale] 1

/-- The line of an oblique Mercator projection. -/
def obliqueLine (p : Plotting) (fromCenter : Bool) : ObliqueLine where
  latitude := originLatitude p
  azimuth := angle p [.centreAzimuth]
  skew := angle p [.skewAngle]
  scale := originScale p
  fromCenter := fromCenter

/-- The chart of a projection on a globe, and the longitude in radians of its origin from the
central meridian that its parameters name. Methods without a chart here have none. -/
def chart? (g : Figure) (p : Plotting) : Option (Chart × Float) :=
  let origin := originLatitude p
  let first := angle p [.firstParallel]
  let scale := originScale p
  let centred (c : Chart) : Option (Chart × Float) := some (c, 0)
  match p.method with
  | .mercatorA => centred (mercator g scale)
  | .mercatorB => centred (mercator g (g.parallelRadius first))
  | .pseudoMercator => centred (mercator g.sphere 1)
  | .transverseMercator =>
    centred (if g.isSphere then sphericalTransverse origin scale
      else ellipsoidalTransverse g origin scale)
  | .obliqueMercatorA => some (obliqueMercator g (obliqueLine p false))
  | .obliqueMercatorB =>
    if parameter p [.centreAzimuth] 0 == 90 && parameter p [.skewAngle] 0 == 90 then
      centred (crossMercator g origin scale)
    else some (obliqueMercator g (obliqueLine p true))
  | .cylindricalEqualArea => centred (cylindricalEqualArea g first)
  | .equidistantCylindrical | .equidistantCylindricalSpherical =>
    centred (equidistantCylindrical first origin)
  | .conicConformalOneParallel =>
    centred (conformalConic g (Cone.conformal g origin origin origin) scale)
  | .conicConformalTwoParallels =>
    centred (conformalConic g (Cone.conformal g first (angle p [.secondParallel]) origin) 1)
  | .azimuthalEqualArea | .azimuthalEqualAreaSpherical =>
    centred (if g.isSphere then sphericalEqualArea origin else ellipsoidalEqualArea g origin)
  | .azimuthalEquidistant => if g.isSphere then centred (azimuthalEquidistant origin) else none
  | .gnomonic => if g.isSphere then centred (gnomonic origin) else none
  | .orthographic => if g.isSphere then centred (orthographic origin) else none
  | .polarStereographicA =>
    centred (polarStereographic g (origin < 0) (scaleAtPole g scale))
  | .polarStereographicB =>
    let standard := angle p [.standardLatitude]
    centred (polarStereographic g (standard < 0) (scaleAtParallel g standard))
  | .stereographic => if g.isSphere then centred (sphericalStereographic origin scale) else none
  | .mollweide => centred mollweide
  | .sinusoidal => if g.isSphere then centred sinusoidal else none
  | .robinson => centred robinson
  | .equalEarth => centred (equalEarth g)
  | .obliqueStereographic => centred (obliqueStereographic g origin scale)
  | .albersEqualArea => centred (equalAreaConic g first (angle p [.secondParallel]) origin)
  | .equidistantConic => centred (equidistantConic g first (angle p [.secondParallel]) origin)

/-- The placement of a projection on a frame. -/
def Placement.of? (frame : Frame) (p : Plotting) : Option Placement := do
  let g := Figure.of frame.ellipsoid
  let (chart, origin) ← chart? g p
  let meridian := angle p
    [.naturalLongitude, .falseLongitude, .originLongitude, .centreLongitude]
  let unit := p.unit.toScalar
  some
    { chart
      radius := g.radius
      meridian := radians frame.meridian.toScalar + meridian + origin
      easting :=
        unit * parameter p [.falseEasting, .eastingAtFalseOrigin, .eastingAtCentre] 0
      northing :=
        unit * parameter p [.falseNorthing, .northingAtFalseOrigin, .northingAtCentre] 0
      unit }

/-- The angles of a place in radians, if it is on the globe: no latitude lies beyond a pole, and
a longitude more than ten radians away is taken for a mistake. -/
def onGlobe? (lon lat : Float) : Option (Float × Float) :=
  let lon := radians lon
  let lat := radians lat
  if lat.abs ≤ quarter + 1e-12 && lon.abs ≤ 10 then
    some (lon, if quarter < lat then quarter else if lat < -quarter then -quarter else lat)
  else none

namespace Placement

/-- The coordinates of a place. -/
def project (p : Placement) (lon lat : Float) : Option (Float × Float) := do
  let (lon, lat) ← onGlobe? lon lat
  let (x, y) ← p.chart.plot (foldLongitude (lon - p.meridian)) lat
  some ((p.radius * x + p.easting) / p.unit, (p.radius * y + p.northing) / p.unit)

/-- Whether a coordinate marks that there is none. -/
def isMark (x : Float) : Bool := x.isNaN || x == 1.0 / 0.0

/-- The place with given coordinates. -/
def invert (p : Placement) (x y : Float) : Option (Float × Float) := do
  if isMark x || isMark y then none
  let (lon, lat) ←
    p.chart.locate ((p.unit * x - p.easting) / p.radius) ((p.unit * y - p.northing) / p.radius)
  some (degrees (foldLongitude (lon + p.meridian)), degrees lat)

end Placement

end Antimeridian.Projection
