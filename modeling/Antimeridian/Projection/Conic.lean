import Antimeridian.Projection.Series

/-!
# Conic projections

Meridians are rays from a point and parallels are arcs around it.
-/

namespace Antimeridian.Projection

/-- A cone fitted to a figure. -/
structure Cone where
  /-- The angle between the rays of two meridians, per angle between the meridians. -/
  aperture : Float
  /-- The radius of the arc with polar ratio one. -/
  factor : Float
  /-- The radius of the arc through the origin. -/
  originRadius : Float

/-- A latitude counts as that of a pole. -/
def isPole (lat : Float) : Bool := (lat.abs - quarter).abs < smallAngle

/-- The conformal cone that touches or cuts the figure at two standard parallels, which may
coincide. -/
def Cone.conformal (g : Figure) (first second origin : Float) : Cone :=
  let secant := smallAngle ≤ (first - second).abs
  let ratio := g.polarRatio first
  let radius := g.parallelRadius first
  let aperture :=
    if !secant then first.sin
    else if g.isSphere then
      (first.cos / second.cos).log
        / ((pi / 4 + 0.5 * second).tan / (pi / 4 + 0.5 * first).tan).log
    else (radius / g.parallelRadius second).log / (ratio / g.polarRatio second).log
  let factor := radius * ratio.pow (-aperture) / aperture
  { aperture
    factor
    originRadius := if isPole origin then 0 else factor * (g.polarRatio origin).pow aperture }

/-- Lambert's conformal conic projection, at a scale. -/
def conformalConic (g : Figure) (cone : Cone) (scale : Float) : Chart where
  plot lon lat :=
    let place (radius : Float) :=
      let angle := lon * cone.aperture
      some (scale * (radius * angle.sin), scale * (cone.originRadius - radius * angle.cos))
    if isPole lat then
      if lat * cone.aperture ≤ 0 then none else place 0
    else place (cone.factor * (g.polarRatio lat).pow cone.aperture)
  locate x y :=
    let east := x / scale
    let south := cone.originRadius - y / scale
    let radius := Binary64.length east south
    if radius == 0 then some (0, if 0 < cone.aperture then quarter else -quarter)
    else
      let sign := if cone.aperture < 0 then -1 else 1
      let ratio := (sign * radius / cone.factor).pow (1 / cone.aperture)
      some ((sign * east).atan2 (sign * south) / cone.aperture, g.latitudeOfPolarRatio ratio)

/-- The place of a point of a conic projection: the radius of its arc and its angle, both with the
sign of the aperture, from its coordinates relative to the apex. -/
def Cone.polar (cone : Cone) (east south : Float) : Float × Float :=
  let sign := if cone.aperture < 0 then -1 else 1
  (sign * Binary64.length east south, (sign * east).atan2 (sign * south))

/-- Two parallels count as one. -/
def isSingle (first second : Float) : Bool := (first - second).abs < smallAngle

/-- The latitude north of which a zone of a given area, doubled, ends at the equator, by Newton's
method, at most `fuel` steps. -/
def refineZone (g : Figure) (area : Float) : Nat → Float → Option Float
  | 0, _ => none
  | fuel + 1, lat =>
    let s := lat.sin
    let e := g.eccentricity
    let x := e * s
    let rest := 1 - x * x
    let step := 0.5 * rest * rest / lat.cos *
      (area / (1 - g.squaredEccentricity) - s / rest + 0.5 / e * ((1 - x) / (1 + x)).log)
    if step.abs ≤ 1e-10 then some (lat + step) else refineZone g area fuel (lat + step)

/-- The latitude of the parallel that bounds a zone of a given area, doubled. -/
def latitudeOfZone? (g : Figure) (area : Float) : Option Float :=
  if (g.zoneArea 1 - area.abs).abs ≤ 1e-7 then some (if area < 0 then -quarter else quarter)
  else if 2 < area.abs then none
  else
    let start := (0.5 * area).asin
    if g.eccentricity < 1e-7 then some start else refineZone g area 15 start

/-- Albers' conic projection, which keeps areas, true at two standard parallels. -/
def equalAreaConic (g : Figure) (first second origin : Float) : Chart :=
  let zone (lat : Float) := g.zoneArea lat.sin
  let square (lat : Float) := g.parallelRadius lat * g.parallelRadius lat
  let aperture :=
    if isSingle first second then first.sin
    else (square first - square second) / (zone second - zone first)
  let constant := square first + aperture * zone first
  let originRadius := (constant - aperture * zone origin).sqrt / aperture
  { plot := fun lon lat =>
      let rest := constant - aperture * zone lat
      if rest < 0 then none
      else
        let radius := rest.sqrt / aperture
        let angle := lon * aperture
        some (radius * angle.sin, originRadius - radius * angle.cos)
    locate := fun x y => do
      let (radius, angle) := (Cone.mk aperture 1 originRadius).polar x (originRadius - y)
      if radius == 0 then some (0, if 0 < aperture then quarter else -quarter)
      else
        let along := radius * aperture
        some (angle / aperture, ← latitudeOfZone? g ((constant - along * along) / aperture)) }

/-- The conic projection that keeps distances along meridians, true at two standard parallels. -/
def equidistantConic (g : Figure) (first second origin : Float) : Chart :=
  let aperture :=
    if isSingle first second then first.sin
    else (g.parallelRadius first - g.parallelRadius second)
      / (g.meridianDistance second - g.meridianDistance first)
  let apex := g.meridianDistance first + g.parallelRadius first / aperture
  let originRadius := apex - g.meridianDistance origin
  { plot := fun lon lat =>
      let radius := apex - g.meridianDistance lat
      let angle := lon * aperture
      some (radius * angle.sin, originRadius - radius * angle.cos)
    locate := fun x y =>
      let (radius, angle) := (Cone.mk aperture 1 originRadius).polar x (originRadius - y)
      if radius == 0 then some (0, if 0 < aperture then quarter else -quarter)
      else some (angle / aperture, g.latitudeAtDistance (apex - radius)) }

end Antimeridian.Projection
