import Antimeridian.Projection.Globe

/-!
# Conformal spheres

A globe is mapped onto a sphere that fits it around a latitude, angles being kept; the sphere is
then projected. Projections in two steps are the stereographic one around any point and Mercator's
around a great circle that crosses a meridian at a right angle.
-/

namespace Antimeridian.Projection

/-- A sphere that a globe is mapped onto. -/
structure ConformalSphere where
  /-- The globe. -/
  figure : Figure
  /-- The angle between two meridians of the sphere, per angle between those of the globe. -/
  exponent : Float
  /-- What brings the equator of the globe to its parallel of the sphere. -/
  factor : Float
  /-- The latitude on the sphere of the place where it fits. -/
  origin : Float
  /-- The radius of the sphere. -/
  radius : Float

namespace ConformalSphere

/-- The stretch of a latitude by the flattening, from the sine of the latitude. -/
def stretch (g : Figure) (power s : Float) : Float :=
  let x := g.eccentricity * s
  ((1 - x) / (1 + x)).pow power

/-- The sphere that fits a globe around a latitude. -/
def fitting (g : Figure) (lat : Float) : ConformalSphere :=
  let m := g.squaredEccentricity
  let s := lat.sin
  let square := lat.cos * lat.cos
  let exponent := (1 + m * square * square / (1 - m)).sqrt
  let origin := (s / exponent).asin
  let bend := stretch g (0.5 * exponent * g.eccentricity) s
  { figure := g
    exponent
    factor := (0.5 * origin + pi / 4).tan / ((0.5 * lat + pi / 4).tan.pow exponent * bend)
    origin
    radius := (1 - m).sqrt / (1 - m * s * s) }

/-- The latitude on the sphere of a latitude on the globe. -/
def ofGlobe (c : ConformalSphere) (lat : Float) : Float :=
  2 * (c.factor * (0.5 * lat + pi / 4).tan.pow c.exponent
    * stretch c.figure (0.5 * c.exponent * c.figure.eccentricity) lat.sin).atan - quarter

/-- The latitude on the globe by repeated substitution, at most `fuel` of them. -/
def refine (c : ConformalSphere) (ratio : Float) : Nat → Float → Option Float
  | 0, _ => none
  | fuel + 1, lat =>
    let next := 2 * (ratio * stretch c.figure (-0.5 * c.figure.eccentricity) lat.sin).atan
      - quarter
    if (next - lat).abs < 1e-14 then some next else c.refine ratio fuel next

/-- The latitude on the globe of a latitude on the sphere. -/
def toGlobe? (c : ConformalSphere) (lat : Float) : Option Float :=
  c.refine (((0.5 * lat + pi / 4).tan / c.factor).pow (1 / c.exponent)) 20 lat

end ConformalSphere

/-- The stereographic projection of a globe around any point, in two steps, with the scale
there. -/
def obliqueStereographic (g : Figure) (origin scale : Float) : Chart :=
  let c := ConformalSphere.fitting g origin
  let s0 := c.origin.sin
  let c0 := c.origin.cos
  let full := 2 * c.radius
  { plot := fun lon lat =>
      let lat := c.ofGlobe lat
      let lon := c.exponent * lon
      let east := lat.cos * lon.sin
      let ahead := lat.cos * lon.cos
      let depth := 1 + s0 * lat.sin + c0 * ahead
      if depth == 0 then none
      else
        let stretch := scale * full / depth
        some (stretch * east, stretch * (c0 * lat.sin - s0 * ahead))
    locate := fun x y => do
      let x := x / scale
      let y := y / scale
      let radius := Binary64.length x y
      let (lon, lat) :=
        if radius == 0 then (0, c.origin)
        else
          let distance := 2 * radius.atan2 full
          let s := distance.sin
          let d := distance.cos
          ((x * s).atan2 (radius * c0 * d - y * s0 * s), (d * s0 + y * s * c0 / radius).asin)
      some (lon / c.exponent, ← c.toGlobe? lat) }

/-- Mercator's projection of a globe in two steps, around the great circle that crosses the
central meridian at a right angle, with the scale along it. -/
def crossMercator (g : Figure) (origin scale : Float) : Chart :=
  let c := ConformalSphere.fitting g origin
  let s0 := c.origin.sin
  let c0 := c.origin.cos
  let size := scale * c.radius
  { plot := fun lon lat => do
      let lat := c.ofGlobe lat
      let lon := c.exponent * lon
      let turned ← arcSine? (c0 * lat.sin - s0 * lat.cos * lon.cos)
      let along ← arcSine? (lat.cos * lon.sin / turned.cos)
      some (size * along, size * (pi / 4 + 0.5 * turned).tan.log)
    locate := fun x y => do
      let turned := 2 * ((y / size).exp.atan - pi / 4)
      let along := x / size
      let lat ← arcSine? (c0 * turned.sin + s0 * turned.cos * along.cos)
      let lon ← arcSine? (turned.cos * along.sin / lat.cos)
      some (lon / c.exponent, ← c.toGlobe? lat) }

end Antimeridian.Projection
