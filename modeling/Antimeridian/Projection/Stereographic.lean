import Antimeridian.Projection.Azimuthal

/-!
# Stereographic projections

The azimuthal projection that keeps angles, around a pole of an ellipsoid or around any point of
a sphere.
-/

namespace Antimeridian.Projection

/-- The scale of a polar projection with a given scale at the pole. -/
def scaleAtPole (g : Figure) (scale : Float) : Float :=
  let e := g.eccentricity
  2 * scale / ((1 + e).pow (1 + e) * (1 - e).pow (1 - e)).sqrt

/-- The scale of a polar projection that is true at a parallel. -/
def scaleAtParallel (g : Figure) (standard : Float) : Float :=
  let lat := standard.abs
  if (lat - quarter).abs < smallAngle then scaleAtPole g 1
  else g.parallelRadius lat / g.polarRatio lat

/-- The latitude with a polar ratio, by repeated substitution until a step is small, at most
`fuel` of them. -/
def refineLatitude (g : Figure) (ratio : Float) : Nat → Float → Option Float
  | 0, _ => none
  | fuel + 1, lat =>
    let x := g.eccentricity * lat.sin
    let next := quarter - 2 * (ratio * ((1 + x) / (1 - x)).pow (-0.5 * g.eccentricity)).atan
    if (lat - next).abs < 1e-10 then some next else refineLatitude g ratio fuel next

/-- The stereographic projection around a pole of an ellipsoid, from its scale. -/
def polarStereographic (g : Figure) (south : Bool) (scale : Float) : Chart :=
  let side := if south then -1 else 1
  { plot := fun lon lat =>
      let fromPole := side * lat
      let radius := if (fromPole - quarter).abs < 1e-15 then 0 else scale * g.polarRatio fromPole
      some (radius * lon.sin, -side * (radius * lon.cos))
    locate := fun x y => do
      let ratio := Binary64.length x y / scale
      let lat ← refineLatitude g ratio 8 (quarter - 2 * ratio.atan)
      let lon := if x == 0 && y == 0 then 0 else x.atan2 (-side * y)
      some (lon, side * lat) }

/-- The stereographic projection of a sphere around any point, with the scale there. -/
def sphericalStereographic (origin scale : Float) : Chart :=
  let full := 2 * scale
  { plot := fun lon lat =>
      let sight := Sight.of origin lon lat
      if 1 + sight.depth ≤ smallAngle then none
      else
        let stretch := full / (1 + sight.depth)
        some (stretch * sight.east, stretch * sight.north)
    locate := fun x y =>
      let radius := Binary64.length x y
      let distance := 2 * (radius / full).atan
      if radius ≤ smallAngle then some (0, origin)
      else fromCenter origin x y radius distance.sin distance.cos }

end Antimeridian.Projection
