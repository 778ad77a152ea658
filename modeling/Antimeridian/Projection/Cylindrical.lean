import Antimeridian.Projection.Globe

/-!
# Cylindrical projections

Meridians are parallel lines at equal distances; the projections differ in the spacing of the
parallels. The scale along a standard parallel is true.
-/

namespace Antimeridian.Projection

/-- Mercator's projection, which keeps angles, at a scale. -/
def mercator (g : Figure) (scale : Float) : Chart where
  plot lon lat :=
    let s := lat.sin
    let c := lat.cos
    let e := g.eccentricity
    let bend := if g.isSphere then 0 else e * (e * s).atanh
    some (scale * lon, scale * ((s / c).asinh - bend))
  locate x y := some (x / scale, g.latitudeOfConformal (y / scale).sinh)

/-- Lambert's cylindrical projection, which keeps areas, true at a standard parallel. -/
def cylindricalEqualArea (g : Figure) (standard : Float) : Chart :=
  let scale := g.parallelRadius standard
  let whole := g.zoneArea 1
  { plot := fun lon lat => some (scale * lon, 0.5 * g.zoneArea lat.sin / scale)
    locate := fun x y =>
      let s := 2 * y * scale / whole
      if 1 + smallAngle < s.abs then none
      else
        let beta := if 1 ≤ s.abs then (if s < 0 then -quarter else quarter) else s.asin
        some (x / scale, g.latitudeOfAuthalic beta) }

/-- Equidistant parallels of a sphere, true at a standard parallel. -/
def equidistantCylindrical (standard origin : Float) : Chart :=
  let scale := standard.cos
  { plot := fun lon lat => some (scale * lon, lat - origin)
    locate := fun x y => some (x / scale, y + origin) }

end Antimeridian.Projection
