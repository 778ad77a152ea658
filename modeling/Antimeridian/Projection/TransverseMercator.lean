import Antimeridian.Projection.Series

/-!
# Transverse Mercator projections

Mercator's projection turned onto a meridian. On a sphere it has a closed form; on an ellipsoid
the conformal sphere is mapped first and a trigonometric series of the sixth order in the third
flattening restores true distances along the central meridian.
-/

namespace Antimeridian.Projection

/-- The farthest easting of the ellipsoidal projection, in radians on the conformal sphere. -/
def farthestEasting : Float := 2.623395162778

/-- The transverse Mercator projection of an ellipsoid. -/
def ellipsoidalTransverse (g : Figure) (origin scale : Float) : Chart :=
  let n := g.thirdFlattening
  let size := g.rectifyingRadius scale
  let conformal (lat : Float) := lat + sineSeries (toConformal n) (2 * lat)
  let start := conformal origin
  let originNorthing := size * (start + sineSeries (toTrueDistance n) (2 * start))
  { plot := fun lon lat =>
      let chi := conformal lat
      let s := chi.sin
      let c := chi.cos
      let ahead := c * lon.cos
      let inverse := 1 / Binary64.length s ahead
      let tangent := lon.sin * c * inverse
      let twice := 2 * inverse
      let twiceSquare := twice * inverse
      let r := ahead * twiceSquare
      let (dn, de) := complexSineSeries (toTrueDistance n) (s * r) (ahead * r - 1)
        (tangent * twice) (twiceSquare - 1)
      let east := tangent.asinh + de
      if east.abs ≤ farthestEasting then
        some (size * east, size * (s.atan2 ahead + dn) - originNorthing)
      else none
    locate := fun x y =>
      let north := (y + originNorthing) / size
      let east := x / size
      if east.abs ≤ farthestEasting then
        let grown := (2 * east).exp
        let shrunk := 0.5 / grown
        let (dn, de) := complexSineSeries (fromTrueDistance n) (2 * north).sin (2 * north).cos
          (0.5 * grown - shrunk) (0.5 * grown + shrunk)
        let north := north + dn
        let slope := (east + de).sinh
        let ahead := north.cos
        let chi := north.sin.atan2 (Binary64.length slope ahead)
        some (slope.atan2 ahead, chi + sineSeries (fromConformal n) (2 * chi))
      else none }

/-- The transverse Mercator projection of a sphere. -/
def sphericalTransverse (origin scale : Float) : Chart where
  plot lon lat :=
    let c := lat.cos
    let b := c * lon.sin
    if (b.abs - 1).abs ≤ smallAngle then none
    else do
      let cosine := c * lon.cos / (1 - b * b).sqrt
      let north ←
        if c == 1 && quarter < lon.abs then some pi
        else if 1 ≤ cosine.abs then (if smallAngle < cosine.abs - 1 then none else some 0)
        else some cosine.acos
      let north := if lat < 0 then -north else north
      some (0.5 * scale * ((1 + b) / (1 - b)).log, scale * (north - origin))
  locate x y :=
    let h := (x / scale).exp
    if h == 0 then none
    else
      let g := 0.5 * (h - 1 / h)
      let d := origin + y / scale
      let c := d.cos
      let lat := ((1 - c * c) / (1 + g * g)).sqrt.asin
      let lat := if d < 0 then -lat else lat
      some (if g == 0 && c == 0 then 0 else g.atan2 c, lat)

end Antimeridian.Projection
