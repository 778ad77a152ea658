import Antimeridian.Projection.Globe

/-!
# Oblique Mercator projections

Mercator's projection turned onto a geodesic through a centre, in the form that keeps the scale
almost constant along it.
-/

namespace Antimeridian.Projection

/-- What places an oblique Mercator projection. Angles are in radians. -/
structure ObliqueLine where
  /-- The latitude of the centre. -/
  latitude : Float
  /-- The azimuth of the line at the centre. -/
  azimuth : Float
  /-- The angle from the rectified to the skew grid. -/
  skew : Float
  /-- The scale along the line. -/
  scale : Float
  /-- Whether coordinates start at the centre and not where the line meets the equator. -/
  fromCenter : Bool

/-- The oblique Mercator projection of a figure, and the longitude of its origin from that of the
centre. -/
def obliqueMercator (g : Figure) (l : ObliqueLine) : Chart × Float :=
  let m := g.squaredEccentricity
  let com := (1 - m).sqrt
  let s := l.latitude.sin
  let c := l.latitude.cos
  let con := 1 - m * s * s
  let tilted := smallAngle < l.latitude.abs
  let b := if tilted then (1 + m * (c * c) * (c * c) / (1 - m)).sqrt else 1 / com
  let a := if tilted then b * l.scale * com / con else l.scale
  let d := if tilted then b * com / (c * con.sqrt) else 1
  let f :=
    if !tilted then 1
    else
      let square := d * d - 1
      let root := if square ≤ 0 then 0 else if l.latitude < 0 then -square.sqrt else square.sqrt
      root + d
  let e := if tilted then f * (g.polarRatio l.latitude).pow b else 1
  let gamma := (l.azimuth.sin / d).asin
  let originLongitude := -((0.5 * (f - 1 / f) * gamma.tan).asin / b)
  let singam := gamma.sin
  let cosgam := gamma.cos
  let sinrot := l.skew.sin
  let cosrot := l.skew.cos
  let arb := a / b
  let bra := b / a
  let start :=
    if !l.fromCenter then 0
    else
      let u := (arb * ((d * d - 1).sqrt / l.azimuth.cos).atan).abs
      if l.latitude < 0 then -u else u
  let half := 0.5 * gamma
  let place (u v : Float) : Option (Float × Float) :=
    let u := u - start
    some (v * cosrot + u * sinrot, u * cosrot - v * sinrot)
  let chart : Chart :=
    { plot := fun lon lat =>
        if smallAngle < (lat.abs - quarter).abs then
          let w := e / (g.polarRatio lat).pow b
          let sl := 0.5 * (w - 1 / w)
          let tl := 0.5 * (w + 1 / w)
          let vl := (b * lon).sin
          let ul := (sl * singam - vl * cosgam) / tl
          if (ul.abs - 1).abs < smallAngle then none
          else
            let v := 0.5 * arb * ((1 - ul) / (1 + ul)).log
            let cosine := (b * lon).cos
            let u := if cosine.abs < 1e-7 then a * lon
              else arb * (sl * cosgam + vl * singam).atan2 cosine
            place u v
        else
          let side := if 0 < lat then pi / 4 - half else pi / 4 + half
          place (arb * lat) (arb * side.tan.log)
      locate := fun x y =>
        let v := x * cosrot - y * sinrot
        let u := y * cosrot + x * sinrot + start
        let q := (-(bra * v)).exp
        if q == 0 then none
        else
          let sp := 0.5 * (q - 1 / q)
          let tp := 0.5 * (q + 1 / q)
          let vp := (bra * u).sin
          let up := (vp * cosgam + sp * singam) / tp
          if (up.abs - 1).abs < smallAngle then
            some (0, if up < 0 then -quarter else quarter)
          else
            let ratio := (e / ((1 + up) / (1 - up)).sqrt).pow (1 / b)
            let lon := -((sp * cosgam - vp * singam).atan2 (bra * u).cos / b)
            some (lon, g.latitudeOfPolarRatio ratio) }
  (chart, originLongitude)

end Antimeridian.Projection
