import Antimeridian.Projection.Globe

/-!
# World projections

Projections of the whole globe with straight parallels, for maps of the world.
-/

namespace Antimeridian.Projection

/-- The auxiliary angle of Mollweide's projection, doubled, by Newton's method, at most `fuel`
steps. Near a pole the method stalls and there is none. -/
def mollweideAngle (wanted : Float) : Nat → Float → Option Float
  | 0, _ => none
  | fuel + 1, angle =>
    let step := (angle + angle.sin - wanted) / (1 + angle.cos)
    if step.abs < 1e-7 then some (angle - step) else mollweideAngle wanted fuel (angle - step)

/-- Mollweide's projection of a sphere onto an ellipse. -/
def mollweide : Chart :=
  let root := (2 * pi / pi).sqrt
  let wide := 2 * root / pi
  { plot := fun lon lat =>
      let angle :=
        match mollweideAngle (pi * lat.sin) 30 lat with
        | some doubled => doubled * 0.5
        | none => if lat < 0 then -quarter else quarter
      some (wide * lon * angle.cos, root * angle.sin)
    locate := fun x y => do
      let angle ← arcSine? (y / root)
      let lon := x / (wide * angle.cos)
      if lon.abs < pi then
        let doubled := angle + angle
        some (lon, ← arcSine? ((doubled + doubled.sin) / pi))
      else none }

/-- The sinusoidal projection of a sphere. -/
def sinusoidal : Chart where
  plot lon lat := some (lon * lat.cos, lat)
  locate x y := some (x / y.cos, y)

/-! ## Equal Earth -/

namespace EqualEarth

/-- Half the root of three, the sine of the greatest auxiliary angle. -/
def poleSine : Float := (3 : Float).sqrt / 2

/-- The northing at an auxiliary angle. -/
def northing (angle : Float) : Float :=
  let square := angle * angle
  let sixth := square * square * square
  angle * (1.340264 + -0.081106 * square + sixth * (0.000893 + 0.003796 * square))

/-- The slope of the northing at an auxiliary angle. -/
def slope (angle : Float) : Float :=
  let square := angle * angle
  let sixth := square * square * square
  1.340264 + 3 * -0.081106 * square + sixth * (7 * 0.000893 + 9 * 0.003796 * square)

/-- The auxiliary angle at a northing, by Newton's method, at most `fuel` steps. -/
def angleAt (wanted : Float) : Nat → Float → Option Float
  | 0, _ => none
  | fuel + 1, angle =>
    let step := (northing angle - wanted) / slope angle
    if step.abs < 1e-11 then some (angle - step) else angleAt wanted fuel (angle - step)

/-- The northing of the north pole. -/
def poleNorthing : Float := 1.3173627591574

end EqualEarth

open EqualEarth in
/-- The Equal Earth projection, which keeps areas. -/
def equalEarth (g : Figure) : Chart :=
  let whole := g.zoneArea 1
  let scale := (0.5 * whole).sqrt
  { plot := fun lon lat =>
      let sine := g.zoneArea lat.sin / whole
      let sine := if 1 < sine then 1 else if sine < -1 then -1 else sine
      let angle := (poleSine * sine).asin
      some (scale * (lon * angle.cos / (poleSine * slope angle)), scale * northing angle)
    locate := fun x y => do
      let x := x / scale
      let y := y / scale
      let y := if poleNorthing < y then poleNorthing else if y < -poleNorthing then -poleNorthing
        else y
      let angle ← angleAt y 12 y
      let beta := (angle.sin / poleSine).asin
      some (poleSine * x * slope angle / angle.cos, g.latitudeOfAuthalic beta) }

end Antimeridian.Projection
