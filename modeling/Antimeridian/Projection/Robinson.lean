import Antimeridian.Projection.Globe

/-!
# Robinson's projection

The lengths of the parallels and their distances from the equator are given by tables, for every
fifth degree of latitude. Between the entries they are cubics, whose coefficients have single
precision.
-/

namespace Antimeridian.Projection

/-- A cubic in the degrees beyond an entry of a table, the constant first. -/
structure Cubic where
  c0 : Float
  c1 : Float
  c2 : Float
  c3 : Float
  deriving Inhabited

namespace Cubic

/-- The cubic with coefficients rounded to single precision. -/
def single (c0 c1 c2 c3 : Float) : Cubic :=
  let round (c : Float) : Float := c.toFloat32.toFloat
  ⟨round c0, round c1, round c2, round c3⟩

/-- The value of a cubic. -/
def value (c : Cubic) (z : Float) : Float := c.c0 + z * (c.c1 + z * (c.c2 + z * c.c3))

/-- The slope of a cubic. -/
def slope (c : Cubic) (z : Float) : Float := c.c1 + 2 * z * c.c2 + z * z * 3 * c.c3

/-- The place where a cubic has a value, by Newton's method, at most `fuel` steps. -/
def solve (c : Cubic) (wanted : Float) : Nat → Float → Option Float
  | 0, _ => none
  | fuel + 1, z =>
    let step := (c.value z - wanted) / c.slope z
    if step.abs < 1e-10 then some (z - step) else c.solve wanted fuel (z - step)

end Cubic

namespace Robinson

/-- The lengths of the parallels as parts of the equator. -/
def lengths : Array Cubic := #[
  .single 1 2.2199e-17 (-7.15515e-05) 3.1103e-06,
  .single 0.9986 (-0.000482243) (-2.4897e-05) (-1.3309e-06),
  .single 0.9954 (-0.00083103) (-4.48605e-05) (-9.86701e-07),
  .single 0.99 (-0.00135364) (-5.9661e-05) 3.6777e-06,
  .single 0.9822 (-0.00167442) (-4.49547e-06) (-5.72411e-06),
  .single 0.973 (-0.00214868) (-9.03571e-05) 1.8736e-08,
  .single 0.96 (-0.00305085) (-9.00761e-05) 1.64917e-06,
  .single 0.9427 (-0.00382792) (-6.53386e-05) (-2.6154e-06),
  .single 0.9216 (-0.00467746) (-0.00010457) 4.81243e-06,
  .single 0.8962 (-0.00536223) (-3.23831e-05) (-5.43432e-06),
  .single 0.8679 (-0.00609363) (-0.000113898) 3.32484e-06,
  .single 0.835 (-0.00698325) (-6.40253e-05) 9.34959e-07,
  .single 0.7986 (-0.00755338) (-5.00009e-05) 9.35324e-07,
  .single 0.7597 (-0.00798324) (-3.5971e-05) (-2.27626e-06),
  .single 0.7186 (-0.00851367) (-7.01149e-05) (-8.6303e-06),
  .single 0.6732 (-0.00986209) (-0.000199569) 1.91974e-05,
  .single 0.6213 (-0.010418) 8.83923e-05 6.24051e-06,
  .single 0.5722 (-0.00906601) 0.000182 6.24051e-06,
  .single 0.5322 (-0.00677797) 0.000275608 6.24051e-06]

/-- The distances of the parallels from the equator as parts of that of the pole. -/
def distances : Array Cubic := #[
  .single (-5.20417e-18) 0.0124 1.21431e-18 (-8.45284e-11),
  .single 0.062 0.0124 (-1.26793e-09) 4.22642e-10,
  .single 0.124 0.0124 5.07171e-09 (-1.60604e-09),
  .single 0.186 0.0123999 (-1.90189e-08) 6.00152e-09,
  .single 0.248 0.0124002 7.10039e-08 (-2.24e-08),
  .single 0.31 0.0123992 (-2.64997e-07) 8.35986e-08,
  .single 0.372 0.0124029 9.88983e-07 (-3.11994e-07),
  .single 0.434 0.0123893 (-3.69093e-06) (-4.35621e-07),
  .single 0.4958 0.0123198 (-1.02252e-05) (-3.45523e-07),
  .single 0.5571 0.0121916 (-1.54081e-05) (-5.82288e-07),
  .single 0.6176 0.0119938 (-2.41424e-05) (-5.25327e-07),
  .single 0.6769 0.011713 (-3.20223e-05) (-5.16405e-07),
  .single 0.7346 0.0113541 (-3.97684e-05) (-6.09052e-07),
  .single 0.7903 0.0109107 (-4.89042e-05) (-1.04739e-06),
  .single 0.8435 0.0103431 (-6.4615e-05) (-1.40374e-09),
  .single 0.8936 0.00969686 (-6.4636e-05) (-8.547e-06),
  .single 0.9394 0.00840947 (-0.000192841) (-4.2106e-06),
  .single 0.9761 0.00616527 (-0.000256) (-4.2106e-06),
  .single 1 0.00328947 (-0.000319159) (-4.2106e-06)]

/-- The number of the last entry, that of the pole. -/
def poleEntry : Nat := 18

/-- The scale along the equator. -/
def eastScale : Float := 0.8487

/-- The distance of the pole from the equator. -/
def northScale : Float := 1.3523

/-- The last entry before the pole whose parallel is no farther from the equator than a distance,
searched from an entry towards the equator. -/
def entryBelow (distance : Float) : Nat → Nat
  | 0 => 0
  | i + 1 => if (distances.getD (i + 1) default).c0 ≤ distance then i + 1 else entryBelow distance i

end Robinson

open Robinson in
/-- Robinson's projection of a sphere. -/
def robinson : Chart where
  plot lon lat :=
    let i := min poleEntry (lat.abs * 11.45915590261646417544 + 1e-15).floor.toUInt64.toNat
    let z := degrees (lat.abs - 0.08726646259971647884 * Float.ofNat i)
    let north := (distances.getD i default).value z * northScale
    some ((lengths.getD i default).value z * eastScale * lon, if lat < 0 then -north else north)
  locate x y := do
    let lon := x / eastScale
    let distance := (y / northScale).abs
    if 1 ≤ distance then
      if 1.000001 < distance then none
      else some (lon / (lengths.getD poleEntry default).c0, if y < 0 then -quarter else quarter)
    else
      let i := entryBelow distance (poleEntry - 1)
      let entry := distances.getD i default
      let width := (distances.getD (i + 1) default).c0 - entry.c0
      let z ← entry.solve distance 100 (5 * (distance - entry.c0) / width)
      let lat := radians (5 * Float.ofNat i + z)
      let lon := lon / (lengths.getD i default).value z
      if pi < lon.abs then none else some (lon, if y < 0 then -lat else lat)

end Antimeridian.Projection
