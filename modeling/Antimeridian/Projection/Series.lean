import Antimeridian.Projection.Globe

/-!
# Latitudes by series

The conformal latitude and the distance along a meridian, from the geodetic latitude and back, as
sine series of the sixth order in the third flattening.
-/

namespace Antimeridian.Projection

/-- The value of a polynomial with the given coefficients, the constant first. -/
def polynomial (x : Float) (coefficients : List Float) : Float :=
  coefficients.foldr (fun c value => c + x * value) 0

/-- A trigonometric series whose coefficients are polynomials, each scaled by one more power of
the variable. -/
def seriesOf (n : Float) (rows : List (List Float)) : List Float :=
  (rows.foldl (fun (acc : List Float × Float) row =>
    let scale := acc.2 * n
    (acc.1 ++ [scale * polynomial n row], scale)) ([], 1)).1

/-- The sum of a sine series at an angle. -/
def sineSeries (coefficients : List Float) (angle : Float) : Float :=
  let double := 2 * angle.cos
  let (first, _) := coefficients.foldr
    (fun c (acc : Float × Float) => (c + double * acc.1 - acc.2, acc.1)) (0, 0)
  first * angle.sin

/-- The sum of a sine series at a complex angle, given by the sine and cosine of its real part
and the hyperbolic ones of its imaginary part. -/
def complexSineSeries (coefficients : List Float) (sinR cosR sinhI coshI : Float) :
    Float × Float :=
  let realFactor := 2 * cosR * coshI
  let imaginaryFactor := -2 * sinR * sinhI
  let step (c : Float) (acc : (Float × Float) × (Float × Float)) :
      (Float × Float) × (Float × Float) :=
    let (one, two) := acc
    ((-two.1 + realFactor * one.1 - imaginaryFactor * one.2 + c,
      -two.2 + imaginaryFactor * one.1 + realFactor * one.2), one)
  let ((real, imaginary), _) := coefficients.foldr step ((0, 0), (0, 0))
  let sineReal := sinR * coshI
  let sineImaginary := cosR * sinhI
  (sineReal * real - sineImaginary * imaginary, sineReal * imaginary + sineImaginary * real)

/-- Conformal latitudes from geodetic ones. -/
def toConformal (n : Float) : List Float := seriesOf n
  [[-2, 2.0 / 3, 4.0 / 3, -82.0 / 45, 32.0 / 45, 4642.0 / 4725],
   [5.0 / 3, -16.0 / 15, -13.0 / 9, 904.0 / 315, -1522.0 / 945],
   [-26.0 / 15, 34.0 / 21, 8.0 / 5, -12686.0 / 2835],
   [1237.0 / 630, -12.0 / 5, -24832.0 / 14175],
   [-734.0 / 315, 109598.0 / 31185],
   [444337.0 / 155925]]

/-- Geodetic latitudes from conformal ones. -/
def fromConformal (n : Float) : List Float := seriesOf n
  [[2, -2.0 / 3, -2, 116.0 / 45, 26.0 / 45, -2854.0 / 675],
   [7.0 / 3, -8.0 / 5, -227.0 / 45, 2704.0 / 315, 2323.0 / 945],
   [56.0 / 15, -136.0 / 35, -1262.0 / 105, 73814.0 / 2835],
   [4279.0 / 630, -332.0 / 35, -399572.0 / 14175],
   [4174.0 / 315, -144838.0 / 6237],
   [601676.0 / 22275]]

/-- True distances along the meridian from those on the conformal sphere. -/
def toTrueDistance (n : Float) : List Float := seriesOf n
  [[0.5, -2.0 / 3, 5.0 / 16, 41.0 / 180, -127.0 / 288, 7891.0 / 37800],
   [13.0 / 48, -3.0 / 5, 557.0 / 1440, 281.0 / 630, -1983433.0 / 1935360],
   [61.0 / 240, -103.0 / 140, 15061.0 / 26880, 167603.0 / 181440],
   [49561.0 / 161280, -179.0 / 168, 6601661.0 / 7257600],
   [34729.0 / 80640, -3418889.0 / 1995840],
   [212378941.0 / 319334400]]

/-- Distances on the conformal sphere from true ones along the meridian. -/
def fromTrueDistance (n : Float) : List Float := seriesOf n
  [[-0.5, 2.0 / 3, -37.0 / 96, 1.0 / 360, 81.0 / 512, -96199.0 / 604800],
   [-1.0 / 48, -1.0 / 15, 437.0 / 1440, -46.0 / 105, 1118711.0 / 3870720],
   [-17.0 / 480, 37.0 / 840, 209.0 / 4480, -5569.0 / 90720],
   [-4397.0 / 161280, 11.0 / 504, 830251.0 / 7257600],
   [-4583.0 / 161280, 108847.0 / 3991680],
   [-20648693.0 / 638668800]]

namespace Figure

/-- The radius of the circle as long as a meridian, at a scale. -/
def rectifyingRadius (g : Figure) (scale : Float) : Float :=
  let n := g.thirdFlattening
  let n2 := n * n
  scale / (1 + n) * (1 + n2 * (1 / 4.0 + n2 * (1 / 64.0 + n2 / 256.0)))

/-- The distance along a meridian from the equator to a latitude. -/
def meridianDistance (g : Figure) (lat : Float) : Float :=
  let n := g.thirdFlattening
  let chi := lat + sineSeries (toConformal n) (2 * lat)
  g.rectifyingRadius 1 * (chi + sineSeries (toTrueDistance n) (2 * chi))

/-- The latitude at a distance along a meridian from the equator. -/
def latitudeAtDistance (g : Figure) (distance : Float) : Float :=
  let n := g.thirdFlattening
  let north := distance / g.rectifyingRadius 1
  let chi := north + sineSeries (fromTrueDistance n) (2 * north)
  chi + sineSeries (fromConformal n) (2 * chi)

end Figure

end Antimeridian.Projection
