import Antimeridian.Scalar

/-!
# Binary64 scalars

The scalars the library runs with. A finite double is a whole number times a power of two, so
the integer below it and its remainder by another double are computed exactly on those two
whole numbers; only the four operations round.
-/

namespace Antimeridian.Binary64

/-- The whole number `significand` times two to the `exponent`. -/
structure Parts where
  /-- The signed whole number. -/
  significand : Int
  /-- The power of two it is scaled by. -/
  exponent : Int

/-- The exact value of a finite double. Infinities and NaN read as if their exponent were an
ordinary one: test for them first. -/
def parts (x : Float) : Parts :=
  let bits := x.toBits
  let exponent := ((bits >>> 52) &&& 0x7FF).toNat
  let fraction := (bits &&& 0xFFFFFFFFFFFFF).toNat
  let magnitude : Nat := if exponent = 0 then fraction else Nat.pow 2 52 + fraction
  let sign : Int := if bits >>> 63 = 0 then 1 else -1
  { significand := sign * magnitude
    exponent := if exponent = 0 then -1074 else (exponent : Int) - 1075 }

/-- The exact value of a finite double as a fraction. -/
def toRat (x : Float) : Rat :=
  let p := parts x
  if 0 ≤ p.exponent then ((p.significand * Int.pow 2 p.exponent.toNat : Int) : Rat)
  else mkRat p.significand (Nat.pow 2 (-p.exponent).toNat)

/-- The double nearest to a fraction, a tie going to the even significand. The quotient is cut
to at least 64 bits, and what the cut drops is kept as a last bit, so that the one rounding
sees on which side of a tie the fraction lies. -/
def ofRat (r : Rat) : Float :=
  let numerator := r.num.natAbs
  if numerator = 0 then 0
  else
    let shift : Int := 66 - ((numerator.log2 : Int) - (r.den.log2 : Int))
    let n := if 0 ≤ shift then numerator <<< shift.toNat else numerator
    let d := if 0 ≤ shift then r.den else r.den <<< (-shift).toNat
    let quotient := 2 * (n / d) + (if n % d = 0 then 0 else 1)
    let magnitude := (Float.ofNat quotient).scaleB (-shift - 1)
    if r.num < 0 then -magnitude else magnitude

/-- The double nearest to an integer among those with some bits of significand, at most 53 of them,
a tie going to the even significand. -/
def ofIntWith (bits : Nat) (n : Int) : Float :=
  let magnitude := n.natAbs
  let shift := magnitude.log2 + 1 - bits
  let kept := magnitude >>> shift
  let rest := magnitude - kept <<< shift
  let half := 1 <<< (shift - 1)
  let up := shift ≠ 0 && (half < rest || (half = rest && kept % 2 = 1))
  let rounded := (Float.ofNat (if up then kept + 1 else kept)).scaleB shift
  if n < 0 then -rounded else rounded

/-- The finite double nearest to one among those with some bits of significand and no bit below a
power of two, a tie going to the even significand. -/
def narrowed (bits : Nat) (least : Int) (x : Float) : Float :=
  let p := parts x
  let top : Int := p.significand.natAbs.log2 + p.exponent
  let unit := max (top + 1 - bits) least
  let shift := (unit - p.exponent).toNat
  if shift = 0 then x
  else
    let magnitude := p.significand.natAbs
    let kept := magnitude >>> shift
    let rest := magnitude - kept <<< shift
    let half := 1 <<< (shift - 1)
    let up := half < rest || (half = rest && kept % 2 = 1)
    let rounded := (Float.ofNat (if up then kept + 1 else kept)).scaleB unit
    if p.significand < 0 then -rounded else rounded

/-- The greatest integer below a finite double. -/
def floor (x : Float) : Int :=
  let p := parts x
  if 0 ≤ p.exponent then p.significand * Int.pow 2 p.exponent.toNat
  else p.significand.fdiv (Int.pow 2 (-p.exponent).toNat)

/-- The remainder of two finite doubles, with the sign of the first. It is exact. -/
def remainder (x y : Float) : Float :=
  let a := parts x
  let b := parts y
  let exponent := min a.exponent b.exponent
  let m := a.significand.natAbs * Nat.pow 2 (a.exponent - exponent).toNat
  let n := b.significand.natAbs * Nat.pow 2 (b.exponent - exponent).toNat
  let rest := (Float.ofNat (m % n)).scaleB exponent
  if a.significand < 0 then -rest else rest

/-- `x` moved by whole multiples of `p` into the range from zero to `p`, with the sign of `p`.
There is none for an `x` that is not finite or a `p` that is zero. -/
def mod (x p : Float) : Float :=
  if !x.isFinite || p.isNaN || p == 0 then 0.0 / 0.0
  else
    let rest := if p.isFinite then remainder x p else x
    if rest == 0 then (if p < 0 then -0.0 else 0.0)
    else if (p < 0) == (rest < 0) then rest else rest + p

instance : Scalar Float where
  decidableLE := inferInstance
  decidableLT := inferInstance
  decimal m p :=
    match m with
    | .ofNat n => Float.ofScientific n true p
    | .negSucc n => -Float.ofScientific (n + 1) true p
  infinity := 1.0 / 0.0
  floor := floor
  isFinite := Float.isFinite
  mod := mod

/-- The length of a vector of two components of moderate size, the larger one first: the root of
the sum of their squares, corrected by what the rounding of that sum took away. -/
def correctedLength (large small : Float) : Float :=
  let root := (large * large + small * small).sqrt
  let (first, second) :=
    if root ≤ 2 * small then
      let excess := root - small
      (large * (2 * excess - large), (excess - 2 * (large - small)) * excess)
    else
      let excess := root - large
      (2 * excess * (large - 2 * small), (4 * excess - small) * small + excess * excess)
  root - (first + second) / (2 * root)

/-- The length of a vector. Components are scaled where a square would leave the range, and a
component too small to matter is only added. -/
def length (x y : Float) : Float :=
  let a := x.abs
  let b := y.abs
  if a == 1.0 / 0.0 || b == 1.0 / 0.0 then 1.0 / 0.0
  else if a.isNaN || b.isNaN then 0.0 / 0.0
  else
    let large := if a < b then b else a
    let small := if a < b then a else b
    let scale : Float := Float.scaleB 1 600
    if small ≤ large * Float.scaleB 1 (-54) then large + small
    else if Float.scaleB 1 511 < large then
      correctedLength (large / scale) (small / scale) * scale
    else if small < Float.scaleB 1 (-459) then
      correctedLength (large * scale) (small * scale) / scale
    else correctedLength large small

instance : PlanarLength Float := ⟨length⟩

end Antimeridian.Binary64
