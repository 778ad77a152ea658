import Antimeridian.Scalar.Binary64

/-!
# The fewest digits that read back

Every double stands for the interval of numbers that round to it. Its shortest digits are those
of the coarsest power-of-ten grid with a point in that interval; of two such points the one
nearer to the double. The search tests, for one digit, two digits and so on, the two neighbours
of the exact value on the grid, with whole numbers only.
-/

namespace Antimeridian.Decimal

/-- The number `digits` times ten to the `exponent`. -/
structure Digits where
  /-- The decimal digits, read as a whole number. -/
  digits : Nat
  /-- The power of ten they are scaled by. -/
  exponent : Int
  deriving DecidableEq

/-- A positive double as a whole number times a power of two, with a mark for the doubles whose
gap below is half the gap above. -/
structure Positive where
  /-- The whole number. -/
  significand : Nat
  /-- The power of two it is scaled by. -/
  exponent : Int
  /-- The gap to the next smaller double is half the gap to the next larger one. -/
  narrowBelow : Bool

/-- The magnitude of a finite double. -/
def Positive.of (x : Float) : Positive :=
  let p := Binary64.parts x
  let m := p.significand.natAbs
  { significand := m
    exponent := p.exponent
    narrowBelow := m == Nat.pow 2 52 && p.exponent > -1074 }

/-- Whether `a` times two to the `q` is at most `d` times ten to the `e`. -/
def atMost (a : Nat) (q : Int) (d : Nat) (e : Int) : Bool :=
  a * Nat.pow 2 q.toNat * Nat.pow 10 (-e).toNat ≤ d * Nat.pow 10 e.toNat * Nat.pow 2 (-q).toNat

/-- Whether `d` times ten to the `e` is at most `a` times two to the `q`. -/
def atLeast (a : Nat) (q : Int) (d : Nat) (e : Int) : Bool :=
  d * Nat.pow 10 e.toNat * Nat.pow 2 (-q).toNat ≤ a * Nat.pow 2 q.toNat * Nat.pow 10 (-e).toNat

/-- Whether a decimal lies in the interval of numbers that round to the double. The ends belong
to it exactly when the significand is even. -/
def Positive.readsBack (v : Positive) (d : Nat) (e : Int) : Bool :=
  let low := 4 * v.significand - (if v.narrowBelow then 1 else 2)
  let high := 4 * v.significand + 2
  let q := v.exponent - 2
  if v.significand % 2 = 0 then atMost low q d e && atLeast high q d e
  else !atLeast low q d e && !atMost high q d e

/-- The least `k` with the value below ten to the `k`. -/
def Positive.scale (v : Positive) : Int :=
  let estimate := (((v.significand.log2 : Int) + v.exponent) * 30103).fdiv 100000
  let below (k : Int) : Bool := !atLeast v.significand v.exponent 1 k
  if below estimate then estimate
  else if below (estimate + 1) then estimate + 1
  else estimate + 2

/-- The point of the grid with spacing ten to the `e` that stands for the value, if one does. -/
def Positive.onGrid? (v : Positive) (e : Int) : Option Nat :=
  let numerator := v.significand * Nat.pow 2 v.exponent.toNat * Nat.pow 10 (-e).toNat
  let denominator := Nat.pow 2 (-v.exponent).toNat * Nat.pow 10 e.toNat
  let low := numerator / denominator
  let high := low + 1
  match v.readsBack low e, v.readsBack high e with
  | true, true =>
    let twice := 2 * numerator
    let middle := (low + high) * denominator
    if twice < middle then some low
    else if middle < twice then some high
    else if low % 2 = 0 then some low else some high
  | true, false => some low
  | false, true => some high
  | false, false => none

/-- The first grid with a point for the value, from `count` digits on, trying at most `fuel`
grids. -/
def Positive.search (v : Positive) (scale : Int) : Nat → Nat → Option Digits
  | 0, _ => none
  | fuel + 1, count =>
    match v.onGrid? (scale - count) with
    | some d => some ⟨d, scale - count⟩
    | none => v.search scale fuel (count + 1)

/-- Trailing zeros moved from the digits into the exponent, at most `fuel` of them. -/
def Digits.strip : Nat → Digits → Digits
  | 0, d => d
  | fuel + 1, d =>
    if d.digits ≠ 0 ∧ d.digits % 10 = 0 then strip fuel ⟨d.digits / 10, d.exponent + 1⟩ else d

/-- The shortest digits of the magnitude of a finite double. Seventeen digits always suffice. -/
def shortest (x : Float) : Digits :=
  let v := Positive.of x
  if v.significand = 0 then ⟨0, 0⟩
  else ((v.search v.scale 17 1).getD ⟨0, 0⟩).strip 400

end Antimeridian.Decimal
