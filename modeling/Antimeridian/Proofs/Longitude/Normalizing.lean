import Antimeridian.Longitude
import Antimeridian.Proofs.Scalar.Extended

/-!
# Longitudes in the period around zero

A number has exactly one place in the period that starts half a period below zero, some whole
periods away. Normalizing a longitude puts it there.
-/

namespace Antimeridian.Longitude

open Extended

variable {K : Type} [Field K] [LinearOrder K] [FloorRing K] {period : K}

/-- Whether a longitude is another one moved by whole periods. -/
def Turned (period x y : K) : Prop := ∃ k : Int, y = x + period * k

/-- The whole periods between a longitude and its place in the period around zero. -/
def turns (period x : K) : Int := ⌊(x + period / 2) / period⌋

theorem normalize_finite (x : K) (hperiod : period ≠ 0) :
    normalize (finite x) (finite period) = finite (x - period * turns period x) := by
  simp only [normalize, ofNat_eq, finite_div _ (two_ne_zero' K), finite_add,
    mod_finite _ hperiod, finite_sub, turns]
  congr 1
  ring

/-- A longitude is normalized by whole turns. -/
theorem exists_normalize (x : K) :
    ∃ k : Int, normalize (finite x) turn = finite (x + 360 * (k : K)) := by
  refine ⟨-turns 360 x, ?_⟩
  rw [turn, ofNat_eq, normalize_finite x (by norm_num)]
  push_cast
  congr 1
  ring

variable [IsStrictOrderedRing K]

theorem sub_turns_within (hperiod : 0 < period) (x : K) :
    -(period / 2) ≤ x - period * turns period x ∧ x - period * turns period x < period / 2 := by
  have hlow := Int.floor_le ((x + period / 2) / period)
  have hhigh := Int.lt_floor_add_one ((x + period / 2) / period)
  rw [le_div_iff₀ hperiod] at hlow
  rw [div_lt_iff₀ hperiod] at hhigh
  rw [turns]
  constructor <;> linarith

theorem turns_eq (hperiod : 0 < period) {x : K} {k : Int} (hlow : -(period / 2) ≤ x - period * k)
    (hhigh : x - period * k < period / 2) : turns period x = k := by
  rw [turns, Int.floor_eq_iff, le_div_iff₀ hperiod, div_lt_iff₀ hperiod]
  constructor <;> linarith

theorem turns_add (hperiod : period ≠ 0) (x : K) (k : Int) :
    turns period (x + period * k) = turns period x + k := by
  have hmoved : (x + period * k + period / 2) / period = (x + period / 2) / period + k := by
    field_simp
    ring
  rw [turns, hmoved, Int.floor_add_intCast, turns]

/-- A longitude is normalized to the same place from any period. -/
theorem normalize_add (hperiod : period ≠ 0) (x : Extended K) (k : Int) :
    normalize (x + finite (period * k)) (finite period) = normalize x (finite period) := by
  cases x with
  | finite x =>
      rw [finite_add, normalize_finite _ hperiod, normalize_finite _ hperiod, turns_add hperiod]
      push_cast
      congr 1
      ring
  | above | below | missing => rfl

omit [FloorRing K] in
/-- A longitude has one place within half a period of another, unless it is half a period away. -/
theorem Turned.eq_of_near {r r' x y : K} (hturned : Turned period x r)
    (hturned' : Turned period x r') (hnear : |r - y| ≤ period / 2)
    (hnear' : |r' - y| < period / 2) : r' = r := by
  obtain ⟨m, rfl⟩ := hturned
  obtain ⟨n, rfl⟩ := hturned'
  have hperiod : 0 < period := by linarith [abs_nonneg (x + period * n - y)]
  obtain ⟨hlow, hhigh⟩ := abs_le.mp hnear
  obtain ⟨hlow', hhigh'⟩ := abs_lt.mp hnear'
  have hbelow : (m : K) - 1 < n := lt_of_mul_lt_mul_left (by linarith) hperiod.le
  have habove : (n : K) < m + 1 := lt_of_mul_lt_mul_left (by linarith) hperiod.le
  norm_cast at hbelow habove
  obtain rfl : n = m := by omega
  rfl

end Antimeridian.Longitude
