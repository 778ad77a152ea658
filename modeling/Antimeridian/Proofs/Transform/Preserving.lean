import Antimeridian.Proofs.Longitude.Normalizing
import Antimeridian.Transform.Basic

/-!
# Transforms that preserve periods

Whatever transform is made to preserve periods, it carries a longitude that is whole periods away
as many periods away, and no longitude farther than half a period.
-/

namespace Antimeridian

open Extended

variable {K : Type} [Field K] [LinearOrder K] [FloorRing K]

/-- A point moved along the horizontal axis. -/
def eastward (dx : K) (p : Extended K × Extended K) : Extended K × Extended K :=
  (p.1 + .finite dx, p.2)

namespace Transform

/-- Whether a transform is another one made to preserve periods: it agrees with the other one on the
period around zero, whole periods aside, goes to the nearest place there is, and does the same in
every other period. -/
structure PreservesPeriods (t base : Transform (Extended K)) (period : K) : Prop where
  moves : ∀ (x y : Extended K) (k : Int),
    t.image (x + .finite (period * k)) y = eastward (period * k) (t.image x y)
  nearest : ∀ (x tx : K) (y ty : Extended K),
    base.image (Longitude.normalize (.finite x) (.finite period)) y = (.finite tx, ty) →
      ∃ r, t.image (.finite x) y = (.finite r, ty) ∧
        Longitude.Turned period tx r ∧ |r - x| ≤ period / 2 ∧
        ∀ r', Longitude.Turned period tx r' → |r' - x| < period / 2 → r' = r

variable {base : Transform (Extended K)} {period : K}

theorem image_preserving {α : Type} [Scalar α] (base : Transform α) (period x y : α) :
    (preserving base period).image x y =
      let normalized := Longitude.normalize x period
      let p := base.image normalized y
      (p.1 - Scalar.roundWhole ((p.1 - normalized) / period) * period + (x - normalized), p.2) :=
  rfl

variable [IsStrictOrderedRing K]

theorem image_preserving_add (hperiod : period ≠ 0) (base : Transform (Extended K))
    (x y : Extended K) (k : Int) :
    (preserving base (.finite period)).image (x + .finite (period * k)) y =
      eastward (period * k) ((preserving base (.finite period)).image x y) := by
  simp only [image_preserving, Longitude.normalize_add hperiod, eastward, Extended.sub_eq_add_neg]
  congr 1
  ac_rfl

theorem exists_image_preserving (hperiod : 0 < period) {x tx : K} {y ty : Extended K}
    (himage : base.image (Longitude.normalize (.finite x) (.finite period)) y =
      (.finite tx, ty)) :
    ∃ r, (preserving base (.finite period)).image (.finite x) y = (.finite r, ty) ∧
      Longitude.Turned period tx r ∧ |r - x| ≤ period / 2 := by
  have hne := hperiod.ne'
  rw [Longitude.normalize_finite _ hne] at himage
  simp only [image_preserving, Longitude.normalize_finite _ hne, himage, finite_sub,
    finite_div _ hne, roundWhole_finite, finite_mul, finite_add]
  have hround := abs_sub_roundEven_le ((tx - (x - period * Longitude.turns period x)) / period)
  generalize Scalar.roundEven (finite (_ : K)) = n at hround ⊢
  refine ⟨_, rfl, ⟨Longitude.turns period x - n, ?_⟩, ?_⟩
  · push_cast
    ring
  · have hdrift : tx - n * period + (x - (x - period * Longitude.turns period x)) - x =
        ((tx - (x - period * Longitude.turns period x)) / period - n) * period := by
      field_simp
      ring
    have hscaled := mul_le_mul_of_nonneg_right hround hperiod.le
    rw [hdrift, abs_mul, abs_of_pos hperiod]
    linarith

theorem preservesPeriods_preserving (hperiod : 0 < period) (base : Transform (Extended K)) :
    PreservesPeriods (preserving base (.finite period)) base period where
  moves := image_preserving_add hperiod.ne' base
  nearest x tx y ty himage := by
    obtain ⟨r, hr, hturned, hnear⟩ := exists_image_preserving hperiod himage
    exact ⟨r, hr, hturned, hnear, fun r' hturned' hnear' =>
      hturned.eq_of_near hturned' hnear hnear'⟩

end Transform

end Antimeridian
