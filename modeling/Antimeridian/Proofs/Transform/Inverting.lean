import Antimeridian.Crs.Registry
import Antimeridian.Proofs.Crs.Horizontal
import Antimeridian.Proofs.Transform.Preserving

/-!
# Inverses of transforms that preserve periods

A transform made to preserve periods and its inverse each choose the nearest place in longitude. A
point that is moved by less than half a period is the nearest place to its image, so that the two
choices agree: the inverse takes the image back to the point, however many periods away it is.
-/

namespace Antimeridian.Transform

open Extended

/-! ## Lists of coordinates -/

section Coordinates

variable {α : Type} [Scalar α] {t : Transform α} {points images : List (α × α)} {check : Bool}

/-- The coordinates of a list of points are transformed point by point. -/
theorem coordinates_eq_ok_iff :
    t.coordinates (points.map Prod.fst) (points.map Prod.snd) check =
        .ok (images.map Prod.fst, images.map Prod.snd) ↔
      (check = true → ∀ p ∈ points, t.fails p.1 p.2 = false) ∧
        points.map (fun p => t.image p.1 p.2) = images := by
  have hzip : (points.map Prod.fst).zip (points.map Prod.snd) = points :=
    (List.zip_of_prod rfl rfl).symm
  have hunzip : (points.map fun p => t.image p.1 p.2).map Prod.fst = images.map Prod.fst ∧
      (points.map fun p => t.image p.1 p.2).map Prod.snd = images.map Prod.snd ↔
        points.map (fun p => t.image p.1 p.2) = images := by
    constructor
    · rintro ⟨hfst, hsnd⟩
      rw [List.zip_of_prod hfst.symm hsnd.symm, ← List.zip_of_prod rfl rfl]
    · rintro rfl
      exact ⟨rfl, rfl⟩
  simp only [coordinates, List.length_map, ne_eq, not_true_eq_false, if_false, hzip]
  split
  next hfails =>
    rw [Bool.and_eq_true, List.any_eq_true] at hfails
    obtain ⟨hcheck, p, hp, hfail⟩ := hfails
    refine iff_of_false (by simp) fun hall => ?_
    exact Bool.false_ne_true ((hall.1 hcheck p hp).symm.trans hfail)
  next hfails =>
    rw [Except.ok.injEq, Prod.mk.injEq, hunzip, iff_and_self]
    rintro - hcheck p hp
    simp only [hcheck, Bool.true_and, List.any_eq_true, not_exists, not_and,
      Bool.not_eq_true] at hfails
    exact hfails p hp

end Coordinates

variable {K : Type} [Field K] [LinearOrder K] [FloorRing K] {base back : Transform (Extended K)}
  {period : K}

/-- Whether a transform takes the images of points in the period around zero, themselves moved into
that period, back to the points, whole periods aside. -/
def Undoes (back base : Transform (Extended K)) (period : K) : Prop :=
  ∀ (x y tx : K) (ty : Extended K), -(period / 2) ≤ x → x < period / 2 →
    base.image (.finite x) (.finite y) = (.finite tx, ty) →
      back.fails (Longitude.normalize (.finite tx) (.finite period)) ty = false ∧
        ∃ place : K, Longitude.Turned period x place ∧
          back.image (Longitude.normalize (.finite tx) (.finite period)) ty =
            (.finite place, .finite y)

/-- Points have images by a transform made to preserve periods only where they have by the other
one. -/
theorem exists_image_of_preserving {x y ty : Extended K} {r : K}
    (himage : (preserving base (.finite period)).image x y = (.finite r, ty)) :
    ∃ tx : K, base.image (Longitude.normalize x (.finite period)) y = (.finite tx, ty) := by
  rw [image_preserving] at himage
  obtain ⟨hx, hy⟩ := Prod.mk.inj himage
  obtain ⟨moved, hmoved⟩ := exists_eq_finite_of_add hx
  obtain ⟨tx, htx⟩ := exists_eq_finite_of_add hmoved
  exact ⟨tx, Prod.ext htx hy⟩

variable [IsStrictOrderedRing K]

/-- The inverse takes the image of a point back to it, if that is less than half a period away. -/
theorem image_inverse_of_near (hperiod : 0 < period) (hundoes : Undoes back base period)
    {x y r : K} {ty : Extended K}
    (himage : (preserving base (.finite period)).image (.finite x) (.finite y) = (.finite r, ty))
    (hnear : |r - x| < period / 2) :
    (preserving back (.finite period)).fails (.finite r) ty = false ∧
      (preserving back (.finite period)).image (.finite r) ty = (.finite x, .finite y) := by
  have hne := hperiod.ne'
  obtain ⟨tx, htx⟩ := exists_image_of_preserving himage
  obtain ⟨r', hr', ⟨n, rfl⟩, -⟩ := exists_image_preserving hperiod htx
  obtain rfl : tx + period * n = r := finite_injective (congrArg Prod.fst (hr'.symm.trans himage))
  rw [Longitude.normalize_finite _ hne] at htx
  obtain ⟨hlow, hhigh⟩ := Longitude.sub_turns_within hperiod x
  obtain ⟨hfails, place, ⟨k, rfl⟩, hplace⟩ := hundoes _ y tx ty hlow hhigh htx
  -- the image and the place it was moved from are normalized alike
  have hsame : Longitude.normalize (.finite (tx + period * n)) (.finite period) =
      Longitude.normalize (Extended.finite tx) (.finite period) :=
    Longitude.normalize_add hne (.finite tx) n
  rw [← hsame] at hfails hplace
  refine ⟨hfails, ?_⟩
  obtain ⟨r', hr', -, -, honly⟩ := (preservesPeriods_preserving hperiod back).nearest _ _ _ _ hplace
  rw [hr', ← honly x ⟨Longitude.turns period x - k, ?_⟩ (by rwa [abs_sub_comm])]
  push_cast
  ring

/-- The inverse of a transform made to preserve periods undoes it on every list of points that are
moved by less than half a period. -/
theorem inverse_undoes_preserving (hperiod : 0 < period) {atlas : Atlas (Extended K)}
    (hback : base.inverse atlas = .ok back) (hundoes : Undoes back base period) :
    ∃ inverse, (preserving base (.finite period)).inverse atlas = .ok inverse ∧
      ∀ (points : List (K × K)) (images : List (K × Extended K)) (check check' : Bool),
        (preserving base (.finite period)).coordinates (points.map (.finite ·.1))
            (points.map (.finite ·.2)) check =
          .ok (images.map (.finite ·.1), images.map (·.2)) →
        List.Forall₂ (fun p q => |q.1 - p.1| < period / 2) points images →
          inverse.coordinates (images.map (.finite ·.1)) (images.map (·.2)) check' =
            .ok (points.map (.finite ·.1), points.map (.finite ·.2)) := by
  refine ⟨preserving back (.finite period), by rw [inverse, hback]; rfl, ?_⟩
  intro points images check check' hforward hnear
  let place (p : K × K) : Extended K × Extended K := (.finite p.1, .finite p.2)
  let reached (q : K × Extended K) : Extended K × Extended K := (.finite q.1, q.2)
  have hpoints : points.map (.finite ·.1) = (points.map place).map Prod.fst ∧
      points.map (.finite ·.2) = (points.map place).map Prod.snd := by
    simp [place]
  have himages : images.map (.finite ·.1) = (images.map reached).map Prod.fst ∧
      images.map (·.2) = (images.map reached).map Prod.snd := by
    simp [reached]
  rw [hpoints.1, hpoints.2, himages.1, himages.2, coordinates_eq_ok_iff] at hforward ⊢
  have hreached := hforward.2
  rw [List.map_map, ← List.forall₂_eq_eq_eq, List.forall₂_map_left_iff,
    List.forall₂_map_right_iff] at hreached
  have hundone : List.Forall₂ (fun q p =>
      (preserving back (.finite period)).fails (.finite q.1) q.2 = false ∧
        (preserving back (.finite period)).image (.finite q.1) q.2 = (.finite p.1, .finite p.2))
      images points := by
    rw [List.forall₂_iff_zip] at hnear hreached
    refine (List.forall₂_iff_zip.mpr ⟨hnear.1, fun hpair => ?_⟩).flip
    exact image_inverse_of_near hperiod hundoes (hreached.2 hpair) (hnear.2 hpair)
  rw [List.forall₂_and_left] at hundone
  refine ⟨fun _ => List.forall_mem_map.mpr hundone.1, ?_⟩
  rw [List.map_map, ← List.forall₂_eq_eq_eq, List.forall₂_map_left_iff,
    List.forall₂_map_right_iff]
  exact hundone.2

/-- A datum shift by two degrees pushes a place over the antimeridian, and its inverse brings it
back; so it does with another one some turns away. -/
theorem pushed_over_antimeridian_comes_back :
    let own := Crs.ofFrame Crs.Registry.wgs84Paris
    let shift (dx : ℚ) : Mapping (Extended ℚ) :=
      ⟨fun lon lat => (Longitude.normalize (lon + .finite dx) (.finite 360), lat),
        fun _ _ => false, false⟩
    let base : Transform (Extended ℚ) := .direct own Crs.wgs84 false (shift 2)
    let atlas : Atlas (Extended ℚ) :=
      ⟨fun source _ => some (if source.same own then shift 2 else shift (-2))⟩
    ∃ inverse, (preserving base (.finite 360)).inverse atlas = .ok inverse ∧
      (preserving base (.finite 360)).coordinates [.finite (179 + 360), .finite (-179 - 720)]
          [.finite 10, .finite 5] true =
        .ok ([.finite (181 + 360), .finite (-177 - 720)], [.finite 10, .finite 5]) ∧
      inverse.coordinates [.finite (181 + 360), .finite (-177 - 720)] [.finite 10, .finite 5] true =
        .ok ([.finite (179 + 360), .finite (-179 - 720)], [.finite 10, .finite 5]) := by
  intro own shift base atlas
  have hturn : (0 : ℚ) < 360 := by norm_num
  have hback : base.inverse atlas = .ok (.direct Crs.wgs84 own false (shift (-2))) := by
    have hown : Crs.wgs84.same own = false := by decide +kernel
    simp only [inverse, base, atlas, Atlas.find, Crs.same_horizontal_left,
      Crs.same_horizontal_right, hown]
    rfl
  have hundoes : Undoes (.direct Crs.wgs84 own false (shift (-2))) base 360 := by
    intro x y tx ty hlow hhigh himage
    have hx := Longitude.normalize_finite (x + 2) hturn.ne'
    obtain ⟨htx, rfl⟩ := Prod.mk.inj (himage.symm.trans (congrArg (·, Extended.finite y) hx))
    rw [Longitude.normalize_finite _ hturn.ne', finite_injective htx]
    refine ⟨rfl, _, ?_, congrArg (·, Extended.finite y) (Longitude.normalize_finite _ hturn.ne')⟩
    generalize Longitude.turns (360 : ℚ) (x + 2) = k
    generalize Longitude.turns (360 : ℚ) (x + 2 - 360 * k) = l
    generalize Longitude.turns (360 : ℚ) _ = m
    exact ⟨-(k + l + m), by push_cast; ring⟩
  obtain ⟨inverse, hinverse, hall⟩ := inverse_undoes_preserving hturn hback hundoes
  have hforward : (preserving base (.finite 360)).coordinates
      [.finite (179 + 360), .finite (-179 - 720)] [.finite 10, .finite 5] true =
        .ok ([.finite (181 + 360), .finite (-177 - 720)], [.finite 10, .finite 5]) := by
    norm_num [coordinates, fails, image_preserving, image, base, shift, Longitude.normalize_finite,
      Longitude.turns, Scalar.roundEven]
  refine ⟨inverse, hinverse, hforward, ?_⟩
  exact hall [(179 + 360, 10), (-179 - 720, 5)] [(181 + 360, .finite 10), (-177 - 720, .finite 5)]
    true true hforward (by norm_num [abs_lt])

end Antimeridian.Transform
