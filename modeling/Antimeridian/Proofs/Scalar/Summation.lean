import Antimeridian.Proofs.Scalar.Extended
import Antimeridian.Scalar.Sum

/-!
# Sums of numbers

Added up in running sums and by halves, numbers come to their sum: over exact scalars the order of
the additions does not matter.
-/

namespace Antimeridian.Scalar

variable {K : Type} [Field K] [LinearOrder K] [FloorRing K]

theorem foldl_add_finite (x : K) (xs : List K) :
    (xs.map Extended.finite).foldl (· + ·) (.finite x) = .finite (x + xs.sum) := by
  induction xs generalizing x with
  | nil => simp
  | cons y ys ih =>
      rw [List.map_cons, List.foldl_cons, Extended.finite_add, ih, List.sum_cons, add_assoc]

theorem zipWith_add_finite (lanes row : List K) :
    List.zipWith (· + ·) (lanes.map Extended.finite) (row.map .finite) =
      (List.zipWith (· + ·) lanes row).map .finite := by
  rw [List.zipWith_map, List.map_zipWith]
  rfl

/-- Adding rows to running sums keeps the sum of all. -/
theorem exists_addLanes (rows : Nat) {lanes rest : List K} (hlanes : lanes.length = laneCount)
    (hrest : rows * laneCount ≤ rest.length) :
    ∃ sums others : List K,
      addLanes rows (lanes.map Extended.finite) (rest.map .finite) =
        (sums.map .finite, others.map .finite) ∧
      sums.length = laneCount ∧ sums.sum + others.sum = lanes.sum + rest.sum := by
  induction rows generalizing lanes rest with
  | zero => exact ⟨lanes, rest, rfl, hlanes, rfl⟩
  | succ rows ih =>
      rw [Nat.succ_mul] at hrest
      have hrow : lanes.length = (rest.take laneCount).length := by
        rw [List.length_take]
        omega
      have hnext : (List.zipWith (· + ·) lanes (rest.take laneCount)).length = laneCount := by
        rw [List.length_zipWith, ← hrow, Nat.min_self, hlanes]
      have hdropped : rows * laneCount ≤ (rest.drop laneCount).length := by
        rw [List.length_drop]
        omega
      obtain ⟨sums, others, hadded, hsums, htotal⟩ := ih hnext hdropped
      refine ⟨sums, others, ?_, hsums, ?_⟩
      · rw [addLanes, ← List.map_take, ← List.map_drop, zipWith_add_finite, hadded]
      · rw [htotal, ← List.sum_add_sum_eq_sum_zipWith_of_length_eq _ _ hrow, add_assoc,
          List.sum_take_add_sum_drop]

theorem joinLanes_finite {lanes : List K} (hlanes : lanes.length = laneCount) :
    joinLanes (lanes.map Extended.finite) = .finite lanes.sum := by
  match lanes, hlanes with
  | [a, b, c, d, e, f, g, h], _ =>
      simp only [List.map_cons, List.map_nil, joinLanes, Extended.finite_add, List.sum_cons,
        List.sum_nil]
      congr 1
      ring

theorem blockSum_finite (xs : List K) : blockSum (xs.map Extended.finite) = .finite xs.sum := by
  rw [blockSum, List.length_map]
  split
  next => rw [Extended.zero_eq, foldl_add_finite, zero_add]
  next hlong =>
    have hrows : (xs.length / laneCount - 1) * laneCount ≤ (xs.drop laneCount).length := by
      rw [List.length_drop, Nat.sub_mul, Nat.one_mul]
      exact Nat.sub_le_sub_right (Nat.div_mul_le_self _ _) _
    have hlanes : (xs.take laneCount).length = laneCount :=
      List.length_take_of_le (not_lt.mp hlong)
    obtain ⟨sums, others, hadded, hsums, htotal⟩ := exists_addLanes _ hlanes hrows
    rw [← List.map_take, ← List.map_drop, hadded]
    simp only [joinLanes_finite hsums, foldl_add_finite, htotal, List.sum_take_add_sum_drop]

/-- Numbers come to their sum. -/
theorem sum_finite (xs : List K) : sum (xs.map Extended.finite) = .finite xs.sum := by
  induction hlength : xs.length using Nat.strong_induction_on generalizing xs with
  | _ n ih =>
      rw [sum]
      split
      next => exact blockSum_finite xs
      next hlong =>
        simp only [List.length_map, ← List.map_take, ← List.map_drop] at hlong ⊢
        -- half of a long list is more than a row, so that both parts are shorter
        have hcut : 0 < xs.length / 2 - xs.length / 2 % laneCount ∧
            xs.length / 2 - xs.length / 2 % laneCount < xs.length := by
          rw [blockLength] at hlong
          rw [laneCount]
          omega
        generalize xs.length / 2 - xs.length / 2 % laneCount = cut at hcut ⊢
        have hfirst : (xs.take cut).length < n := by
          rw [List.length_take]
          omega
        have hrest : (xs.drop cut).length < n := by
          rw [List.length_drop]
          omega
        rw [ih _ hfirst _ rfl, ih _ hrest _ rfl, Extended.finite_add, List.sum_take_add_sum_drop]

end Antimeridian.Scalar
