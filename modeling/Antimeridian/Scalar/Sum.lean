import Antimeridian.Scalar

/-!
# Sums of many scalars

Long lists are summed by halves, so that rounding grows with the logarithm of their length, and
short ones in eight running sums that are joined at the end. Over exact scalars the order does not
matter.
-/

namespace Antimeridian.Scalar

variable {α : Type} [Scalar α]

/-- The number of running sums of a block. -/
def laneCount : Nat := 8

/-- The length up to which a list is summed as one block. -/
def blockLength : Nat := 128

/-- Some rows of elements added to running sums, one element to each, and the elements after
them. -/
def addLanes : Nat → List α → List α → List α × List α
  | 0, lanes, rest => (lanes, rest)
  | rows + 1, lanes, rest =>
    addLanes rows (List.zipWith (· + ·) lanes (rest.take laneCount)) (rest.drop laneCount)

/-- Running sums joined in pairs. -/
def joinLanes : List α → α
  | [a, b, c, d, e, f, g, h] => ((a + b) + (c + d)) + ((e + f) + (g + h))
  | lanes => lanes.foldl (· + ·) 0

/-- The sum of a short list. Elements that fill no further row of the running sums are added last,
one after the other. -/
def blockSum (xs : List α) : α :=
  if xs.length < laneCount then xs.foldl (· + ·) 0
  else
    let (lanes, rest) :=
      addLanes (xs.length / laneCount - 1) (xs.take laneCount) (xs.drop laneCount)
    rest.foldl (· + ·) (joinLanes lanes)

/-- The sum of a list. A long one is cut in two, the first part of whole rows of a block. -/
def sum (xs : List α) : α :=
  if _ : xs.length ≤ blockLength then blockSum xs
  else
    let half := xs.length / 2
    let cut := half - half % laneCount
    sum (xs.take cut) + sum (xs.drop cut)
termination_by xs.length
decreasing_by
  all_goals
    rename_i h
    simp only [blockLength, Nat.not_le] at h
    simp only [List.length_take, List.length_drop, laneCount]
    omega

end Antimeridian.Scalar
