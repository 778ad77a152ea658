import Antimeridian.Scalar

/-!
# Longitudes

Longitudes repeat with a period. A longitude is normalized by whole periods into the period that
starts half a period below zero, and a sequence of longitudes is unwrapped by whole periods so
that no step is longer than half a period.
-/

namespace Antimeridian.Longitude

variable {α : Type} [Scalar α]

/-- The length of a turn in degrees. -/
def turn : α := 360

/-- The longitude moved by whole periods into the period around zero, the lower end included. -/
def normalize (lon period : α) : α :=
  let half := period / 2
  Scalar.mod (lon + half) period - half

/-- The whole periods by which a step has to change so that it is at most half a period long. A
step of exactly half a period keeps its sign. -/
def stepCorrection (step period : α) : α :=
  let high := period / 2
  let low := -high
  let folded := Scalar.mod (step - low) period + low
  let folded := if folded == low && 0 < step then high else folded
  if Scalar.abs step < high then 0 else folded - step

/-- The steps between consecutive elements. -/
def steps : List α → List α
  | x :: y :: rest => (y - x) :: steps (y :: rest)
  | _ => []

/-- A sequence of longitudes moved element by element by whole periods so that no step is longer
than half a period. The first element stays. -/
def unwrap (period : α) : List α → List α
  | [] => []
  | x :: rest =>
    let corrections := (steps (x :: rest)).map (stepCorrection · period)
    x :: List.zipWith (· + ·) rest (Scalar.runningSums 0 corrections)

end Antimeridian.Longitude
