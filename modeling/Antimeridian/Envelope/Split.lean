import Antimeridian.Integral
import Antimeridian.Longitude

/-!
# Splitting at the antimeridian

Data are stored with longitudes between minus and plus half a turn. A geographic envelope that
reaches beyond is queried piece by piece: first as it is, then moved by whole turns and clipped
to the stored range, nearest turns first.
-/

namespace Antimeridian.Envelope

variable {α : Type} [Scalar α]

/-- The whole numbers from `low` to `high`, nearest to zero first, of two equally near the
negative one first. -/
def offsets (low high : Int) : List Int :=
  let all := (List.range (high + 1 - low).toNat).map fun (i : Nat) => low + i
  all.mergeSort fun j k => j.natAbs < k.natAbs || (j.natAbs == k.natAbs && j ≤ k)

/-- The part of the stored range of longitudes at the envelope's latitudes. -/
def storedRange (e : Envelope α) : Envelope α := ⟨-180, e.miny, 180, e.maxy, e.crs⟩

/-- The pieces found so far, followed by the parts of the moved envelopes in the stored range
that are neither empty, nor of no width, nor inside a piece found earlier. -/
def collectPieces (e : Envelope α) (found : List (Envelope α)) : List Int → List (Envelope α)
  | [] => found
  | k :: rest =>
    let piece := (e.shift (Scalar.ofInt k * Longitude.turn)).intersection e.storedRange
    if piece.isEmpty || piece.width == 0 || found.any (·.contains piece) then
      collectPieces e found rest
    else collectPieces e (found ++ [piece]) rest

/-- The least number of whole turns, at least `-cap`, that moves the envelope's east edge into the
stored range or beyond. -/
def lowestTurn (e : Envelope α) (cap : Int) : Except (Failure α) Int := do
  return max (← Integral.ceil ((-180 - e.maxx) / Longitude.turn)) (-cap)

/-- The greatest number of whole turns, at most `cap`, that leaves the envelope's west edge in
the stored range or short of it. -/
def highestTurn (e : Envelope α) (cap : Int) : Except (Failure α) Int := do
  return min (← Integral.floor ((180 - e.minx) / Longitude.turn)) cap

/-- The envelopes to query in place of one that may reach across the antimeridian. -/
def splitAcrossDateline (e : Envelope α) (cap : Int) : Except (Failure α) (List (Envelope α)) := do
  if e.isEmpty then return []
  if (Longitude.turn : α) ≤ e.width then return [e.storedRange]
  if -180 ≤ e.minx && e.maxx ≤ 180 then return [e]
  let turns := offsets (← e.lowestTurn cap) (← e.highestTurn cap)
  return e.collectPieces [e] (turns.filter (· ≠ 0))

end Antimeridian.Envelope
