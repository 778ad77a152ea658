import Antimeridian.Envelope.Split
import Antimeridian.Rendering.Basic

/-!
# Queries

The envelopes, in the source system, that have to be queried to paint a rendering area. Queries
are planned once and kept; planning that fails keeps nothing.
-/

namespace Antimeridian.Rendering

variable {α : Type} [Scalar α]

/-- The rendering area in the geographic base. Along a repeating axis the longitude is linear in
the abscissa, so that ranges beyond the antimeridian stay as they are. -/
def geographicArea (setting : Setting α) (r : Rendering α) :
    Except (Failure α) (Envelope α) := do
  let bound ← r.area.transform setting.atlas r.base
  match r.cycle with
  | none => return bound
  | some cycle =>
    if r.target.isGeographic then return bound
    else
      let scale := 180 / cycle.radius
      return { bound with
        minx := cycle.centralMeridian + (r.area.minx - cycle.origin) * scale
        maxx := cycle.centralMeridian + (r.area.maxx - cycle.origin) * scale }

/-- Whether an envelope contains another one, up to rounding in projected coordinates. -/
def covers (outer inner : Envelope α) : Bool :=
  let tolerance := 1e-9 * Scalar.max outer.width outer.height
  (outer.expandBy tolerance tolerance).contains inner

/-- The envelopes found so far, followed by those pieces in the source system that none found
earlier covers. Pieces apart in longitude can overlap once projected. -/
def projectPieces (setting : Setting α) (source : Crs) (found : List (Envelope α)) :
    List (Envelope α) → Except (Failure α) (List (Envelope α))
  | [] => .ok found
  | piece :: rest => do
    let e ← piece.transform setting.atlas source
    if found.any (covers · e) then projectPieces setting source found rest
    else projectPieces setting source (found ++ [e]) rest

/-- The queries of a request that has a valid area or splits at the antimeridian. -/
def planWithin (setting : Setting α) (r : Rendering α) (acrossDateline : Bool)
    (geographic : Envelope α) : Except (Failure α) (List (Envelope α)) := do
  let clipped := (r.validArea.map geographic.intersection).getD geographic
  if r.validArea.isSome && clipped.isEmpty then return []
  if acrossDateline then
    projectPieces setting r.source [] (← clipped.splitAcrossDateline r.cap)
  else if (r.validArea.map (·.contains geographic)).getD true then
    return [← r.area.transform setting.atlas r.source]
  else return [← clipped.transform setting.atlas r.source]

/-- The envelopes to query. There is none when the rendering area lies outside the valid one. -/
def plan (setting : Setting α) (r : Rendering α) (acrossDateline : Bool) :
    Except (Failure α) (List (Envelope α)) := do
  if r.validArea.isNone && !acrossDateline then
    return [← r.area.transform setting.atlas r.source]
  else r.planWithin setting acrossDateline (← r.geographicArea setting)

/-- The envelopes to query, planned at the first time of asking. -/
def queries (setting : Setting α) (r : Rendering α) : Action α (List (Envelope α)) := do
  let state ← get
  match state.queries with
  | some found => return found
  | none =>
    let found ← r.plan setting state.acrossDateline
    set { state with queries := some found }
    return found

end Antimeridian.Rendering
