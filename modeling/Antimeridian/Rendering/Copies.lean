import Antimeridian.Envelope.Split
import Antimeridian.Rendering.Cut

/-!
# Copies of rendered geometries

On a repeating axis a rendered geometry is first stitched together, where reprojecting tore it at
the seam, and then copied by whole periods to every place where it is visible.
-/

namespace Antimeridian.Rendering

variable {α : Type} [Scalar α]

/-- The whole periods that move a range of abscissas to where it strictly overlaps the rendering
area, at most `cap` of them on each side, nearest first. -/
def visibleOffsets (area : Envelope α) (radius : α) (cap : Int) (minx maxx : α) :
    Except (Failure α) (List Int) := do
  let period := 2 * radius
  let lowest := (← Integral.floor ((area.minx - maxx) / period)) + 1
  let highest := (← Integral.ceil ((area.maxx - minx) / period)) - 1
  return Envelope.offsets (max lowest (-cap)) (min highest cap)

/-- A geometry moved along the horizontal axis. Where some of its vertices have heights, all of them
need one: the others are lost, and rings with lost vertices do not close. -/
def moved (g : Geometry α) (dx : α) : Except (Failure α) (Geometry α) :=
  if g.vertices.all (·.z.isNone) || g.vertices.all (·.z.isSome) then .ok (g.shift dx)
  else if g.hasFlatRing then .error .ringOpen
  else .ok (g.map (Geometry.shiftAmongHeights dx))

/-- A geometry moved by whole periods; by none it stays the same. -/
def copyAt (radius : α) (g : Geometry α) (k : Int) : Except (Failure α) (Geometry α) :=
  if k = 0 then .ok g else moved g (Scalar.ofInt k * (2 * radius))

/-- The copies of a geometry that is `g` or has replaced it. -/
def replicate (r : Rendering α) (cycle : Cycle α) (current : Revision α) (g : Geometry α)
    (minx maxx : α) : Action α (Revision α) := do
  let offsets ← visibleOffsets r.area cycle.radius r.cap minx maxx
  if offsets = [] || offsets = [0] then return current
  let copies ← (offsets.mapM (copyAt cycle.radius (current.applyTo g)) :
    Except (Failure α) (List (Geometry α)))
  modify fun state => { state with copiesMade := state.copiesMade + (copies.length - 1) }
  match copies with
  | [copy] => return .replaced copy
  | _ => return .replaced (← Geometry.collect (copies.map some))

/-- Whether a range of abscissas is visible as it is and in no other place. -/
def visibleOnce (area : Envelope α) (radius minx maxx : α) : Bool :=
  let period := 2 * radius
  maxx - minx < radius && area.minx ≤ minx && maxx ≤ area.maxx
    && maxx - period < area.minx && area.maxx < minx + period

/-- A rendered geometry with its tears undone, if that makes it narrow or closes it along a pole,
and the range of its abscissas. -/
def stitch (setting : Setting α) (cycle : Cycle α) (g : Geometry α) (minx maxx : α) :
    Except (Failure α) (Revision α × α × α) := do
  let (revision, atPole) ← Unwrap.geometry setting.overlay.isValidPolygon cycle.radius
    (some (cycle.south, cycle.north)) g
  let (west, _, east, _) := (revision.applyTo g).bounds?.getD (minx, minx, maxx, maxx)
  if east - west ≤ cycle.radius || atPole then return (revision, west, east)
  else return (.kept, minx, maxx)

/-- What becomes of a geometry in the rendering system. The transform is the one that produced
it, if it was reprojected. -/
def postProcess (setting : Setting α) (r : Rendering α) (transform : Option (Transform α))
    (g : Option (Geometry α)) : Action α (Revision α) := do
  let g ← checkGeometry g
  match r.cycle, g.bounds? with
  | some cycle, some (minx, _, maxx, _) =>
    if visibleOnce r.area cycle.radius minx maxx then return .kept
    let width := maxx - minx
    let reprojected := (transform.map (!·.isIdentity)).getD false
    if reprojected && cycle.radius < width && width < 2 * cycle.radius then
      let (current, west, east) ← stitch setting cycle g minx maxx
      r.replicate cycle current g west east
    else r.replicate cycle .kept g minx maxx
  | _, _ => return .kept

/-- A source geometry cut, reprojected and copied, or none when nothing of it is visible. -/
def render (setting : Setting α) (r : Rendering α) (transform : Transform α)
    (g : Option (Geometry α)) : Action α (Option (Geometry α)) := do
  let some g := g | return none
  if g.isEmpty then return none
  let needed ← r.requiresProcessing setting g
  let cut ← if needed then (·.applyTo g) <$> r.preProcess setting g else pure g
  if cut.isEmpty then return none
  let projected ← transform.geometry cut
  if projected.isEmpty then return none
  return some ((← r.postProcess setting transform projected).applyTo projected)

end Antimeridian.Rendering
