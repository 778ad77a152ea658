import Antimeridian.Rendering.Queries

/-!
# Cutting source geometries

Before it is reprojected, a geometry is cut to what the rendering needs: the queries grown by a
margin, and the valid area of the target. A geometry that lies inside one rectangle of this mask
is left as it is.
-/

namespace Antimeridian.Rendering

variable {α : Type} [Scalar α]

/-- The fraction of a query added on each of its sides before it serves as a mask. -/
def margin : α := 0.1

/-- A query grown by the margin. -/
def grow (query : Envelope α) : Envelope α :=
  query.expandBy (query.width * margin) (query.height * margin)

/-- The rectangles that source geometries are cut to: the grown queries, for geographic data
across the antimeridian also a turn to the west and to the east. -/
def queryMask (r : Rendering α) (acrossDateline : Bool) (queries : List (Envelope α)) :
    List (Envelope α) :=
  if acrossDateline && r.source.isGeographic then
    queries.flatMap fun query =>
      [0, -1, 1].map fun (k : Int) => (grow query).shift (Scalar.ofInt k * Longitude.turn)
  else queries.map grow

/-- The part of the valid area around an envelope, in the source system, or none where the
envelope needs no cut. Data that are not reprojected are rendered as they are. -/
def validMask (setting : Setting α) (r : Rendering α) (e : Envelope α) :
    Except (Failure α) (Option (Envelope α)) := do
  let some valid := r.validArea | return none
  if r.relation.isIdentity then return none
  let geographic ← e.transform setting.atlas r.base
  if valid.contains geographic then return none
  let clipped := valid.intersection geographic
  if clipped.isEmpty then return some (Envelope.empty (some r.source))
  return some (← clipped.transform setting.atlas r.source)

/-- A geometry to work on has vertices. -/
def checkGeometry (g : Option (Geometry α)) : Except (Failure α) (Geometry α) :=
  match g with
  | none => .error .geometryRequired
  | some g => if g.isEmpty then .error .geometryEmpty else .ok g

/-- The rectangles of a mask that a geometry is cut with: those with an area that meet its
envelope. -/
def cuttingMask (mask : List (Envelope α)) (e : Envelope α) : List (Envelope α) :=
  mask.filter fun rect => rect.intersects e && 0 < rect.width && 0 < rect.height

/-- A geometry cut to a mask. -/
def cutTo (setting : Setting α) (mask : List (Envelope α)) (g : Geometry α) (e : Envelope α) :
    Revision α :=
  if mask.any (·.contains e) then .kept
  else
    match cuttingMask mask e with
    | [] => .replaced .nothing
    | cutting =>
      let result := setting.overlay.clip g cutting
      .replaced (if result.isEmpty then .nothing else result)

/-- The part of a source geometry that the rendering needs and the target can represent. -/
def preProcess (setting : Setting α) (r : Rendering α) (g : Option (Geometry α)) :
    Action α (Revision α) := do
  let g ← checkGeometry g
  let e := Envelope.ofGeometry g (some r.source)
  let queries ← r.queries setting
  let mask := r.queryMask (← get).acrossDateline queries
  match ← r.validMask setting e with
  | none => return cutTo setting mask g e
  | some valid => return cutTo setting (mask.map (·.intersection valid)) g e

/-- Whether a geometry has to be processed at all: always where copies are made, and otherwise
when cutting could change it. -/
def requiresProcessing (setting : Setting α) (r : Rendering α) (g : Option (Geometry α)) :
    Action α Bool := do
  let g ← checkGeometry g
  if r.makesCopies then return true
  let e := Envelope.ofGeometry g (some r.source)
  match ← r.validMask setting e with
  | some _ => return true
  | none =>
    let queries ← r.queries setting
    return !(r.queryMask (← get).acrossDateline queries).any (·.contains e)

end Antimeridian.Rendering
