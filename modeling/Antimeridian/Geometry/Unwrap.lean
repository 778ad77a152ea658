import Antimeridian.Geometry.Parts
import Antimeridian.Scalar.Sum

/-!
# Undoing tears at the antimeridian

A projection onto a periodic axis tears a geometry that crosses the seam: a short step becomes a
jump of almost a period. Unwrapping compensates every jump wider than half a period by one
period. A ring that does not close afterwards goes around a pole; it is closed along the pole's
ordinate where that is known, and left as it is otherwise.
-/

namespace Antimeridian

/-- What became of a geometry. -/
inductive Revision (α : Type) where
  /-- The geometry itself, untouched. -/
  | kept
  /-- Another geometry in its place. -/
  | replaced (geometry : Geometry α)

/-- The geometry after a revision. -/
def Revision.applyTo {α : Type} (g : Geometry α) : Revision α → Geometry α
  | .kept => g
  | .replaced geometry => geometry

namespace Unwrap

variable {α : Type} [Scalar α]

/-- The compensation of a jump: a period against it where it is wider than half a period. -/
def compensation (radius jump : α) : α :=
  let period := 2 * radius
  if radius < jump then -period else if jump < -radius then period else 0

/-- The jumps between consecutive vertices. -/
def jumps : List (Vertex α) → List α
  | a :: b :: rest => (b.x - a.x) :: jumps (b :: rest)
  | _ => []

/-- A vertex list without wide jumps: every vertex is moved by the compensations up to it. -/
def vertices (radius : α) : List (Vertex α) → List (Vertex α)
  | [] => []
  | v :: rest =>
    let moves := Scalar.runningSums 0 ((jumps (v :: rest)).map (compensation radius))
    v.flat :: List.zipWith (fun (w : Vertex α) dx => { x := w.x + dx, y := w.y }) rest moves

/-- A vertex list with its last element replaced. -/
def replaceLast (v : Vertex α) (vs : List (Vertex α)) : List (Vertex α) := vs.dropLast ++ [v]

/-- The mean ordinate of a vertex list. -/
def meanOrdinate (vs : List (Vertex α)) : α :=
  Scalar.sum (vs.map (·.y)) / Scalar.ofInt vs.length

/-- The pole ordinate, of the southern and the northern one, on whose side a ring lies. -/
def nearPole (vs : List (Vertex α)) (south north : α) : α :=
  if meanOrdinate vs < (south + north) / 2 then south else north

/-- An unwrapped ring and whether it was closed along a pole, or nothing when it cannot be
closed. -/
def ring (radius : α) (poles : Option (α × α)) (vs : List (Vertex α)) :
    Except (Failure α) (Option (List (Vertex α) × Bool)) :=
  let unwrapped := vertices radius vs
  match unwrapped.head?, unwrapped.getLast? with
  | some first, some last =>
    if Scalar.abs (last.x - first.x) < radius then
      .ok (some (replaceLast first unwrapped, false))
    else
      match poles with
      | none => .ok none
      | some (south, north) =>
        let pole := nearPole unwrapped south north
        let closing := [{ x := last.x, y := pole }, { x := first.x, y := pole }, first]
        .ok (some (unwrapped ++ closing, true))
  | _, _ => .error .vertexMissing

/-- Whether a ring goes around a pole: its ends stay apart when its tears are undone. -/
def goesAround (radius : α) (vs : List (Vertex α)) : Bool :=
  let unwrapped := vertices radius vs
  match unwrapped.head?, unwrapped.getLast? with
  | some first, some last => !(Scalar.abs (last.x - first.x) < radius)
  | _, _ => false

/-- Whether the ordinates of the poles matter for a geometry, since the shell of a polygon goes
around one. -/
def needsPoles (radius : α) (g : Geometry α) : Bool :=
  g.extractPolygons.any fun rings => goesAround radius (rings.headD [])

/-- Unwrapped holes, or nothing when one of them cannot be closed. -/
def holes (radius : α) :
    List (List (Vertex α)) → Except (Failure α) (Option (List (List (Vertex α))))
  | [] => .ok (some [])
  | hole :: rest => do
    let some (first, _) ← ring radius none hole | return none
    let some others ← holes radius rest | return none
    return some (first :: others)

/-- An unwrapped polygon and whether its shell was closed along a pole, or nothing when the
polygon has to stay as it is. A closure along a pole is kept only if the polygon is valid. -/
def polygon (valid : List (List (Vertex α)) → Bool) (radius : α) (poles : Option (α × α))
    (rings : List (List (Vertex α))) :
    Except (Failure α) (Option (List (List (Vertex α)) × Bool)) := do
  let some (shell, atPole) ← ring radius poles (rings.headD []) | return none
  let some inner ← holes radius rings.tail | return none
  let unwrapped := shell :: inner
  if atPole && !valid unwrapped then return none
  return some (unwrapped, atPole)

/-- Unwrapped polygons, and whether one of them was closed along a pole. -/
def polygons (valid : List (List (Vertex α)) → Bool) (radius : α) (poles : Option (α × α)) :
    List (List (List (Vertex α))) →
    Except (Failure α) (List (List (List (Vertex α))) × Bool)
  | [] => .ok ([], false)
  | rings :: rest => do
    let (first, atPole) := (← polygon valid radius poles rings).getD (rings, false)
    let (others, otherAtPole) ← polygons valid radius poles rest
    return (first :: others, atPole || otherAtPole)

mutual

/-- A geometry with its tears undone, and whether a ring was closed along a pole. Points are
kept. -/
def geometry (valid : List (List (Vertex α)) → Bool) (radius : α) (poles : Option (α × α)) :
    Geometry α → Except (Failure α) (Revision α × Bool)
  | .polygon rings => do
    match ← polygon valid radius poles rings with
    | some (unwrapped, atPole) => return (.replaced (.polygon unwrapped), atPole)
    | none => return (.kept, false)
  | .line vs => .ok (.replaced (.line (vertices radius vs)), false)
  | .ring vs => .ok (.replaced (.ring (Geometry.closed (vertices radius vs))), false)
  | .polygons members => do
    let (unwrapped, atPole) ← polygons valid radius poles members
    return (.replaced (Geometry.multiPolygon unwrapped), atPole)
  | .lines members => do
    return (.replaced (← Geometry.multiLine (members.map (vertices radius))), false)
  | .collection members => do
    let (unwrapped, atPole) ← geometries valid radius poles members
    return (.replaced (.collection unwrapped), atPole)
  | .point _ | .points _ => .ok (.kept, false)

/-- The members of a collection with their tears undone, and whether a ring of one of them was
closed along a pole. -/
def geometries (valid : List (List (Vertex α)) → Bool) (radius : α) (poles : Option (α × α)) :
    List (Geometry α) → Except (Failure α) (List (Geometry α) × Bool)
  | [] => .ok ([], false)
  | g :: rest => do
    let (revision, atPole) ← geometry valid radius poles g
    let (others, otherAtPole) ← geometries valid radius poles rest
    return (revision.applyTo g :: others, atPole || otherAtPole)

end

end Unwrap

end Antimeridian
