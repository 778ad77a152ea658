import Antimeridian.Failure

/-!
# Geometries from coordinates

A list of positions makes a line if it has two of them, and a ring if it has four, the closing
one included; a ring that does not close is closed. No positions make the empty geometry.
-/

namespace Antimeridian.Geometry

variable {α : Type} [Scalar α]

/-- The vertices of a line. -/
def lineVertices (vs : List (Vertex α)) : Except (Failure α) (List (Vertex α)) :=
  if vs.length = 1 then .error .lineTooShort else .ok vs

/-- The vertices of a ring. One whose ends differ, in place or in height, is closed, and so is one
of three vertices. -/
def ringVertices (vs : List (Vertex α)) : Except (Failure α) (List (Vertex α)) :=
  match vs, vs.getLast? with
  | first :: _, some last =>
    let ring := if vs.length = 3 || !first.equals last then vs ++ [first] else vs
    if 4 ≤ ring.length then .ok ring else .error .ringTooShort
  | _, _ => .ok []

end Antimeridian.Geometry
