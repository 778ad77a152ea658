import Antimeridian.Geometry.Basic

/-!
# Areas of polygons

The area inside a ring is summed over its vertices, each taken with the ordinates of its
neighbours. The area of a polygon is that of its shell without its holes.
-/

namespace Antimeridian.Geometry

variable {α : Type} [Scalar α]

/-- The sum, over the inner vertices of a chain, of the distance from an abscissa times the fall of
the ordinate from the vertex before to the one after. -/
def fallSum (origin : α) : List (Vertex α) → α
  | vs => go 0 vs
where
  /-- The sum continued from a total. -/
  go (total : α) : List (Vertex α) → α
    | u :: v :: w :: rest => go (total + (v.x - origin) * (u.y - w.y)) (v :: w :: rest)
    | _ => total

/-- The area inside a closed ring. -/
def ringArea (ring : List (Vertex α)) : α :=
  match ring with
  | first :: _ :: _ :: _ => Scalar.abs (fallSum first.x ring / 2)
  | _ => 0

/-- The area of a polygon given by its rings, the shell first. -/
def polygonArea (rings : List (List (Vertex α))) : α :=
  match rings with
  | [] => 0
  | shell :: holes => holes.foldl (fun area hole => area - ringArea hole) (ringArea shell)

/-- The polygon of the largest area, the first one of equals. -/
def largest? : List (List (List (Vertex α))) → Option (List (List (Vertex α)))
  | [] => none
  | first :: rest =>
    some (rest.foldl (fun best p => if polygonArea best < polygonArea p then p else best) first)

end Antimeridian.Geometry
