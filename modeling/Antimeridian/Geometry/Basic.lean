import Antimeridian.Scalar

/-!
# Geometries

Points, lines, rings and polygons, alone, in multi geometries of one kind, or in collections of
any kind. A polygon is the list of its rings, the shell first; the empty geometry of a kind has
no vertices. Functions on collections come in pairs, one for a geometry and one for a list of
members, so that each recurses on the data.
-/

namespace Antimeridian

/-- A position, with a height where it carries one. -/
structure Vertex (α : Type) where
  x : α
  y : α
  z : Option α := none

namespace Vertex

variable {α : Type} [Scalar α]

/-- Equal horizontal positions. -/
def sameAs (a b : Vertex α) : Bool := a.x == b.x && a.y == b.y

/-- Equal positions, heights included. -/
def equals (a b : Vertex α) : Bool := a.sameAs b && a.z == b.z

/-- The position without its height. -/
def flat (v : Vertex α) : Vertex α := { x := v.x, y := v.y }

/-- The vertex with every coordinate replaced. -/
def convert {α β : Type} (f : α → β) (v : Vertex α) : Vertex β :=
  { x := f v.x, y := f v.y, z := v.z.map f }

/-- The vertex moved along the horizontal axis. -/
def shift (v : Vertex α) (dx : α) : Vertex α := { v with x := v.x + dx }

end Vertex

/-- A planar geometry. -/
inductive Geometry (α : Type) where
  | point (position : Option (Vertex α))
  | line (vertices : List (Vertex α))
  | ring (vertices : List (Vertex α))
  | polygon (rings : List (List (Vertex α)))
  | points (parts : List (Option (Vertex α)))
  | lines (parts : List (List (Vertex α)))
  | polygons (parts : List (List (List (Vertex α))))
  | collection (members : List (Geometry α))

namespace Geometry

variable {α : Type}

/-- The geometry without any part. -/
def nothing : Geometry α := .collection []

instance : Inhabited (Geometry α) := ⟨nothing⟩

/-- Whether a list of rings has no shell. -/
def isEmptyPolygon : List (List (Vertex α)) → Bool
  | [] => true
  | shell :: _ => shell.isEmpty

mutual

/-- Whether a geometry has no vertices. -/
def isEmpty : Geometry α → Bool
  | .point position => position.isNone
  | .line vertices | .ring vertices => vertices.isEmpty
  | .polygon rings => isEmptyPolygon rings
  | .points parts => parts.all (·.isNone)
  | .lines parts => parts.all (·.isEmpty)
  | .polygons parts => parts.all isEmptyPolygon
  | .collection members => isEmptyAll members

/-- Whether every member of a list is empty. -/
def isEmptyAll : List (Geometry α) → Bool
  | [] => true
  | g :: rest => g.isEmpty && isEmptyAll rest

end

mutual

/-- The vertices that bound a geometry. A polygon is bounded by its shell. -/
def outline : Geometry α → List (Vertex α)
  | .point position => position.toList
  | .line vertices | .ring vertices => vertices
  | .polygon rings => rings.head?.getD []
  | .points parts => parts.filterMap id
  | .lines parts => parts.flatten
  | .polygons parts => parts.flatMap (·.head?.getD [])
  | .collection members => outlineAll members

/-- The vertices that bound a list of members. -/
def outlineAll : List (Geometry α) → List (Vertex α)
  | [] => []
  | g :: rest => g.outline ++ outlineAll rest

end

mutual

/-- Every vertex of a geometry, in order. -/
def vertices : Geometry α → List (Vertex α)
  | .point position => position.toList
  | .line vertices | .ring vertices => vertices
  | .polygon rings => rings.flatten
  | .points parts => parts.filterMap id
  | .lines parts => parts.flatten
  | .polygons parts => parts.flatMap List.flatten
  | .collection members => verticesAll members

/-- Every vertex of a list of members, in order. -/
def verticesAll : List (Geometry α) → List (Vertex α)
  | [] => []
  | g :: rest => g.vertices ++ verticesAll rest

end

mutual

/-- Whether a ring or a polygon of a geometry has a vertex without a height. -/
def hasFlatRing : Geometry α → Bool
  | .ring vertices => vertices.any (·.z.isNone)
  | .polygon rings => rings.any (·.any (·.z.isNone))
  | .polygons parts => parts.any (·.any (·.any (·.z.isNone)))
  | .collection members => hasFlatRingAny members
  | _ => false

/-- Whether a ring or a polygon of a list of members has a vertex without a height. -/
def hasFlatRingAny : List (Geometry α) → Bool
  | [] => false
  | g :: rest => g.hasFlatRing || hasFlatRingAny rest

end

mutual

/-- The geometry with every vertex replaced. -/
def map {β : Type} (f : Vertex α → Vertex β) : Geometry α → Geometry β
  | .point position => .point (position.map f)
  | .line vertices => .line (vertices.map f)
  | .ring vertices => .ring (vertices.map f)
  | .polygon rings => .polygon (rings.map (·.map f))
  | .points parts => .points (parts.map (·.map f))
  | .lines parts => .lines (parts.map (·.map f))
  | .polygons parts => .polygons (parts.map (·.map (·.map f)))
  | .collection members => .collection (mapAll f members)

/-- The members of a list with every vertex replaced. -/
def mapAll {β : Type} (f : Vertex α → Vertex β) : List (Geometry α) → List (Geometry β)
  | [] => []
  | g :: rest => g.map f :: mapAll f rest

end

/-- The geometry with every coordinate replaced. -/
def convert {β : Type} (f : α → β) (g : Geometry α) : Geometry β := g.map (·.convert f)

/-- The geometry moved along the horizontal axis. -/
def shift [Scalar α] (g : Geometry α) (dx : α) : Geometry α := g.map (·.shift dx)

/-- A vertex moved along the horizontal axis among others that have heights. One that has none is
lost: its coordinates are no numbers. -/
def shiftAmongHeights [Scalar α] (dx : α) (v : Vertex α) : Vertex α :=
  let lost : α := Scalar.infinity - Scalar.infinity
  if v.z.isSome then v.shift dx else { x := lost, y := lost }

/-- The least and greatest abscissa and ordinate: west, south, east, north. An empty geometry has
none. -/
def bounds? [Scalar α] (g : Geometry α) : Option (α × α × α × α) :=
  match g.outline with
  | [] => none
  | v :: rest =>
    some (Scalar.minimum v.x (rest.map (·.x)), Scalar.minimum v.y (rest.map (·.y)),
      Scalar.maximum v.x (rest.map (·.x)), Scalar.maximum v.y (rest.map (·.y)))

/-- A list of vertices that ends where it starts; the first vertex is repeated where it does
not. -/
def closed [Scalar α] : List (Vertex α) → List (Vertex α)
  | [] => []
  | v :: rest =>
    if (rest.getLast?.getD v).sameAs v && !rest.isEmpty then v :: rest else v :: rest ++ [v]

end Geometry

end Antimeridian
