import Antimeridian.Geometry.Basic

/-!
# Canonical geometries

Many vertex lists describe the same point set. The canonical one has no vertex that an edge
parallel to an axis passes through anyway, starts rings at their least vertex in the direction
that gives the lesser list, lines at the lesser end, and sorts parts.
-/

namespace Antimeridian.Geometry

variable {α : Type} [Scalar α]

/-- Whether a list comes before another one, element by element, given an order of the elements.
A list comes before those it begins. -/
def listBefore {β : Type} (before : β → β → Bool) : List β → List β → Bool
  | [], [] => false
  | [], _ :: _ => true
  | _ :: _, [] => false
  | a :: as, b :: bs =>
    if before a b then true else if before b a then false else listBefore before as bs

/-- The coordinates of a vertex. -/
def coordinates (v : Vertex α) : List α := [v.x, v.y] ++ v.z.toList

/-- Vertices are ordered by their coordinates. -/
def vertexBefore (v w : Vertex α) : Bool :=
  listBefore (fun a b => decide (a < b)) (coordinates v) (coordinates w)

/-- Vertex lists are ordered by their vertices. -/
def chainBefore : List (Vertex α) → List (Vertex α) → Bool := listBefore vertexBefore

/-- Lists of vertex lists are ordered by their lists. -/
def ringsBefore : List (List (Vertex α)) → List (List (Vertex α)) → Bool :=
  listBefore chainBefore

/-- The lesser of two lists. -/
def lesser {β : Type} (before : β → β → Bool) (a b : β) : β := if before b a then b else a

/-- A list sorted, equal elements in the order they had. -/
def sorted {β : Type} (before : β → β → Bool) (xs : List β) : List β :=
  xs.mergeSort fun a b => !before b a

/-- Whether a number lies between two others. -/
def isBetween (a b c : α) : Bool := (a ≤ b && b ≤ c) || (c ≤ b && b ≤ a)

/-- Whether a vertex can go: it repeats a neighbour, or lies between both on a line parallel to an
axis. -/
def isRedundant (previous v next : Vertex α) : Bool :=
  v.sameAs previous || v.sameAs next
    || (previous.x == v.x && v.x == next.x && isBetween previous.y v.y next.y)
    || (previous.y == v.y && v.y == next.y && isBetween previous.x v.x next.x)

/-- A list without its first element that is redundant between its neighbours, if there is one.
The elements are given their neighbours by the list with the one before it and the one after. -/
def dropRedundant? : Vertex α → List (Vertex α) → Vertex α → Option (List (Vertex α))
  | _, [], _ => none
  | previous, v :: rest, after =>
    if isRedundant previous v (rest.headD after) then some rest
    else (dropRedundant? v rest after).map (v :: ·)

/-- A ring, without its closing vertex, from which redundant vertices are deleted one at a time
as long as more than three are left. -/
def thinRing : Nat → List (Vertex α) → List (Vertex α)
  | 0, vs => vs
  | fuel + 1, vs =>
    match vs, vs.getLast? with
    | first :: _, some last =>
      if vs.length ≤ 3 then vs
      else
        match dropRedundant? last vs first with
        | some thinner => thinRing fuel thinner
        | none => vs
    | _, _ => vs

/-- A line from which redundant inner vertices are deleted one at a time as long as more than two
vertices are left. -/
def thinLine : Nat → List (Vertex α) → List (Vertex α)
  | 0, vs => vs
  | fuel + 1, vs =>
    match vs, vs.getLast? with
    | first :: rest, some last =>
      if vs.length ≤ 2 then vs
      else
        match dropRedundant? first rest.dropLast last with
        | some inner => thinLine fuel (first :: inner ++ [last])
        | none => vs
    | _, _ => vs

/-- The rotations of a list. -/
def rotations {β : Type} (xs : List β) : List (List β) :=
  (List.range xs.length).map fun i => xs.drop i ++ xs.take i

/-- The least of the rotations of a list and of its reverse. -/
def leastRotation (vs : List (Vertex α)) : List (Vertex α) :=
  (rotations vs ++ rotations vs.reverse).foldl (lesser chainBefore) vs

/-- The canonical form of a closed ring. -/
def canonicalRing (ring : List (Vertex α)) : List (Vertex α) :=
  let open' := ring.dropLast.map Vertex.flat
  closed (leastRotation (thinRing open'.length open'))

/-- The canonical form of a line. -/
def canonicalLine (line : List (Vertex α)) : List (Vertex α) :=
  let thin := thinLine line.length (line.map Vertex.flat)
  lesser chainBefore thin thin.reverse

/-- The canonical form of a polygon. -/
def canonicalPolygon (rings : List (List (Vertex α))) : List (List (Vertex α)) :=
  match rings.map canonicalRing with
  | [] => []
  | shell :: holes => shell :: sorted chainBefore holes

/-- The name of a geometry's kind. -/
def kindText : Geometry α → String
  | .point _ => "Point"
  | .line _ => "LineString"
  | .ring _ => "LinearRing"
  | .polygon _ => "Polygon"
  | .points _ => "MultiPoint"
  | .lines _ => "MultiLineString"
  | .polygons _ => "MultiPolygon"
  | .collection _ => "GeometryCollection"

/-- The vertex lists of a geometry, part by part. -/
def chains : Geometry α → List (List (List (Vertex α)))
  | .point position => [[position.toList]]
  | .line vs | .ring vs => [[vs]]
  | .polygon rings => [rings]
  | .points parts => parts.map fun p => [p.toList]
  | .lines parts => parts.map fun vs => [vs]
  | .polygons parts => parts
  | .collection _ => []

/-- Members of a collection are ordered by kind, then by their vertex lists. -/
def memberBefore (g h : Geometry α) : Bool :=
  if g.kindText = h.kindText then listBefore ringsBefore g.chains h.chains
  else g.kindText < h.kindText

mutual

/-- The canonical form of a geometry. -/
def canonical : Geometry α → Geometry α
  | .point position => .point position
  | .line vs => .line (canonicalLine vs)
  | .ring vs => .ring (canonicalLine vs)
  | .polygon rings => .polygon (canonicalPolygon rings)
  | .points parts =>
    .points (sorted (fun a b => chainBefore a.toList b.toList) parts)
  | .lines parts => .lines (sorted chainBefore (parts.map canonicalLine))
  | .polygons parts => .polygons (sorted ringsBefore (parts.map canonicalPolygon))
  | .collection members => .collection (sorted memberBefore (canonicalAll members))

/-- The canonical forms of the members of a list. -/
def canonicalAll : List (Geometry α) → List (Geometry α)
  | [] => []
  | g :: rest => g.canonical :: canonicalAll rest

end

end Antimeridian.Geometry
