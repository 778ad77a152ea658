import Antimeridian.Document.Number
import Antimeridian.Geometry.Checked

/-!
# Geometries in documents

A geometry is a record of its kind and its coordinates, a collection one of its members. A
position is a list of two numbers or of three; lines, rings and polygons are lists of them. The
list without positions is the empty geometry of a kind.
-/

namespace Antimeridian.Document

open Text (Literal)

/-- A position. -/
def vertex (l : Literal) : Reading (Vertex Float) := do
  match ← numbers l with
  | [x, y] => return { x, y }
  | [x, y, z] => return { x, y, z := some z }
  | _ => .error .valueRejected

/-- Positions in a row, which all carry a height or none of them does. -/
def chain (l : Literal) : Reading (List (Vertex Float)) := do
  let vs ← l.items.mapM vertex
  if vs.any (·.z.isSome) && vs.any (·.z.isNone) then .error .valueRejected
  return vs

/-- The vertices of a line. -/
def line (l : Literal) : Reading (List (Vertex Float)) := do Geometry.lineVertices (← chain l)

/-- The vertices of a ring. -/
def ring (l : Literal) : Reading (List (Vertex Float)) := do Geometry.ringVertices (← chain l)

/-- The rings of a polygon. -/
def rings (l : Literal) : Reading (List (List (Vertex Float))) := l.items.mapM ring

/-- A line that is a part of lines, which has to have vertices. -/
def linePart (l : Literal) : Reading (List (Vertex Float)) := do
  let vs ← line l
  if vs.isEmpty then .error .partEmpty else return vs

mutual

/-- The geometry that a value describes. -/
def geometry : Literal → Reading (Geometry Float)
  | .record fields => do
    let c := (fields.lookup "coordinates").getD .missing
    match (fields.lookup "type").bind Literal.text? with
    | some "Point" => return .point (← if c.items.isEmpty then pure none else some <$> vertex c)
    | some "LineString" => return .line (← line c)
    | some "LinearRing" => return .ring (← ring c)
    | some "Polygon" => return .polygon (← rings c)
    | some "MultiPoint" => return .points (← c.items.mapM fun p => some <$> vertex p)
    | some "MultiLineString" => return .lines (← c.items.mapM linePart)
    | some "MultiPolygon" =>
      return .polygons ((← c.items.mapM rings).filter (!Geometry.isEmptyPolygon ·))
    | some "GeometryCollection" => return .collection (← members fields)
    | _ => .error .valueRejected
  | _ => .error .valueRejected

/-- The members of a collection, found among its fields. -/
def members : List (String × Literal) → Reading (List (Geometry Float))
  | [] => .ok []
  | (name, value) :: rest =>
    if name = "geometries" then
      match value with
      | .list items => geometries items
      | _ => .ok []
    else members rest

/-- The geometries that the values of a list describe. -/
def geometries : List Literal → Reading (List (Geometry Float))
  | [] => .ok []
  | item :: rest => do return (← geometry item) :: (← geometries rest)

end

end Antimeridian.Document
