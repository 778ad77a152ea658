import Antimeridian.Failure

/-!
# Parts of geometries

Taking geometries apart and gathering them again. Parts of one kind make a multi geometry of that
kind; mixed parts make a collection. Gathering looks one level deep: what a member of a
collection holds stays inside that member.
-/

namespace Antimeridian.Geometry

variable {α : Type}

/-- The parts of a geometry, one level deep. A geometry of a single kind is its only part. -/
def parts : Geometry α → List (Geometry α)
  | .points positions => positions.map .point
  | .lines members => members.map .line
  | .polygons members => members.map .polygon
  | .collection members => members
  | g => [g]

/-- The parts of a list of geometries, missing and empty ones left out. -/
def partsAll (gs : List (Option (Geometry α))) : List (Geometry α) :=
  gs.flatMap fun
    | some g => if g.isEmpty then [] else g.parts
    | none => []

/-- The position of a point. -/
def position? : Geometry α → Option (Option (Vertex α))
  | .point position => some position
  | _ => none

/-- The vertices of a line. -/
def line? : Geometry α → Option (List (Vertex α))
  | .line vertices => some vertices
  | _ => none

/-- The rings of a polygon. -/
def polygon? : Geometry α → Option (List (List (Vertex α)))
  | .polygon rings => some rings
  | _ => none

/-- A multi geometry of lines. None of them may be empty. -/
def multiLine (members : List (List (Vertex α))) : Except (Failure α) (Geometry α) :=
  if members.any (·.isEmpty) then .error .partEmpty else .ok (.lines members)

/-- A multi geometry of points. None of them may be empty. -/
def multiPoint (members : List (Option (Vertex α))) : Except (Failure α) (Geometry α) :=
  if members.any (·.isNone) then .error .partEmpty else .ok (.points members)

/-- A multi geometry of polygons, empty ones left out. -/
def multiPolygon (members : List (List (List (Vertex α)))) : Geometry α :=
  .polygons (members.filter (!isEmptyPolygon ·))

/-- Geometries gathered into the narrowest geometry that holds their parts. -/
def collect (gs : List (Option (Geometry α))) : Except (Failure α) (Geometry α) :=
  let flat := partsAll gs
  if flat.isEmpty then .ok nothing
  else
    match flat.mapM polygon?, flat.mapM line?, flat.mapM position? with
    | some members, _, _ => .ok (multiPolygon members)
    | _, some members, _ => multiLine members
    | _, _, some members => multiPoint members
    | _, _, _ => .ok (.collection flat)

mutual

/-- Every polygon of a geometry that is not empty, collections of any depth included. -/
def extractPolygons : Geometry α → List (List (List (Vertex α)))
  | .polygon rings => if isEmptyPolygon rings then [] else [rings]
  | .polygons members => members.filter (!isEmptyPolygon ·)
  | .collection members => extractPolygonsAll members
  | _ => []

/-- Every polygon of a list of members that is not empty. -/
def extractPolygonsAll : List (Geometry α) → List (List (List (Vertex α)))
  | [] => []
  | g :: rest => g.extractPolygons ++ extractPolygonsAll rest

end

end Antimeridian.Geometry
