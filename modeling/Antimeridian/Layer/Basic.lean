import Antimeridian.Envelope.Basic
import Antimeridian.Text.Literal

/-!
# Layers

A layer is a table of features in a system: each row has a label, attributes under the layer's
columns, and a geometry, which may be missing.
-/

namespace Antimeridian

/-- A row of a layer. -/
structure Feature (α : Type) where
  /-- What the row is known by. Labels may repeat. -/
  label : Text.Literal
  /-- The attributes of the row, by column. -/
  attributes : List (String × Text.Literal)
  /-- The shape of the row. -/
  geometry : Option (Geometry α)

/-- A table of features. -/
structure Layer (α : Type) where
  /-- The system of the geometries. -/
  crs : Option Crs
  /-- The columns that hold attributes. -/
  attributeColumns : List String
  /-- The column that holds geometries. -/
  geometryColumn : String := "geometry"
  /-- The rows. -/
  features : List (Feature α)

namespace Layer

variable {α : Type}

/-- Every column, the one of geometries last, unless it takes the place of one for attributes. -/
def columns (l : Layer α) : List String :=
  if l.attributeColumns.contains l.geometryColumn then l.attributeColumns
  else l.attributeColumns ++ [l.geometryColumn]

/-- The columns whose attributes can be seen. -/
def visibleColumns (l : Layer α) : List String :=
  l.attributeColumns.filter (· ≠ l.geometryColumn)

/-- The text of a layer: its number of features and the text of its system. -/
def describe (l : Layer α) : String :=
  "<Vector features=" ++ toString l.features.length ++ " crs="
    ++ (l.crs.map (·.text)).getD "None" ++ ">"

variable [Scalar α]

/-- The bounds of several geometries together, where one of them has any. -/
def totalBounds? (gs : List (Geometry α)) : Option (Envelope α) :=
  match gs.filterMap fun g => if g.isEmpty then none else some (Envelope.ofGeometry g none) with
  | [] => none
  | first :: rest => some (rest.foldl Envelope.union first)

/-- An envelope with bounds that are no numbers. -/
def unbounded (crs : Option Crs) : Envelope α :=
  let missing : α := Scalar.infinity - Scalar.infinity
  ⟨missing, missing, missing, missing, crs⟩

/-- The bounding envelope of a layer: empty where every feature has an empty geometry. Where
features without a geometry are all that is left, the bounds are no numbers. -/
def envelope (l : Layer α) : Envelope α :=
  let empty (f : Feature α) : Bool := (f.geometry.map (·.isEmpty)).getD false
  if l.features.all empty then Envelope.empty l.crs
  else ((totalBounds? (l.features.filterMap (·.geometry))).getD (unbounded none)).withCrs l.crs

end Layer

end Antimeridian
