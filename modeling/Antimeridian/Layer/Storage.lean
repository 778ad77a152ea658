import Antimeridian.Crs.Reference
import Antimeridian.Layer.Basic

/-!
# Stored layers

A file does not keep a layer just as it is. Rows are numbered anew, labels that are no whole numbers
become a column, columns of several kinds become text, and depending on the format single parts
become multi geometries and rows change their order.
-/

namespace Antimeridian

open Text (Literal)

/-- A format of layer files. -/
inductive StorageFormat where
  | geoPackage
  | geoJson
  | flatGeobuf
  deriving DecidableEq

namespace StorageFormat

/-- Whether parts and multi geometries of a kind cannot stand side by side. -/
def isUniform (f : StorageFormat) : Bool := f ≠ geoJson

end StorageFormat

namespace Layer

variable {α : Type}

/-- The column in which files hold geometries. -/
def fileGeometryColumn : String := "geometry"

/-- The rows of a list numbered from zero. -/
def relabel (features : List (Feature α)) : List (Feature α) :=
  features.zipIdx.map fun (f, i) => { f with label := .whole (i : Nat) }

/-! ## Columns -/

/-- The value of a row under a column. -/
def valueAt (column : String) (f : Feature α) : Literal :=
  (f.attributes.lookup column).getD .missing

/-- What sort of value a column holds. -/
inductive ValueSort where
  | flag
  | number
  | other
  deriving DecidableEq

/-- The sort of a value, none for a missing one. -/
def sortOf? : Literal → Option ValueSort
  | .missing => none
  | .flag _ => some .flag
  | .whole _ | .decimal _ => some .number
  | .text _ | .list _ | .record _ => some .other

/-- Whether a column of some values is kept as it is: all of them are numbers, or all of them are a
yes or a no. -/
def isPlain (values : List Literal) : Bool :=
  values.all (fun v => (sortOf? v).getD .number = .number)
    || values.all (fun v => sortOf? v = some .flag)

/-- A value as text. What is missing stays missing. -/
def asText : Literal → Literal
  | .missing => .missing
  | .text s => .text s
  | v => .text v.write

/-- The rows with the values of a column of several sorts as texts. -/
def settleColumn (features : List (Feature α)) (column : String) : List (Feature α) :=
  if isPlain (features.map (valueAt column)) then features
  else
    features.map fun f =>
      { f with attributes := f.attributes.map fun (name, v) =>
          (name, if name = column then asText v else v) }

/-- Whether labels are whole numbers, which files do not keep. -/
def isCounted (features : List (Feature α)) : Bool :=
  features.all fun f =>
    match f.label with
    | .whole _ => true
    | _ => false

/-- The layer with labels that are no whole numbers in a first column. -/
def withLabelColumn (l : Layer α) : Layer α :=
  if isCounted l.features then l
  else
    let column := if l.columns.contains "index" then "level_0" else "index"
    { l with
      attributeColumns := column :: l.attributeColumns
      features := l.features.map fun f =>
        { f with attributes := (column, f.label) :: f.attributes } }

/-- The column that numbers rows where there is one: a column for that by its name, with whole
numbers only. -/
def rowNumbers? (l : Layer α) : Option (String × List Int) := do
  let column ← l.attributeColumns.find? (·.toLower = "fid")
  let numbers ← l.features.mapM fun f =>
    match valueAt column f with
    | .whole n => some n
    | _ => none
  return (column, numbers)

/-- The layer with its rows in the order of a column that numbers them, and without that column. -/
def byRowNumber (l : Layer α) : Layer α :=
  match rowNumbers? l with
  | none => l
  | some (column, numbers) =>
    let ordered := (numbers.zip l.features).mergeSort fun a b => a.1 ≤ b.1
    { l with
      attributeColumns := l.attributeColumns.filter (· ≠ column)
      features := ordered.map fun (_, f) =>
        { f with attributes := f.attributes.filter (·.1 ≠ column) } }

/-! ## Geometries -/

/-- The kinds that single parts and multi geometries share. -/
inductive PartKind where
  | point
  | line
  | polygon
  deriving DecidableEq

/-- The kind of a geometry and whether it is a multi geometry. -/
def partKind? : Geometry α → Option (PartKind × Bool)
  | .point _ => some (.point, false)
  | .line _ => some (.line, false)
  | .polygon _ => some (.polygon, false)
  | .points _ => some (.point, true)
  | .lines _ => some (.line, true)
  | .polygons _ => some (.polygon, true)
  | .ring _ | .collection _ => none

/-- A geometry as a multi geometry. -/
def asMulti : Geometry α → Geometry α
  | .point none => .points []
  | .point p => .points [p]
  | .line vs => .lines (if vs.isEmpty then [] else [vs])
  | .polygon rings => .polygons (if Geometry.isEmptyPolygon rings then [] else [rings])
  | g => g

/-- Whether rows hold single parts of a kind and multi geometries of the same kind, and nothing
else. -/
def isMixed (features : List (Feature α)) : Bool :=
  let kinds := (features.filterMap (·.geometry)).map partKind?
  match kinds.head? with
  | some (some (kind, _)) =>
    kinds.all (fun k => k = some (kind, true) || k = some (kind, false))
      && kinds.contains (some (kind, true)) && kinds.contains (some (kind, false))
  | _ => false

/-- The rows with multi geometries only, where single parts of the same kind are among them. -/
def unifyParts (features : List (Feature α)) : List (Feature α) :=
  if isMixed features then features.map fun f => { f with geometry := f.geometry.map asMulti }
  else features

/-! ## Order along a curve -/

/-- The place of a cell on the curve that visits the cells of a square one after another, each next
to the one before. The square has two to the `bits` cells on a side. -/
def curvePlace : Nat → Nat → Nat → Nat
  | 0, _, _ => 0
  | bits + 1, x, y =>
    let half := 2 ^ bits
    let isRight := half ≤ x
    let isUpper := half ≤ y
    let x := x % half
    let y := y % half
    let quarter := if isUpper then (if isRight then 2 else 1) else (if isRight then 3 else 0)
    let (x, y) :=
      if isUpper then (x, y)
      else if isRight then (half - 1 - y, half - 1 - x)
      else (y, x)
    quarter * half * half + curvePlace bits x y

variable [Scalar α]

/-- The cell that the middle of an extent lies in along an axis of a whole. -/
def cellOf (low high wholeLow wholeHigh : α) : Nat :=
  let length := wholeHigh - wholeLow
  if length == 0 then 0
  else (Scalar.floor (65535 * ((low + high) / 2 - wholeLow) / length)).toNat

/-- The rows in falling order along the curve through the middles of their geometries. -/
def alongCurve (features : List (Feature α)) : List (Feature α) :=
  match totalBounds? (features.filterMap (·.geometry)) with
  | none => features
  | some e =>
    let place (f : Feature α) : Nat :=
      match totalBounds? f.geometry.toList with
      | none => 0
      | some g =>
        curvePlace 16 (cellOf g.minx g.maxx e.minx e.maxx) (cellOf g.miny g.maxy e.miny e.maxy)
    ((features.map fun f => (place f, f)).mergeSort fun a b => b.1 ≤ a.1).map (·.2)

/-! ## Files -/

/-- The system that a file tells. Where a format can only tell systems by their code, the others
read as longitudes and latitudes. -/
def storedCrs (format : StorageFormat) (crs : Option Crs) : Option Crs :=
  match format, crs with
  | .geoJson, none => some Crs.wgs84
  | .geoJson, some c => some (if c.text.startsWith "+" then Crs.wgs84 else c)
  | _, c => c

/-- The layer as a file of a format holds it. -/
def stored (format : StorageFormat) (l : Layer α) : Layer α :=
  let l := withLabelColumn l
  let l := if format = .geoPackage then byRowNumber l else l
  let features := l.attributeColumns.foldl settleColumn l.features
  let features := if format.isUniform then unifyParts features else features
  let features := if format = .flatGeobuf then alongCurve features else features
  { l with
    crs := storedCrs format l.crs
    geometryColumn := fileGeometryColumn
    features := relabel features }

end Layer

end Antimeridian
