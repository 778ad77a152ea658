import Antimeridian.Decimal.Layout
import Antimeridian.Raster.Basic
import Antimeridian.Raster.Overview

/-!
# Raster files

A file keeps what a raster holds, except that its bands carry descriptions instead of the raster
keeping a table of names.
-/

namespace Antimeridian

/-- What a raster file holds. -/
structure RasterFile (α : Type) where
  /-- The pixels and their place. -/
  contents : Raster α
  /-- The description of each band. -/
  descriptions : List (Option String)
  /-- The smaller copies kept beside the pixels. -/
  overviews : List Overview := []

/-- What stands at a path. -/
inductive Stored (α : Type) where
  /-- There is no file. -/
  | nothing
  /-- A file that is no raster. -/
  | unreadable
  /-- A raster without a system. -/
  | unplaced
  /-- A raster. -/
  | raster (file : RasterFile α)

namespace RasterFile

variable {α : Type}

/-- The descriptions of some bands once a name has been given to the band of a number. A number
beyond the bands is passed over, and one before them is refused. -/
def describe (descriptions : List (Option String)) (name : String) (number : Text.Literal) :
    Except (Failure α) (List (Option String)) :=
  let count : Int := descriptions.length
  let describeBand (n : Int) : Except (Failure α) (List (Option String)) :=
    if count < n then .ok descriptions
    else if n ≤ 0 then .error .indexRejected
    else .ok (descriptions.set (n - 1).toNat (description name))
  match number with
  | .whole n => describeBand n
  | .flag b => describeBand (if b then 1 else 0)
  | .decimal x => if x ≤ Scalar.ofInt count then .error .typeRejected else .ok descriptions
  | _ => .error .typeRejected
where
  /-- A name as a file keeps it: without the blanks in front, if anything is left. -/
  description (name : String) : Option String :=
    let kept := name.toList.dropWhile Text.isBasicBlank
    if kept.isEmpty then none else some (String.ofList kept)

/-- The greatest number of single precision. -/
def greatestSingle : Float := 3.4028234663852886e+38

/-- The whole number at the start of the text with seventeen digits of a double. -/
def leadingWhole (x : Float) : Float :=
  let size := x.abs
  let first (n : Nat) : Nat := ((toString n).take 1).toNat?.getD 0
  let leading :=
    if size < 1e-4 then first (Decimal.shortest size).digits
    else if 1e17 ≤ size then first (Scalar.floor size).toNat
    else (Scalar.floor size).toNat
  if size == 0 then 0 else if x < 0 then -Float.ofNat leading else Float.ofNat leading

/-- The value of missing pixels as it is read back from a file. Of a value for the longest whole
numbers the file keeps the text with an exponent, and the number in front of it is read. -/
def markKept (t : PixelType) (x : Float) : Float :=
  if t == .float32 && x.isFinite then
    if greatestSingle < x then greatestSingle
    else if x < -greatestSingle then -greatestSingle
    else x
  else if t == .int64 || t == .uint64 then leadingWhole x
  else x

/-- A raster as it is written to a file at a path. It needs pixels, of a type that files hold, and
the value of its missing pixels has to be one that they can have. Where the path is blocked
nothing is written. -/
def save (path : String) (blocked : Bool) (r : Raster α) : Except (Failure α) (RasterFile α) := do
  if !r.pixelType.isStorable then .error .typeRejected
  if blocked || r.bands * r.rows * r.columns = 0 then .error (.saveFailed path)
  if !(r.nodata.map r.pixelType.canMark).getD true then .error .valueRejected
  let descriptions ← r.bandNames.foldlM (fun descriptions (name, number) =>
    describe descriptions name number) (List.replicate r.bands none)
  return { contents := { r with nodata := r.nodata.map (markKept r.pixelType) }, descriptions }

/-- The file with smaller copies made by a list of factors. -/
def withOverviews (f : RasterFile α) (wanted : Text.Literal) :
    Except (Failure α) (RasterFile α) := do
  let wanted ← match wanted with
    | .list items => pure items
    | other => if other.holds then throw .typeRejected else pure []
  let factors ← Overview.factors f.contents.columns f.contents.rows wanted
  return { f with overviews := Overview.build f.contents.columns f.contents.rows factors }

/-- The names of some bands of a file, with their numbers among those chosen. Of bands with the
same name the last one keeps it. -/
def namesOf (f : RasterFile α) (bands : List Nat) : List (String × Text.Literal) :=
  (bands.zipIdx 1).foldl (fun names (band, number) =>
    match (f.descriptions[band]?).join with
    | some name => Text.Literal.put name (.whole number) names
    | none => names) []

/-- The extents of a pixel, then those of a pixel of each smaller copy. -/
def levels [Scalar α] (f : RasterFile α) : List (α × α) :=
  let x := Scalar.abs f.contents.transform.a
  let y := Scalar.abs f.contents.transform.e
  (x, y) :: f.overviews.map fun o =>
    let factor : α := Scalar.ofInt (o.columnFactor f.contents.columns)
    (x * factor, y * factor)

end RasterFile

end Antimeridian
