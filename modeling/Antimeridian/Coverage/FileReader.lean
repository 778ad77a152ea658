import Antimeridian.Coverage.Reader
import Antimeridian.Raster.File
import Antimeridian.Raster.Memory
import Antimeridian.Raster.Merge

/-!
# Reading raster files

In the file's own system the pixels that meet the request are read, snapped outward to whole
pixels and brought to the requested resolution, never finer than the file's. In any other system
the pixels are warped onto the requested grid. What a file holds is looked at when the reader is
made, and the file is opened again for every read.
-/

namespace Antimeridian

/-- A reader of some bands of a raster file. -/
structure FileReader (α : Type) where
  /-- The path of the file. -/
  path : String
  /-- What the file held when the reader was made. -/
  file : RasterFile α
  /-- The bands to read, counted from one, as they were given. -/
  bands : List Text.Literal
  /-- The factor for what a read holds besides its pixels. -/
  safetyFactor : Text.Literal
  /-- The memory that is free, in bytes. -/
  freeMemory : Nat

namespace FileReader

variable {α : Type}

/-- The last component of a path. -/
def fileName (path : String) : String := (path.splitOn "/").getLastD path

/-- The bands that a value asks for among some: one for a whole number, all where it is missing,
and otherwise what it is made of. -/
def askedBands (count : Nat) : Text.Literal → Except (Failure α) (List Text.Literal)
  | .missing => .ok ((List.range count).map fun (b : Nat) => .whole (b + 1))
  | .whole n => .ok [.whole n]
  | .flag b => .ok [.flag b]
  | .list items => .ok items
  | .text s => .ok (s.toList.map fun c => .text c.toString)
  | .record fields => .ok (fields.map fun (name, _) => .text name)
  | .decimal _ => .error .typeRejected

/-- A reader of the file at a path, by default of all its bands. -/
def open' (path : String) (stored : Stored α) (bands : Text.Literal)
    (safetyFactor : Text.Literal) (freeMemory : Nat) : Except (Failure α) (FileReader α) :=
  match stored with
  | .nothing => .error (.rasterMissing path)
  | .unreadable => .error (.openFailed path)
  | .unplaced => .error (.rasterWithoutCrs (fileName path))
  | .raster file => do
    return { path, file, bands := ← askedBands file.contents.bands bands, safetyFactor, freeMemory }

/-- A read of some pixels has to fit in memory. -/
def checkFits (r : FileReader α) (width height : Int) : Except (Failure α) Unit := do
  let check ← MemoryCheck.ofExtents r.freeMemory (.whole r.bands.length) (.whole width)
    (.whole height) r.file.contents.pixelType.size r.safetyFactor
  if check.fits then return () else .error .memoryExceeded

/-- Whether a value is the number of a band among some. -/
def isBand (count : Nat) : Text.Literal → Bool
  | .whole n => 1 ≤ n && n ≤ count
  | .flag b => b && 1 ≤ count
  | .decimal x => 1 ≤ x && x ≤ Scalar.ofInt count && x == Scalar.roundWhole x
  | _ => false

/-- The place of a band, counted from zero, if a number is given the way bands are numbered. -/
def bandPlace? : Text.Literal → Option Nat
  | .whole n => some (n - 1).toNat
  | .flag _ => some 0
  | _ => none

/-- The places of the chosen bands among some. There has to be one at least. -/
def places (r : FileReader α) : Except (Failure α) (List Nat) := do
  if r.bands.isEmpty then throw .valueRejected
  match r.bands.mapM bandPlace? with
  | some places => return places
  | none => throw .typeRejected

/-- The chosen bands have to be there. -/
def checkBands (r : FileReader α) (count : Nat) : Except (Failure α) Unit :=
  if r.bands.all (isBand count) then .ok () else .error .indexRejected

/-- The bands at some places of a raster from the file. -/
def choose (r : FileReader α) (source : Raster α) (places : List Nat) : Raster α :=
  let table := places.toArray
  { source with
    bands := places.length
    pixel := fun b row column => source.pixel (table.getD b 0) row column
    bandNames := r.file.namesOf places }

variable [Scalar α]

/-- The whole file. -/
def readAll (r : FileReader α) (source : Raster α) : Except (Failure α) (Raster α) := do
  r.checkFits source.columns source.rows
  r.checkBands source.bands
  return r.choose source (← r.places)

/-- The number of pixels at a requested resolution over some pixels of the file. -/
def countAt (pixels : Int) (native requested : α) : Except (Failure α) Int := do
  let coarser := Scalar.max requested native
  if coarser == 0 then .error .divisionByZero
  return max 1 (← Integral.round (Scalar.ofInt pixels * native / coarser))

/-- The pixels that meet a grid in the file's system, at its resolution or the file's own,
whichever is coarser. -/
def readNative (r : FileReader α) (file : RasterFile α) (g : Grid α)
    (resampling : ResamplingChoice) : Except (Failure α) (Option (Raster α)) := do
  let source := file.contents
  let overlap := g.envelope.intersection r.file.contents.envelope
  if overlap.isEmpty || overlap.width == 0 || overlap.height == 0 then return none
  let some rect ← Raster.coveredPixels? source.transform source.columns source.rows overlap
    | return none
  let width ← countAt rect.width (Scalar.abs source.transform.a) g.resolution.1
  let height ← countAt rect.height (Scalar.abs source.transform.e) g.resolution.2
  r.checkFits width height
  r.checkBands source.bands
  let method ← resampling.forReads
  let places ← r.places
  let merged := source.merged method file.overviews rect.column.toNat rect.row.toNat
    rect.width.toNat rect.height.toNat width.toNat height.toNat
  return some (r.choose merged places)

/-- The file warped onto a grid in another system. Where the file marks missing pixels, a read
that finds no others has no answer. -/
def readWarped (r : FileReader α) (atlas : Atlas α) (source : Raster α) (g : Grid α)
    (resampling : ResamplingChoice) : Except (Failure α) (Option (Raster α)) := do
  let g := g.normalized
  r.checkFits g.width g.height
  let _ ← resampling.forWarps (α := α)
  let warped ← source.warped atlas g
  let isMissing := Raster.isMissing warped.pixelType warped.nodata
  if warped.nodata.isSome && warped.pixels.all isMissing then return none
  r.checkBands warped.bands
  return some (r.choose warped (← r.places))

/-- The answer to a request, from what stands at the reader's path. -/
def read (r : FileReader α) (atlas : Atlas α) (stored : Stored α) (request : ReadRequest α) :
    Except (Failure α) (Option (Raster α)) := do
  let .raster file := stored | .error (.readFailed r.path)
  match request.grid with
  | none => some <$> r.readAll file.contents
  | some g =>
    if g.crs.same file.contents.crs then r.readNative file g request.resampling
    else r.readWarped atlas file.contents g request.resampling

/-- The reader as a source of coverages, given what stands at its path. -/
def toCoverageReader (r : FileReader α) (atlas : Atlas α) (stored : Stored α) :
    CoverageReader α where
  crs := r.file.contents.crs
  envelope := .ok r.file.contents.envelope
  levels := r.file.levels
  read := r.read atlas stored

end FileReader

end Antimeridian
