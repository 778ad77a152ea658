import Antimeridian.Envelope.Basic

/-!
# Failures

Everything that can go wrong, by cause. The text of a failure is a function of its cause, and
its kind sorts the causes by what a caller can do about them.
-/

namespace Antimeridian

/-- Why an operation failed. -/
inductive Failure (α : Type) where
  /-- A reference system is required and there is none. -/
  | crsMissing
  /-- A value, shown as it was given, names no reference system. -/
  | crsUnknown (shown : String)
  /-- A system stands on no geodetic frame. -/
  | frameMissing (crs : Crs)
  /-- No transform relates two systems. -/
  | unrelated (source target : Crs)
  /-- A point has no image. -/
  | unprojectable (source target : Crs)
  /-- A missing geometry has no envelope. -/
  | envelopeOfNothing
  /-- An envelope without a system cannot be transformed. -/
  | envelopeWithoutCrs
  /-- No point of an envelope's outline has an image. -/
  | imageless (envelope : Envelope α) (target : Crs)
  /-- No handler without a rendering envelope in some system. -/
  | renderingRequired
  /-- A handler's rendering envelope has no system. -/
  | renderingWithoutCrs
  /-- A handler's rendering envelope has no points. -/
  | renderingEmpty
  /-- A cap on the copies is negative. -/
  | negativeWraps (cap : Int)
  /-- The half period of a system has no finite length. -/
  | periodUnmeasured (crs : Crs)
  /-- A geometry is required and there is none. -/
  | geometryRequired
  /-- A geometry has no vertices. -/
  | geometryEmpty
  /-- A vertex list without vertices has no first or last one. -/
  | vertexMissing
  /-- A line needs two vertices. -/
  | lineTooShort
  /-- A ring needs four vertices, the closing one included. -/
  | ringTooShort
  /-- A ring has to end where it starts. -/
  | ringOpen
  /-- A multi geometry cannot hold an empty part. -/
  | partEmpty
  /-- A grid over an empty envelope has no pixels. -/
  | gridOverNothing
  /-- A grid needs a positive number of columns and rows. -/
  | gridSize (width height : Int)
  /-- A grid of numbers with fractions, shown as they are, needs positive ones. -/
  | gridSizeShown (width height : String)
  /-- A determinant is zero. -/
  | notInvertible
  /-- A quotient by zero. -/
  | divisionByZero
  /-- A number too large for the integer asked for. -/
  | overflow
  /-- A value that cannot be read as asked. -/
  | valueRejected
  /-- A value of the wrong type. -/
  | typeRejected
  /-- An index beyond the end. -/
  | indexRejected
  /-- A crop area misses the raster. -/
  | noOverlap (area raster : Envelope α)
  /-- Pixels in a shape other than bands of rows. -/
  | dataShape (shape : List Nat)
  /-- A raster cannot be written. -/
  | saveFailed (path : String)
  /-- A raster file does not exist. -/
  | rasterMissing (path : String)
  /-- A raster file is not readable as one. -/
  | openFailed (path : String)
  /-- A raster file stopped being readable. -/
  | readFailed (path : String)
  /-- A raster file carries no system. -/
  | rasterWithoutCrs (file : String)
  /-- A read larger than the memory at hand. -/
  | memoryExceeded
  /-- More than one overview of a single pixel. -/
  | overviewRejected
  /-- An overview by a factor that is not positive. -/
  | factorRejected
  /-- A way to find values that reads cannot use. -/
  | resamplingRejected
  /-- A vector file does not exist. -/
  | layerMissing (path : String)
  /-- A layer carries no system. -/
  | layerWithoutCrs
  /-- A vector file carries no system. -/
  | layerFileWithoutCrs (path : String)
  deriving Inhabited

/-- What sort of thing went wrong. -/
inductive FailureKind where
  | invalidInput
  | projection
  | rasterFile
  | rasterValidation
  | missingFile
  | value
  | type
  | index
  | overflow
  | divisionByZero
  | memory
  | notInvertible
  | geometry
  | emptyPart
  | overview
  | argument
  | resampling
  deriving DecidableEq

/-- The classes of failures that a caller can tell apart, each within a broader one except the
broadest. -/
inductive FailureClass where
  | any
  | invalidInput
  | projection
  | raster
  | rasterFile
  | rasterValidation
  deriving DecidableEq

namespace FailureClass

/-- Every class. -/
def all : List FailureClass :=
  [any, invalidInput, projection, raster, rasterFile, rasterValidation]

/-- The next broader class. -/
def broader? : FailureClass → Option FailureClass
  | any => none
  | invalidInput | projection | raster => some any
  | rasterFile | rasterValidation => some raster

/-- Whether every failure of a class is one of another. -/
def isWithin (c other : FailureClass) : Bool :=
  c == other || c.broader? == some other || (c.broader?.bind broader?) == some other

end FailureClass

/-- The narrowest class of a kind. Kinds that any program can fail with have none. -/
def FailureKind.class? : FailureKind → Option FailureClass
  | invalidInput => some .invalidInput
  | projection => some .projection
  | rasterFile => some .rasterFile
  | rasterValidation => some .rasterValidation
  | _ => none

namespace Failure

variable {α : Type}

/-- The kind of a failure. -/
def kind : Failure α → FailureKind
  | crsUnknown _ | frameMissing _ | unrelated .. | unprojectable .. | imageless ..
  | periodUnmeasured _ => .projection
  | crsMissing | envelopeOfNothing | envelopeWithoutCrs | renderingRequired
  | renderingWithoutCrs | renderingEmpty | negativeWraps _ | geometryRequired | geometryEmpty
  | gridOverNothing | gridSize .. | gridSizeShown .. | noOverlap .. | layerWithoutCrs
  | layerFileWithoutCrs _ => .invalidInput
  | saveFailed _ | openFailed _ | readFailed _ | rasterWithoutCrs _ => .rasterFile
  | dataShape _ => .rasterValidation
  | rasterMissing _ | layerMissing _ => .missingFile
  | valueRejected | ringTooShort => .value
  | typeRejected => .type
  | vertexMissing | indexRejected => .index
  | Failure.overflow => .overflow
  | Failure.divisionByZero => .divisionByZero
  | memoryExceeded => .memory
  | Failure.notInvertible => .notInvertible
  | lineTooShort | ringOpen => .geometry
  | partEmpty => .emptyPart
  | overviewRejected => .overview
  | factorRejected => .argument
  | resamplingRejected => .resampling

end Failure

/-- A system that is required. -/
def Crs.required {α : Type} : Option Crs → Except (Failure α) Crs
  | some crs => .ok crs
  | none => .error .crsMissing

/-- The text of an envelope: its bounds and the text of its system. -/
def Envelope.describe {α : Type} (number : α → String) (e : Envelope α) : String :=
  "Envelope(" ++ ", ".intercalate [number e.minx, number e.miny, number e.maxx, number e.maxy]
    ++ ", crs=" ++ (e.crs.map (·.text)).getD "None" ++ ")"

/-- The text of a shape: its extents in parentheses, with a comma after a single one. -/
def describeShape (shape : List Nat) : String :=
  "(" ++ ", ".intercalate (shape.map toString) ++ (if shape.length = 1 then ",)" else ")")

/-- The text of a failure, given the text of a scalar. Failures that carry no text of their own
have none. -/
def Failure.message {α : Type} (number : α → String) : Failure α → Option String
  | crsMissing => some "A coordinate reference system is required"
  | crsUnknown shown => some s!"Cannot interpret {shown} as a CRS"
  | frameMissing crs => some s!"{crs.name} has no geodetic base CRS"
  | unrelated source target => some s!"No transform from {source.name} to {target.name}"
  | unprojectable source target => some s!"Transform {source.name} -> {target.name} failed"
  | envelopeOfNothing => some "Cannot compute the envelope of a missing geometry"
  | envelopeWithoutCrs => some "Cannot transform an envelope without a CRS"
  | imageless envelope target =>
    some (envelope.describe number ++ " has no image in " ++ target.name)
  | renderingRequired => some "A rendering envelope with a CRS is required"
  | renderingWithoutCrs => some "The rendering envelope must carry a CRS"
  | renderingEmpty => some "The rendering envelope is empty"
  | negativeWraps cap => some s!"max_wraps cannot be negative, got {cap}"
  | periodUnmeasured crs => some s!"Cannot measure the half period of {crs.name}"
  | geometryRequired => some "A geometry is required"
  | geometryEmpty => some "Cannot process an empty geometry"
  | gridOverNothing => some "Cannot build a grid over an empty envelope"
  | gridSize width height => some s!"Grid must have a positive size, got {width}x{height}"
  | gridSizeShown width height =>
    some s!"Grid must have a positive size, got {width}x{height}"
  | noOverlap area raster =>
    some (area.describe number ++ " does not overlap the raster " ++ raster.describe number)
  | dataShape shape => some ("Data must be 2D or 3D, got shape " ++ describeShape shape)
  | saveFailed path => some s!"Failed to save {path}"
  | rasterMissing path => some s!"Raster file not found: {path}"
  | openFailed path => some s!"Failed to open {path}"
  | readFailed path => some s!"Failed to read {path}"
  | rasterWithoutCrs file => some s!"{file} has no CRS"
  | layerMissing path => some s!"Vector file not found: {path}"
  | layerWithoutCrs => some "Vector has no CRS. Cannot reproject."
  | layerFileWithoutCrs path => some s!"{path} has no CRS. Cannot reproject."
  | vertexMissing | lineTooShort | ringOpen | ringTooShort | partEmpty | notInvertible
  | divisionByZero | overflow | valueRejected | typeRejected | indexRejected | memoryExceeded
  | overviewRejected | factorRejected | resamplingRejected => none

end Antimeridian
