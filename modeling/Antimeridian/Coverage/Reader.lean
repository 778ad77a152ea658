import Antimeridian.Raster.Resample
import Antimeridian.Text.Literal

/-!
# Coverage readers

A coverage is raster data that can be read on any grid. A reader answers a request with a raster,
or with none where the request and the data share nothing.
-/

namespace Antimeridian

/-- How values between pixels are asked for: by a method, or by what a caller passed instead of one.
-/
inductive ResamplingChoice where
  | method (m : Resampling)
  | other (value : Text.Literal)

namespace ResamplingChoice

variable {α : Type}

/-- The method of a number, if there is one. -/
def numbered? (n : Int) : Option Resampling :=
  if n < 0 then none else Resampling.all[n.toNat]?

/-- The method that a value passed instead of one stands for. -/
def resolved : ResamplingChoice → Except (Failure α) Resampling
  | method m => .ok m
  | other (.flag b) => .ok (if b then .bilinear else .nearest)
  | other (.whole n) =>
    match numbered? n with
    | some m => .ok m
    | none => .error .valueRejected
  | other _ => .error .typeRejected

/-- The method of a read in the system of the pixels. -/
def forReads (choice : ResamplingChoice) : Except (Failure α) Resampling := do
  let m ← choice.resolved
  if m.isForReads then return m else .error .resamplingRejected

/-- The method of a read in another system. -/
def forWarps (choice : ResamplingChoice) : Except (Failure α) Resampling :=
  match (choice.resolved : Except (Failure α) Resampling) with
  | .ok m => if m.isForWarps then .ok m else .error .valueRejected
  | .error _ => .error .valueRejected

end ResamplingChoice

/-- What is asked of a reader. -/
structure ReadRequest (α : Type) where
  /-- The grid to read on, none for the whole coverage. -/
  grid : Option (Grid α)
  /-- How values between pixels are found. -/
  resampling : ResamplingChoice
  /-- What else a caller passed on. -/
  others : List (String × Text.Literal) := []

/-- A source of raster data. -/
structure CoverageReader (α : Type) where
  /-- The system of the data. -/
  crs : Crs
  /-- The extent of the data. -/
  envelope : Except (Failure α) (Envelope α)
  /-- The resolutions the data are kept in, finest first, where they are known. -/
  levels : List (α × α)
  /-- The answer to a request. -/
  read : ReadRequest α → Except (Failure α) (Option (Raster α))

end Antimeridian
