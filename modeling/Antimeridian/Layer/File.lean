import Antimeridian.Failure
import Antimeridian.Layer.Storage
import Antimeridian.Plane.Overlay

/-!
# Layer files

The whole of a file is read, or the features that meet a box. The corners of the box can be given in
any order.
-/

namespace Antimeridian

namespace Layer

variable {α : Type}

/-- The file at a path, where there is one. -/
def require (path : String) (file : Option (Layer α)) : Except (Failure α) (Layer α) :=
  match file with
  | some l => .ok l
  | none => .error (.layerMissing path)

/-- The box with the lower bound first on each axis. -/
def orderedBox [Scalar α] (box : Envelope α) : Envelope α :=
  let (west, east) := if box.maxx < box.minx then (box.maxx, box.minx) else (box.minx, box.maxx)
  let (south, north) := if box.maxy < box.miny then (box.maxy, box.miny) else (box.miny, box.maxy)
  ⟨west, south, east, north, box.crs⟩

/-- Whether a feature meets a box. One without a geometry meets none. -/
def meets (overlay : Overlay α) (box : Envelope α) (f : Feature α) : Bool :=
  (f.geometry.map (overlay.meets · box)).getD false

/-- The positions of the features of a layer that meet a box. -/
def positionsWithin (overlay : Overlay α) (l : Layer α) (box : Envelope α) : List Nat :=
  (l.features.zipIdx.filter fun (f, _) => meets overlay box f).map (·.2)

/-- The layer read from a file, or what of it meets a box. The rows read are numbered anew. -/
def load [Scalar α] (overlay : Overlay α) (path : String) (file : Option (Layer α))
    (box : Option (Envelope α)) : Except (Failure α) (Layer α) := do
  let l ← require path file
  match box with
  | none => return l
  | some box =>
    let box := orderedBox box
    return { l with features := relabel (l.features.filter (meets overlay box)) }

/-- The system of a file. -/
def readCrs (path : String) (file : Option (Layer α)) : Except (Failure α) (Option Crs) :=
  (·.crs) <$> require path file

end Layer

end Antimeridian
