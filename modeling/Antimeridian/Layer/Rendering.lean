import Antimeridian.Layer.File
import Antimeridian.Rendering.Copies

/-!
# Rendering layers

Every feature of a layer goes through one rendering request: its geometry is cut, reprojected and
copied, and the features of which nothing is visible are dropped. From a file only the features
that the request queries are read.
-/

namespace Antimeridian.Layer

variable {α : Type} [Scalar α]

/-- The feature as it is rendered, or none when nothing of it is visible. -/
def renderFeature (setting : Setting α) (r : Rendering α) (t : Transform α) (f : Feature α) :
    Rendering.Action α (Option (Feature α)) := do
  match ← r.render setting t f.geometry with
  | none => return none
  | some g => return some { f with geometry := some g }

/-- The visible features of a layer in the system of a rendering area. The others keep their
labels and attributes. -/
def project (setting : Setting α) (l : Layer α) (area : Envelope α) (wrap : Bool) (cap : Int) :
    Except (Failure α) (Layer α) := do
  let some source := l.crs | .error .layerWithoutCrs
  let target := (← Crs.required area.crs).horizontal
  let some (r, state) ← Rendering.find setting (some area) (.ok (some source)) wrap cap
    | .error .renderingRequired
  let t := r.renderingTransform (← setting.atlas.find source target)
  let (rendered, _) := (l.features.mapM (renderFeature setting r t)).run state
  return { l with crs := some target, features := (← rendered).filterMap id }

/-- The features of a file that some queries find, each of them once, in the order of the queries
and then of the file. Where they find none, the columns are not read either. -/
def gather (overlay : Overlay α) (file : Layer α) (queries : List (Envelope α)) : Layer α :=
  match (queries.flatMap (file.positionsWithin overlay)).eraseDups with
  | [] =>
    { crs := file.crs, attributeColumns := [], geometryColumn := fileGeometryColumn,
      features := [] }
  | found => { file with features := found.filterMap (file.features[·]?) }

/-- The visible features of a layer file in the system of a rendering area. -/
def loadForRendering (setting : Setting α) (path : String) (file : Option (Layer α))
    (area : Envelope α) (wrap : Bool) (cap : Int) : Except (Failure α) (Layer α) := do
  let l ← require path file
  let some source := l.crs | .error (.layerFileWithoutCrs path)
  let some (r, state) ← Rendering.find setting (some area) (.ok (some source)) wrap cap
    | .error .renderingRequired
  let queries ← ((r.queries setting).run state).1
  project setting (gather setting.overlay l queries) area wrap cap

end Antimeridian.Layer
