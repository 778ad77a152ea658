import Antimeridian.Coverage.Reader
import Antimeridian.Geometry.Area
import Antimeridian.Grid.Resolution
import Antimeridian.Rendering.Cut

/-!
# Reading coverages for a map

A map is a rectangle of pixels over an extent. The coverages that paint it are read one for each
query of a rendering request, at a resolution that matches the map, and each is cut to what the
request keeps of it. Reads that will be reprojected or interpolated are grown by a gutter.
-/

namespace Antimeridian

/-- The plan to read the coverages of a map. -/
structure CoveragePlan (α : Type) where
  /-- The source of the coverages. -/
  reader : CoverageReader α
  /-- The grid of the map, its gutter included. -/
  grid : Grid α
  /-- Whether the map and the data are in the same system. -/
  sameCrs : Bool
  /-- How values between pixels are found. -/
  resampling : Resampling
  /-- The number of pixels added on every side of a read that needs a gutter. -/
  padding : Int

namespace CoveragePlan

variable {α : Type} [Scalar α]

/-- The gutter of a read unless a caller asks for another. -/
def defaultPadding : Int := 10

/-- The name under which a grid is passed to a reader. -/
def gridParameter : String := "grid_geometry"

/-- Reads that are reprojected or interpolated need pixels beyond the edges of the map. -/
def needsGutter (sameCrs : Bool) (resampling : Resampling) : Bool :=
  !sameCrs || resampling ≠ .nearest

/-- The plan for a map of some pixels over an extent. -/
def make (reader : CoverageReader α) (area : PixelRect) (extent : Envelope α)
    (resampling : Resampling) (padding : Int) : Except (Failure α) (CoveragePlan α) := do
  let grid ← Grid.ofEnvelope extent area
  let sameCrs := Crs.same? extent.crs (some reader.crs)
  let grid ← if needsGutter sameCrs resampling then grid.withGutter padding else pure grid
  return { reader, grid, sameCrs, resampling, padding }

/-- Whether the reads of a plan are grown by its gutter. -/
def paddingRequired (p : CoveragePlan α) : Bool := needsGutter p.sameCrs p.resampling

/-- The extent that is read, its gutter included. -/
def readEnvelope (p : CoveragePlan α) : Envelope α := p.grid.envelope

/-! ## One read -/

/-- What callers ask of every read: a way to find values other than the plan's, and anything
else. -/
structure ReadOptions where
  resampling : Option ResamplingChoice := none
  others : List (String × Text.Literal) := []

/-- What is kept while coverages are read: the state of the rendering request, and what has been
asked of the reader so far. -/
structure Progress (α : Type) where
  rendering : Rendering.State α
  requests : List (ReadRequest α) := []

/-- Work on the coverages of a map. A failure keeps what has been asked before it. -/
abbrev Action (α : Type) := ExceptT (Failure α) (StateM (Progress α))

/-- Work on the rendering request as a part of reading. -/
def ofRendering {β : Type} (act : Rendering.Action α β) : Action α β := do
  let progress ← get
  let (result, rendering) := act.run progress.rendering
  set { progress with rendering }
  result

/-- Whether the data and a requested envelope share a point, compared in their common system or as
longitudes and latitudes. -/
def overlaps (atlas : Atlas α) (reader : CoverageReader α) (requested : Envelope α) :
    Except (Failure α) Bool := do
  let data ← reader.envelope
  if Crs.same? data.crs requested.crs then return data.intersects requested
  return (← data.transform atlas Crs.wgs84).intersects (← requested.transform atlas Crs.wgs84)

/-- The reader's answer on a grid. It is not asked where its data are known to lie elsewhere. -/
def readGrid (atlas : Atlas α) (p : CoveragePlan α) (options : ReadOptions) (g : Grid α) :
    Action α (Option (Raster α)) := do
  match overlaps atlas p.reader g.envelope with
  | .ok false => return none
  | _ =>
    let request : ReadRequest α :=
      { grid := some g, resampling := options.resampling.getD (.method p.resampling),
        others := options.others }
    modify fun progress => { progress with requests := progress.requests ++ [request] }
    p.reader.read request

/-- The coverage of the whole map in one read. -/
def readCoverage (atlas : Atlas α) (p : CoveragePlan α) (options : ReadOptions) :
    Action α (Option (Raster α)) := p.readGrid atlas options p.grid

/-! ## One read for each query -/

/-- The envelope of the largest part of a query that the rendering request keeps. -/
def reduce (setting : Setting α) (r : Rendering α) (query : Envelope α) :
    Action α (Option (Envelope α)) := do
  let outline := query.toPolygon
  let revision ← ofRendering (r.preProcess setting (some outline))
  return (Geometry.largest? (revision.applyTo outline).extractPolygons).map fun rings =>
    Envelope.ofGeometry (.polygon rings) query.crs

/-- The number of pixels of a size along an extent, at least one. -/
def pixelsAlong (extent size : α) : Except (Failure α) Int := do
  if size == 0 then .error .divisionByZero
  return max 1 (← Integral.round (extent / size))

/-- The grid in the data's system on which a query of another system is read: over the query, as
fine as the map is over the part of it that is kept. -/
def foreignGrid [PlanarLength α] (atlas : Atlas α) (p : CoveragePlan α)
    (query reduced : Envelope α) : Except (Failure α) (Option (Grid α)) := do
  let rect ← p.grid.pixelsOf (← reduced.transform atlas p.grid.crs)
  if rect.width ≤ 0 || rect.height ≤ 0 then return none
  let part ← Grid.make rect p.grid.transform (.ok p.grid.crs)
  let (x, y) ← part.readResolution atlas p.reader.crs p.reader.levels.head? Grid.defaultSamples
  let width ← pixelsAlong query.width x
  let height ← pixelsAlong query.height y
  return some (← Grid.ofEnvelope (query.withCrs (some p.reader.crs)) ⟨0, 0, width, height⟩)

/-- The grid, in the data's system, on which a query is read. In the map's own system it is the
part of the map's grid that covers the query. -/
def readingGrid [PlanarLength α] (setting : Setting α) (p : CoveragePlan α) (r : Rendering α)
    (query : Envelope α) : Action α (Option (Grid α)) := do
  if p.sameCrs then
    let rect ← p.grid.pixelsOf query
    if rect.width ≤ 0 || rect.height ≤ 0 then return none
    return some (← Grid.make rect p.grid.transform (.ok p.reader.crs))
  else
    match ← reduce setting r query with
    | none => return none
    | some reduced => p.foreignGrid setting.atlas query reduced

/-- A coverage cut to an envelope in a list, or nothing where the envelope has no area. -/
def cropTo (coverage : Raster α) (e : Envelope α) : Except (Failure α) (List (Raster α)) :=
  if e.hasArea then (fun cropped => [cropped]) <$> coverage.crop e else .ok []

/-- What the rendering request keeps of a coverage: all of it as far as it was asked for, or a
piece for each polygon that is left of its outline. -/
def keptParts (setting : Setting α) (reading : Envelope α) (coverage : Raster α)
    (outline processed : Geometry α) (kept : Bool) : Except (Failure α) (List (Raster α)) := do
  let e := coverage.envelope
  if kept || setting.overlay.sameArea processed outline then
    if reading.contains e then return [coverage]
    cropTo coverage (reading.intersection e)
  else
    let pieces ← processed.extractPolygons.mapM fun rings =>
      cropTo coverage
        (((Envelope.ofGeometry (.polygon rings) e.crs).intersection e).intersection reading)
    return pieces.flatten

/-- The coverages of one query. -/
def readQuery [PlanarLength α] (setting : Setting α) (p : CoveragePlan α)
    (options : ReadOptions) (r : Rendering α) (query : Envelope α) :
    Action α (List (Raster α)) := do
  let some reading ← p.readingGrid setting r query | return []
  let reading ← if p.paddingRequired then reading.withGutter p.padding else pure reading
  let some coverage ← p.readGrid setting.atlas options reading | return []
  let outline := coverage.envelope.toPolygon
  let revision ← ofRendering (r.preProcess setting (some outline))
  let processed := revision.applyTo outline
  if processed.isEmpty then return []
  let kept := match revision with
    | .kept => true
    | .replaced _ => false
  keptParts setting reading.envelope coverage outline processed kept

/-- The coverages of a map, in the order of the queries of a rendering request. Without a request
the map is read in one go. -/
def readCoverages [PlanarLength α] (setting : Setting α) (p : CoveragePlan α)
    (options : ReadOptions) (r : Option (Rendering α)) : Action α (List (Raster α)) := do
  match r with
  | none => return (← p.readCoverage setting.atlas options).toList
  | some r =>
    let queries ← ofRendering (r.queries setting)
    return (← queries.mapM (p.readQuery setting options r)).flatten

end CoveragePlan

end Antimeridian
