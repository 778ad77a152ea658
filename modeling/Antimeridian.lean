import Antimeridian.Coverage.FileReader
import Antimeridian.Coverage.Plan
import Antimeridian.Coverage.Reader
import Antimeridian.Crs.Basic
import Antimeridian.Crs.Family
import Antimeridian.Crs.Reference
import Antimeridian.Crs.Registry
import Antimeridian.Decimal.Layout
import Antimeridian.Decimal.Reading
import Antimeridian.Decimal.Rounding
import Antimeridian.Decimal.Shortest
import Antimeridian.Document.Envelope
import Antimeridian.Document.Geometry
import Antimeridian.Document.Number
import Antimeridian.Envelope.Basic
import Antimeridian.Envelope.Reproject
import Antimeridian.Envelope.Split
import Antimeridian.Failure
import Antimeridian.Geometry.Area
import Antimeridian.Geometry.Basic
import Antimeridian.Geometry.Canonical
import Antimeridian.Geometry.Checked
import Antimeridian.Geometry.Parts
import Antimeridian.Geometry.Unwrap
import Antimeridian.Grid.Affine
import Antimeridian.Grid.Basic
import Antimeridian.Grid.Fractional
import Antimeridian.Grid.Resolution
import Antimeridian.Integral
import Antimeridian.Layer.Basic
import Antimeridian.Layer.File
import Antimeridian.Layer.Rendering
import Antimeridian.Layer.Storage
import Antimeridian.Longitude
import Antimeridian.Plane.Arrangement
import Antimeridian.Plane.Basic
import Antimeridian.Plane.Clip
import Antimeridian.Plane.Meeting
import Antimeridian.Plane.Overlay
import Antimeridian.Plane.Repair
import Antimeridian.Plane.Ring
import Antimeridian.Plane.Validity
import Antimeridian.Projection.Azimuthal
import Antimeridian.Projection.ConformalSphere
import Antimeridian.Projection.Conic
import Antimeridian.Projection.Cylindrical
import Antimeridian.Projection.Earth
import Antimeridian.Projection.Globe
import Antimeridian.Projection.ObliqueMercator
import Antimeridian.Projection.Placement
import Antimeridian.Projection.Robinson
import Antimeridian.Projection.Series
import Antimeridian.Projection.Stereographic
import Antimeridian.Projection.TransverseMercator
import Antimeridian.Projection.World
import Antimeridian.Raster.Basic
import Antimeridian.Raster.Crop
import Antimeridian.Raster.File
import Antimeridian.Raster.Memory
import Antimeridian.Raster.Merge
import Antimeridian.Raster.Overview
import Antimeridian.Raster.Pixel
import Antimeridian.Raster.PixelName
import Antimeridian.Raster.Resample
import Antimeridian.Raster.Stretch
import Antimeridian.Release
import Antimeridian.Rendering.Basic
import Antimeridian.Rendering.Copies
import Antimeridian.Rendering.Cut
import Antimeridian.Rendering.Queries
import Antimeridian.Scalar
import Antimeridian.Scalar.Binary64
import Antimeridian.Scalar.Sum
import Antimeridian.Text.Digits
import Antimeridian.Text.Json
import Antimeridian.Text.Literal
import Antimeridian.Text.Printable
import Antimeridian.Transform.Basic
import Antimeridian.Proofs.Scalar.Extended
import Antimeridian.Proofs.Scalar.Order
import Antimeridian.Proofs.Scalar.Summation
import Antimeridian.Proofs.Envelope.PointSets
import Antimeridian.Proofs.Longitude.Normalizing
import Antimeridian.Proofs.Transform.Preserving
import Antimeridian.Proofs.Crs.Horizontal
import Antimeridian.Proofs.Transform.Inverting
import Antimeridian.Proofs.Envelope.Image
import Antimeridian.Proofs.Envelope.Unfolding
import Antimeridian.Proofs.Envelope.Bounding
import Antimeridian.Proofs.Envelope.Rectilinear
import Antimeridian.Proofs.Envelope.Turning
import Antimeridian.Proofs.Geometry.Map
import Antimeridian.Proofs.Geometry.Bounds
import Antimeridian.Proofs.Geometry.Painted
import Antimeridian.Proofs.Geometry.Gathering
import Antimeridian.Proofs.Geometry.Jumps
import Antimeridian.Proofs.Geometry.Folding
import Antimeridian.Proofs.Envelope.Exact
import Antimeridian.Proofs.Envelope.Offsets
import Antimeridian.Proofs.Envelope.Pieces
import Antimeridian.Proofs.Rendering.Outcome
import Antimeridian.Proofs.Rendering.Invariant
import Antimeridian.Proofs.Rendering.Request
import Antimeridian.Proofs.Rendering.Replication
import Antimeridian.Proofs.Rendering.Stitching
import Antimeridian.Proofs.Rendering.Thinning
import Antimeridian.Proofs.Rendering.Planning
import Antimeridian.Proofs.Rendering.Cutting
import Antimeridian.Proofs.Rendering.Painting
import Antimeridian.Proofs.Envelope.Splitting
import Antimeridian.Proofs.Geometry.Multipart
import Antimeridian.Proofs.Rendering.Parts
import Antimeridian.Proofs.Geometry.Winding
import Antimeridian.Proofs.Geometry.PoleSides
import Antimeridian.Proofs.Geometry.Retracing
import Antimeridian.Proofs.Geometry.Unwrapping
import Antimeridian.Proofs.Rendering.DatumShift
import Antimeridian.Proofs.Rendering.Shortcut
import Antimeridian.Proofs.Rendering.Retracing
import Antimeridian.Proofs.Rendering.ValidArea
import Antimeridian.Proofs.Envelope.Clamping
import Antimeridian.Proofs.Rendering.Visibility
import Antimeridian.Proofs.Rendering.Cylindrical
import Antimeridian.Proofs.Rendering.Counting
import Antimeridian.Proofs.Rendering.Sessions
import Antimeridian.Proofs.Layer.Finding
import Antimeridian.Proofs.Layer.Loading
import Antimeridian.Proofs.Envelope.Depth
import Antimeridian.Proofs.Grid.NorthUp
import Antimeridian.Proofs.Raster.Cropping
import Antimeridian.Proofs.Raster.Windows
import Antimeridian.Proofs.Coverage.NativeReads
import Antimeridian.Proofs.Coverage.Footprint
import Antimeridian.Proofs.Coverage.Outcome
import Antimeridian.Proofs.Coverage.Completeness
import Antimeridian.Proofs.Coverage.FastReject
import Antimeridian.Proofs.Coverage.Handout
import Antimeridian.Proofs.Rendering.Skipping
import Antimeridian.Proofs.Rendering.Confining
import Antimeridian.Proofs.Grid.Frames
import Antimeridian.Proofs.Raster.Centres
import Antimeridian.Proofs.Raster.Composing
import Antimeridian.Proofs.Grid.Covering
import Antimeridian.Proofs.Grid.Renumbering
import Antimeridian.Proofs.Grid.Sampling
import Antimeridian.Proofs.Coverage.Queries
import Antimeridian.Proofs.Coverage.WholeMap
import Antimeridian.Proofs.Raster.Slivers
import Antimeridian.Proofs.Coverage.Slivers
import Antimeridian.Proofs.Geometry.Flattening
import Antimeridian.Proofs.Geometry.EmptyMembers
import Antimeridian.Proofs.Raster.Snapping
import Antimeridian.Proofs.Coverage.Decimating
