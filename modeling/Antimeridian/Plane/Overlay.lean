import Antimeridian.Envelope.Basic
import Antimeridian.Plane.Meeting
import Antimeridian.Plane.Validity
import Antimeridian.Scalar.Binary64

/-!
# Overlays

The operations on areas that planning and cutting need, over any scalars: whether a polygon is
valid, what a geometry shares with some rectangles, whether two geometries cover the same area,
and whether a geometry reaches a rectangle. Over the rationals they are exact. Over doubles the
coordinates are taken at their exact values and only those of the answer are rounded.
-/

namespace Antimeridian

/-- Operations on areas. -/
structure Overlay (α : Type) where
  /-- Whether rings, the shell first, make a valid polygon. -/
  isValidPolygon : List (List (Vertex α)) → Bool
  /-- The part of a geometry in the union of some rectangles. -/
  clip : Geometry α → List (Envelope α) → Geometry α
  /-- Whether two geometries are the same area. -/
  sameArea : Geometry α → Geometry α → Bool
  /-- Whether a geometry and a closed rectangle share a point. -/
  meets : Geometry α → Envelope α → Bool

namespace Overlay

/-- The rings of a geometry that is an area. -/
def areaRings? {α : Type} : Geometry α → Option (List (List (Vertex α)))
  | .polygon rings => some rings
  | .polygons parts => some parts.flatten
  | _ => none

/-- A list of vertices as points. -/
def pointsOf (vs : List (Vertex Rat)) : List Plane.Point := vs.map Plane.pointOf

/-- An envelope as a rectangle. -/
def rectangleOf (e : Envelope Rat) : Plane.Rectangle := ⟨e.minx, e.miny, e.maxx, e.maxy⟩

/-- Exact operations on areas. -/
def rational : Overlay Rat where
  isValidPolygon rings := Plane.isValidPolygon (rings.map pointsOf)
  clip g envelopes := Plane.clip g (envelopes.map rectangleOf)
  sameArea g h :=
    match areaRings? g, areaRings? h with
    | some a, some b => Plane.sameRegion (a.map pointsOf) (b.map pointsOf)
    | _, _ => false
  meets g e := e.minx ≤ e.maxx && e.miny ≤ e.maxy && (rectangleOf e).meets g

/-- An envelope with every bound replaced. -/
def convertEnvelope {α β : Type} (f : α → β) (e : Envelope α) : Envelope β :=
  ⟨f e.minx, f e.miny, f e.maxx, f e.maxy, e.crs⟩

/-- Operations on areas with binary64 coordinates. -/
def binary64 : Overlay Float where
  isValidPolygon rings :=
    rational.isValidPolygon (rings.map (·.map (·.convert Binary64.toRat)))
  clip g envelopes :=
    (rational.clip (g.convert Binary64.toRat)
      (envelopes.map (convertEnvelope Binary64.toRat))).convert Binary64.ofRat
  sameArea g h := rational.sameArea (g.convert Binary64.toRat) (h.convert Binary64.toRat)
  meets g e :=
    !e.isEmpty && rational.meets (g.convert Binary64.toRat) (convertEnvelope Binary64.toRat e)

end Overlay

end Antimeridian
