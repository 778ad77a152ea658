import Antimeridian.Crs.Basic
import Antimeridian.Geometry.Basic

/-!
# Envelopes

An envelope is an axis aligned rectangle, with the reference system of its coordinates where it
has one. It stands for the points between its bounds, the edges included, so an envelope whose
minimum exceeds its maximum on an axis is empty, and so is one with a bound that is not a number.
-/

namespace Antimeridian

/-- An axis aligned rectangle. -/
structure Envelope (α : Type) where
  minx : α
  miny : α
  maxx : α
  maxy : α
  crs : Option Crs := none

namespace Envelope

variable {α : Type} [Scalar α]

/-- The envelope without points: its minimum exceeds every maximum. -/
def empty (crs : Option Crs) : Envelope α :=
  ⟨Scalar.infinity, Scalar.infinity, -Scalar.infinity, -Scalar.infinity, crs⟩

/-- The bounding envelope of a geometry. -/
def ofGeometry (g : Geometry α) (crs : Option Crs) : Envelope α :=
  match g.bounds? with
  | none => empty crs
  | some (minx, miny, maxx, maxy) => ⟨minx, miny, maxx, maxy, crs⟩

/-! ## Measures -/

/-- Whether no point lies between the bounds. -/
def isEmpty (e : Envelope α) : Bool := !(e.minx ≤ e.maxx && e.miny ≤ e.maxy)

/-- The extent along the horizontal axis. -/
def width (e : Envelope α) : α := if e.isEmpty then 0 else e.maxx - e.minx

/-- The extent along the vertical axis. -/
def height (e : Envelope α) : α := if e.isEmpty then 0 else e.maxy - e.miny

/-- The point halfway between the bounds. -/
def center (e : Envelope α) : α × α := ((e.minx + e.maxx) / 2, (e.miny + e.maxy) / 2)

/-- Whether the envelope has an area. -/
def hasArea (e : Envelope α) : Bool := !e.isEmpty && 0 < e.width && 0 < e.height

/-! ## Relations -/

/-- Whether a point lies in the envelope or on its edges. -/
def covers (e : Envelope α) (x y : α) : Bool :=
  e.minx ≤ x && x ≤ e.maxx && e.miny ≤ y && y ≤ e.maxy

/-- Whether a point lies in a non-empty envelope. -/
def containsPoint (e : Envelope α) (x y : α) : Bool := !e.isEmpty && e.covers x y

/-- Whether two envelopes share a point. Touching envelopes do. -/
def intersects (e other : Envelope α) : Bool :=
  !e.isEmpty && !other.isEmpty
    && e.minx ≤ other.maxx && other.minx ≤ e.maxx
    && e.miny ≤ other.maxy && other.miny ≤ e.maxy

/-- Whether a non-empty envelope lies in another. -/
def contains (e other : Envelope α) : Bool :=
  !e.isEmpty && !other.isEmpty
    && e.minx ≤ other.minx && other.maxx ≤ e.maxx
    && e.miny ≤ other.miny && other.maxy ≤ e.maxy

/-- Equal bounds and equal systems. -/
def equals (e other : Envelope α) : Bool :=
  e.minx == other.minx && e.miny == other.miny && e.maxx == other.maxx && e.maxy == other.maxy
    && e.crs == other.crs

/-! ## Derived envelopes -/

/-- The points that two envelopes share, in the system of the first. -/
def intersection (e other : Envelope α) : Envelope α :=
  if e.intersects other then
    ⟨Scalar.max e.minx other.minx, Scalar.max e.miny other.miny,
      Scalar.min e.maxx other.maxx, Scalar.min e.maxy other.maxy, e.crs⟩
  else empty e.crs

/-- The smallest envelope around two others, in the system of the first that has one. -/
def union (e other : Envelope α) : Envelope α :=
  if e.isEmpty then { other with crs := e.crs.or other.crs }
  else if other.isEmpty then e
  else
    ⟨Scalar.min e.minx other.minx, Scalar.min e.miny other.miny,
      Scalar.max e.maxx other.maxx, Scalar.max e.maxy other.maxy, e.crs⟩

/-- The envelope moved by a vector. The empty envelope stays where it is. -/
def translate (e : Envelope α) (dx dy : α) : Envelope α :=
  if e.isEmpty then e else ⟨e.minx + dx, e.miny + dy, e.maxx + dx, e.maxy + dy, e.crs⟩

/-- The envelope moved along the horizontal axis. -/
def shift (e : Envelope α) (dx : α) : Envelope α := e.translate dx 0

/-- The envelope grown on both sides of each axis. The empty envelope does not grow. -/
def expandBy (e : Envelope α) (dx dy : α) : Envelope α :=
  if e.isEmpty then e else ⟨e.minx - dx, e.miny - dy, e.maxx + dx, e.maxy + dy, e.crs⟩

/-- The same coordinates in another system. -/
def withCrs (e : Envelope α) (crs : Option Crs) : Envelope α := { e with crs }

/-- The outline as a polygon, from the south-east corner counter-clockwise. -/
def toPolygon (e : Envelope α) : Geometry α :=
  if e.isEmpty then .polygon []
  else
    .polygon [Geometry.closed
      [{ x := e.maxx, y := e.miny }, { x := e.maxx, y := e.maxy },
        { x := e.minx, y := e.maxy }, { x := e.minx, y := e.miny }]]

end Envelope

end Antimeridian
