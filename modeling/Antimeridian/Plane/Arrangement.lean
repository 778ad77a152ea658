import Antimeridian.Plane.Basic

/-!
# Arrangements of segments

Segments are cut wherever they meet, so that afterwards two pieces share at most an end. A region
is then known by what lies on each side of each piece, and pieces with the region on one side
only bound it.
-/

namespace Antimeridian.Plane

/-- The points sorted along a direction, repetitions removed. -/
def sortAlong (d : Point) (ps : List Point) : List Point :=
  (ps.mergeSort fun p q => dot d p ≤ dot d q).eraseDups

/-- The pieces of a segment between the points where it meets others. -/
def Segment.cut (s : Segment) (others : List Segment) : List Segment :=
  let cuts := others.flatMap s.meets
  chain (sortAlong s.direction (s.start :: s.stop :: cuts))

/-- The pieces of a list of segments cut at one another and at some further segments, each once
and ascending. -/
def pieces (segments further : List Segment) : List Segment :=
  let all := segments ++ further
  ((segments.flatMap (·.cut all)).map Segment.ascending).eraseDups

/-- A rectangle of the rational plane. -/
structure Rectangle where
  minx : Rat
  miny : Rat
  maxx : Rat
  maxy : Rat

namespace Rectangle

/-- The corners of a rectangle, counter-clockwise from the south-east one and back to it. -/
def corners (r : Rectangle) : List Point :=
  [⟨r.maxx, r.miny⟩, ⟨r.maxx, r.maxy⟩, ⟨r.minx, r.maxy⟩, ⟨r.minx, r.miny⟩, ⟨r.maxx, r.miny⟩]

/-- Whether a probe lies in the rectangle. -/
def hasProbe (r : Rectangle) (p : Probe) : Bool :=
  p.rightward r.minx && !p.rightward r.maxx && p.above r.miny && !p.above r.maxy

/-- Whether a point lies in the rectangle, its edges included. -/
def hasPoint (r : Rectangle) (p : Point) : Bool :=
  r.minx ≤ p.x && p.x ≤ r.maxx && r.miny ≤ p.y && p.y ≤ r.maxy

end Rectangle

/-- A region known by the probes it holds, with pieces that include its boundary. -/
structure Region where
  /-- Segments that include the boundary of the region. -/
  edges : List Segment
  /-- The points where the rings of the boundary start. -/
  starts : List Point
  /-- Whether a probe lies in the region. -/
  has : Probe → Bool

/-- The region between closed rings: the points inside an odd number of them. -/
def Region.ofRings (rings : List (List Point)) : Region :=
  let edges := rings.flatMap chain
  { edges, starts := rings.filterMap List.head?, has := (·.within edges) }

/-- Whether a piece has a region on exactly one of its sides. -/
def Region.bounds (r : Region) (s : Segment) : Bool :=
  r.has (Probe.leftOf s) != r.has (Probe.rightOf s)

/-- The region that some rectangles cover, with its boundary cut where the rectangles meet. -/
def Region.ofRectangles (rectangles : List Rectangle) : Region :=
  let has (p : Probe) := rectangles.any (·.hasProbe p)
  let all := pieces (rectangles.flatMap fun r => chain r.corners) []
  { edges := all.filter fun s => has (Probe.leftOf s) != has (Probe.rightOf s)
    starts := rectangles.map fun r => ⟨r.maxx, r.miny⟩
    has }

end Antimeridian.Plane
