/-!
# The rational plane

Points with rational coordinates and the exact predicates on them. Every geometric decision of
the library about polygons is taken here, without rounding.
-/

namespace Antimeridian.Plane

/-- A point of the rational plane; also a direction. -/
structure Point where
  x : Rat
  y : Rat
  deriving DecidableEq

namespace Point

/-- The vector from one point to another. -/
def sub (p q : Point) : Point := ⟨p.x - q.x, p.y - q.y⟩

/-- The point halfway between two others. -/
def middle (p q : Point) : Point := ⟨(p.x + q.x) / 2, (p.y + q.y) / 2⟩

/-- Points are ordered by abscissa, then by ordinate. -/
def before (p q : Point) : Bool := p.x < q.x || (p.x == q.x && p.y < q.y)

/-- The direction a quarter turn to the left. -/
def left (d : Point) : Point := ⟨-d.y, d.x⟩

/-- The opposite direction. -/
def opposite (d : Point) : Point := ⟨-d.x, -d.y⟩

end Point

/-- The signed area of the parallelogram two vectors span. -/
def cross (d e : Point) : Rat := d.x * e.y - d.y * e.x

/-- The scalar product of two vectors. -/
def dot (d e : Point) : Rat := d.x * e.x + d.y * e.y

/-- Positive when `p` lies to the left of the line from `a` to `b`, zero when it lies on it. -/
def turn (a b p : Point) : Rat := cross (b.sub a) (p.sub a)

/-- A straight segment with a direction. -/
structure Segment where
  start : Point
  stop : Point
  deriving DecidableEq

namespace Segment

/-- The direction of a segment. -/
def direction (s : Segment) : Point := s.stop.sub s.start

/-- The same segment the other way. -/
def reverse (s : Segment) : Segment := ⟨s.stop, s.start⟩

/-- The segment in the direction in which its points ascend. -/
def ascending (s : Segment) : Segment := if s.start.before s.stop then s else s.reverse

/-- The least abscissa of a segment. -/
def minx (s : Segment) : Rat := if s.start.x ≤ s.stop.x then s.start.x else s.stop.x

/-- The greatest abscissa of a segment. -/
def maxx (s : Segment) : Rat := if s.start.x ≤ s.stop.x then s.stop.x else s.start.x

/-- The least ordinate of a segment. -/
def miny (s : Segment) : Rat := if s.start.y ≤ s.stop.y then s.start.y else s.stop.y

/-- The greatest ordinate of a segment. -/
def maxy (s : Segment) : Rat := if s.start.y ≤ s.stop.y then s.stop.y else s.start.y

/-- Whether a point lies on the segment, its ends included. -/
def holds (s : Segment) (p : Point) : Bool :=
  turn s.start s.stop p == 0
    && s.minx ≤ p.x && p.x ≤ s.maxx && s.miny ≤ p.y && p.y ≤ s.maxy

/-- Whether the bounding rectangles of two segments share a point. -/
def near (s t : Segment) : Bool :=
  s.minx ≤ t.maxx && t.minx ≤ s.maxx && s.miny ≤ t.maxy && t.miny ≤ s.maxy

/-- The points that two segments share: the crossing of their insides, and the ends of either
that lie on the other. -/
def meets (s t : Segment) : List Point :=
  if !s.near t then []
  else
    let d := s.direction
    let e := t.direction
    let a := turn s.start s.stop t.start
    let b := turn s.start s.stop t.stop
    let ends := [t.start, t.stop].filter s.holds ++ [s.start, s.stop].filter t.holds
    if a * b < 0 && turn t.start t.stop s.start * turn t.start t.stop s.stop < 0 then
      let k := cross (t.start.sub s.start) e / cross d e
      [⟨s.start.x + k * d.x, s.start.y + k * d.y⟩]
    else ends.eraseDups

end Segment

/-- The segments between consecutive points of an open chain, points that repeat their
predecessor left out. -/
def chain : List Point → List Segment
  | p :: q :: rest => if p = q then chain (q :: rest) else ⟨p, q⟩ :: chain (q :: rest)
  | _ => []

/-- The sign of a number perturbed by two infinitely small ones, the second far smaller: the
first of the three that is not zero. -/
def leading (a b c : Rat) : Rat := if a ≠ 0 then a else if b ≠ 0 then b else c

/-- A point moved by an infinitely small amount to the left of a direction and by a far smaller
one along it. No finite set of segments passes through it. -/
structure Probe where
  base : Point
  along : Point

namespace Probe

/-- The probe just left of the middle of a segment. -/
def leftOf (s : Segment) : Probe := ⟨s.start.middle s.stop, s.direction⟩

/-- The probe just right of the middle of a segment. -/
def rightOf (s : Segment) : Probe := leftOf s.reverse

/-- Whether the probe's abscissa exceeds a number. -/
def rightward (p : Probe) (x : Rat) : Bool :=
  0 < leading (p.base.x - x) p.along.left.x p.along.x

/-- Whether the probe's ordinate exceeds a number. -/
def above (p : Probe) (y : Rat) : Bool :=
  0 < leading (p.base.y - y) p.along.left.y p.along.y

/-- Whether the probe lies to the left of a line. -/
def leftOfLine (p : Probe) (a b : Point) : Bool :=
  let d := b.sub a
  0 < leading (turn a b p.base) (cross d p.along.left) (cross d p.along)

/-- Whether a ray from the probe to the east crosses a segment. -/
def crosses (p : Probe) (s : Segment) : Bool :=
  match p.above s.start.y, p.above s.stop.y with
  | true, false => p.leftOfLine s.start s.stop
  | false, true => p.leftOfLine s.stop s.start
  | _, _ => false

/-- Whether the probe lies inside the region that some closed rings bound together: inside an
odd number of them. -/
def within (p : Probe) (boundary : List Segment) : Bool :=
  (boundary.countP p.crosses) % 2 == 1

end Probe

end Antimeridian.Plane
