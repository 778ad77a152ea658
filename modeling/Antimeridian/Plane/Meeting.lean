import Antimeridian.Plane.Clip

/-!
# Meeting a rectangle

Whether a geometry and a closed rectangle share a point. The rectangle may be a segment or a
single point.
-/

namespace Antimeridian.Plane

/-- Whether the bounds of a segment and of a rectangle share a point. -/
def Rectangle.near (r : Rectangle) (s : Segment) : Bool :=
  s.minx ≤ r.maxx && r.minx ≤ s.maxx && s.miny ≤ r.maxy && r.miny ≤ s.maxy

/-- Whether a segment meets a rectangle: their bounds do, and the corners of the rectangle are not
all on one side of the segment's line. -/
def Rectangle.meetsSegment (r : Rectangle) (s : Segment) : Bool :=
  let sides := r.corners.map (turn s.start s.stop)
  r.near s && !sides.all (0 < ·) && !sides.all (· < 0)

/-- Whether a point off the outline of some rings lies inside an odd number of them. -/
def insideRings (rings : List (List Point)) (p : Point) : Bool :=
  let crossed := (rings.flatMap chain).filter fun s =>
    let s := if s.start.y ≤ s.stop.y then s else s.reverse
    s.start.y ≤ p.y && p.y < s.stop.y && 0 < turn s.start s.stop p
  crossed.length % 2 = 1

/-- Whether a chain of points meets a rectangle. -/
def Rectangle.meetsChain (r : Rectangle) (points : List Point) : Bool :=
  points.any r.hasPoint || (chain points).any r.meetsSegment

/-- Whether a polygon meets a rectangle: its outline does, or the rectangle lies inside. -/
def Rectangle.meetsRings (r : Rectangle) (rings : List (List Point)) : Bool :=
  rings.any r.meetsChain || insideRings rings ⟨r.minx, r.miny⟩

mutual

/-- Whether a geometry meets a rectangle. -/
def Rectangle.meets (r : Rectangle) : Geometry Rat → Bool
  | .point position => position.any (r.hasPoint ∘ pointOf)
  | .points parts => parts.any (·.any (r.hasPoint ∘ pointOf))
  | .line vertices | .ring vertices => r.meetsChain (vertices.map pointOf)
  | .lines parts => parts.any fun vs => r.meetsChain (vs.map pointOf)
  | .polygon rings => r.meetsRings (rings.map (·.map pointOf))
  | .polygons parts => parts.any fun rings => r.meetsRings (rings.map (·.map pointOf))
  | .collection members => r.meetsAny members

/-- Whether a member of a list meets a rectangle. -/
def Rectangle.meetsAny (r : Rectangle) : List (Geometry Rat) → Bool
  | [] => false
  | g :: rest => r.meets g || r.meetsAny rest

end

end Antimeridian.Plane
