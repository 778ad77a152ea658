import Antimeridian.Plane.Arrangement

/-!
# Valid polygons

A polygon is valid when its rings are simple and do not cross, its holes lie inside its shell and
outside one another, and its inside is in one piece. Rings may touch in single points, as long as
no chain of touching rings closes.
-/

namespace Antimeridian.Plane

/-- Pairs of an element with each later one. -/
def laterPairs {β : Type} : List β → List (β × β)
  | [] => []
  | x :: rest => rest.map (x, ·) ++ laterPairs rest

/-- The pairs of segments of a closed ring that follow one another. -/
def followers (edges : List Segment) : List (Segment × Segment) :=
  edges.zip (edges.drop 1 ++ edges.take 1)

/-- The pairs of segments of a closed ring with at least one segment between them. -/
def strangers (edges : List Segment) : List (Segment × Segment) :=
  (laterPairs edges.zipIdx).filterMap fun ((s, i), (t, j)) =>
    if j = i + 1 || (i = 0 && j + 1 = edges.length) then none else some (s, t)

/-- A closed ring that neither crosses nor touches itself. -/
def isSimple (edges : List Segment) : Bool :=
  3 ≤ edges.length
    && (followers edges).all (fun (s, t) => s.meets t == [s.stop])
    && (strangers edges).all (fun (s, t) => (s.meets t).isEmpty)

/-- Whether two segments touch in one point at most, at an end of one of them. -/
def touchesOnly (s t : Segment) : Bool :=
  match s.meets t with
  | [] => true
  | [p] => p == s.start || p == s.stop || p == t.start || p == t.stop
  | _ => false

/-- The points in which two rings touch. -/
def touchPoints (a b : List Segment) : List Point :=
  (a.flatMap fun s => b.flatMap s.meets).eraseDups

/-- Whether two rings neither cross nor share a segment. -/
def areApart (a b : List Segment) : Bool := a.all fun s => b.all (touchesOnly s)

/-- Whether a ring lies inside another one, given that they touch in points only. -/
def liesInside (inner outer : List Segment) : Bool :=
  (inner.flatMap (·.cut outer)).all fun s => (Probe.leftOf s).within outer

/-- Whether a ring lies outside another one, given that they touch in points only. -/
def liesOutside (one other : List Segment) : Bool :=
  (one.flatMap (·.cut other)).all fun s => !(Probe.leftOf s).within other

/-- Contacts between rings and points without those in which a ring or a point has no other
contact, after at most `fuel` rounds. What is left lies on closed chains. -/
def closedChains : Nat → List (Nat × Point) → List (Nat × Point)
  | 0, contacts => contacts
  | fuel + 1, contacts =>
    let kept := contacts.filter fun (ring, p) =>
      1 < contacts.countP (·.1 == ring) && 1 < contacts.countP (·.2 == p)
    if kept.length = contacts.length then contacts else closedChains fuel kept

/-- The contacts between the rings of a polygon. -/
def contacts (rings : List (List Segment)) : List (Nat × Point) :=
  ((laterPairs rings.zipIdx).flatMap fun ((a, i), (b, j)) =>
    (touchPoints a b).flatMap fun p => [(i, p), (j, p)]).eraseDups

/-- Whether closed rings, the shell first, make a valid polygon. -/
def isValidPolygon (rings : List (List Point)) : Bool :=
  let edges := rings.map chain
  match edges with
  | [] => true
  | shell :: holes =>
    let touching := contacts edges
    edges.all isSimple
      && (laterPairs edges).all (fun (a, b) => areApart a b)
      && holes.all (liesInside · shell)
      && (laterPairs holes).all (fun (a, b) => liesOutside a b && liesOutside b a)
      && (closedChains touching.length touching).isEmpty

end Antimeridian.Plane
