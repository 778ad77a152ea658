import Antimeridian.Plane.Ring

/-!
# Repairing areas

Rings bound an area as long as they do not run over one another: the points inside an odd number of
them. Where they do, the pieces they share count once. The faces that the pieces enclose are
gathered into an area, without those that fill a hole of another one, then the pieces that do not
bound it into the next, and so on as long as any are enclosed. The area is what lies in an odd
number of these, and the pieces that never bound any remain as lines.
-/

namespace Antimeridian.Plane

/-- What some rings amount to: an area, lines and points. -/
structure Repaired where
  region : Region
  lines : List Segment := []
  points : List Point := []

/-- The region that some pieces bound, each of them once. -/
def Region.ofBoundary (edges : List Segment) (starts : List Point) : Region :=
  { edges, starts, has := (·.within edges) }

/-- The region that any of some regions covers. -/
def Region.union (regions : List Region) : Region :=
  let has (p : Probe) := regions.any (·.has p)
  let all := pieces (regions.flatMap (·.edges)) []
  Region.ofBoundary (all.filter fun s => has (Probe.leftOf s) != has (Probe.rightOf s))
    (regions.flatMap (·.starts))

/-- The pieces without those that end in a point of no other piece, after at most `fuel` rounds. -/
def withoutDangles : Nat → List Segment → List Segment
  | 0, edges => edges
  | fuel + 1, edges =>
    let isShared (p : Point) : Bool := 1 < edges.countP fun s => s.start == p || s.stop == p
    let kept := edges.filter fun s => isShared s.start && isShared s.stop
    if kept.length = edges.length then edges else withoutDangles fuel kept

/-- A face: what a ring encloses, without what others do. -/
structure Face where
  shell : List Point
  holes : List (List Point)

namespace Face

/-- Whether a probe lies in a face. -/
def has (f : Face) (p : Probe) : Bool :=
  p.within (chain f.shell) && !f.holes.any fun hole => p.within (chain hole)

/-- Whether two rings run along the same pieces. -/
def sameRing (a b : List Point) : Bool :=
  let one := (chain a).map Segment.ascending
  let other := (chain b).map Segment.ascending
  one.length = other.length && one.all other.contains

/-- The face among some that has a hole which a face fills. -/
def around? (faces : List Face) (f : Face) : Option Face :=
  faces.find? fun g => g.holes.any (sameRing · f.shell)

/-- Whether a face lies inside an even number of others, each filling a hole of the next, of which
at most `fuel` are looked at. -/
def isOuter (faces : List Face) : Nat → Face → Bool
  | 0, _ => true
  | fuel + 1, f =>
    match around? faces f with
    | none => true
    | some g => !isOuter faces fuel g

end Face

/-- The faces that some pieces enclose. -/
def facesOf (edges : List Segment) : List Face :=
  let used := withoutDangles edges.length edges
  let directed := used ++ used.map Segment.reverse
  let rings := (walks directed directed.length directed).flatMap fun walk =>
    (loops [] (walk.map (·.start))).map closeLoop
  let shells := rings.filter (0 < doubleArea ·)
  let holes := rings.filter (doubleArea · < 0)
  shells.map fun shell =>
    { shell, holes := holes.filter fun hole => shellOf? shells hole == some shell }

/-- The pieces that bound the faces of some pieces, those that fill holes left out. -/
def boundOf (edges : List Segment) : List Segment :=
  let faces := facesOf edges
  let outer := faces.filter (Face.isOuter faces faces.length)
  let has (p : Probe) : Bool := outer.any (·.has p)
  edges.filter fun s => has (Probe.leftOf s) != has (Probe.rightOf s)

/-- The pieces that never bound an area, after at most `fuel` rounds. -/
def idle : Nat → List Segment → List Segment
  | 0, edges => edges
  | fuel + 1, edges =>
    match boundOf edges with
    | [] => edges
    | bound => idle fuel (edges.filter (!bound.contains ·))

/-- What some closed rings amount to. -/
def repair (rings : List (List Point)) : Repaired :=
  let edges := rings.flatMap chain
  let cut := (edges.flatMap (·.cut edges)).map Segment.ascending
  let once := cut.eraseDups
  let collapsed := (rings.filter fun ring => (chain ring).isEmpty).filterMap List.head?
  let points := collapsed.eraseDups.filter fun p => !once.any fun s => s.start == p || s.stop == p
  if once.length = cut.length then { region := Region.ofRings rings, points }
  else
    let lines := idle once.length once
    { region := Region.ofBoundary (once.filter (!lines.contains ·)) (rings.filterMap List.head?)
      lines, points }

end Antimeridian.Plane
