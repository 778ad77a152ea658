import Antimeridian.Plane.Arrangement

/-!
# Rings and polygons of a region

The boundary pieces of a region, directed with the region on their left, are followed into rings.
At a point where several pieces meet, the ring turns so as to stay along the same part of the
region. A ring that passes a point twice falls apart there; counter-clockwise rings are shells
and the others are holes of the smallest shell around them.
-/

namespace Antimeridian.Plane

/-- How far clockwise a direction lies from a reference, in quarters: to its right, opposite, to
its left, and last the reference itself. -/
def quarter (reference d : Point) : Nat :=
  let c := cross reference d
  if c < 0 then 0 else if 0 < c then 2 else if dot reference d < 0 then 1 else 3

/-- Whether one direction comes before another when turning clockwise from a reference. -/
def clockwiseBefore (reference d e : Point) : Bool :=
  let a := quarter reference d
  let b := quarter reference e
  a < b || (a == b && cross d e < 0)

/-- The first element of a list in an order, of equals the one that comes first. -/
def firstBy {β : Type} (before : β → β → Bool) : List β → Option β
  | [] => none
  | x :: rest => some (rest.foldl (fun best y => if before y best then y else best) x)

/-- The piece that follows another along the same part of a region. -/
def successor? (edges : List Segment) (s : Segment) : Option Segment :=
  let back := s.direction.opposite
  firstBy (fun a b => clockwiseBefore back a.direction b.direction)
    (edges.filter (·.start == s.stop))

/-- The pieces from one on until the first comes round again, at most `fuel` of them. -/
def follow (edges : List Segment) (first : Segment) : Nat → Segment → List Segment
  | 0, _ => []
  | fuel + 1, s =>
    match successor? edges s with
    | none => [s]
    | some next => if next = first then [s] else s :: follow edges first fuel next

/-- The closed walks along directed pieces, at most `fuel` of them. -/
def walks (edges : List Segment) : Nat → List Segment → List (List Segment)
  | 0, _ => []
  | _, [] => []
  | fuel + 1, s :: rest =>
    let walk := follow edges s edges.length s
    walk :: walks edges fuel (rest.filter (!walk.contains ·))

/-- A walk taken apart where it passes a point again. The first list holds the points since the
start, last one first; complete loops come out on the way. -/
def loops : List Point → List Point → List (List Point)
  | trail, [] => if trail.isEmpty then [] else [trail.reverse]
  | trail, p :: rest =>
    if trail.contains p then
      let loop := trail.takeWhile (· ≠ p)
      (p :: loop.reverse) :: loops (trail.dropWhile (· ≠ p)) rest
    else loops (p :: trail) rest

/-- A list of points that ends where it starts. -/
def closeLoop : List Point → List Point
  | [] => []
  | p :: rest => p :: rest ++ [p]

/-- Twice the signed area of a closed ring. -/
def doubleArea (ring : List Point) : Rat :=
  (chain ring).foldl (fun total s => total + cross s.start s.stop) 0

/-- Whether a ring surrounds the part of the region left of a piece. -/
def surrounds (ring : List Point) (s : Segment) : Bool := (Probe.leftOf s).within (chain ring)

/-- The smallest shell around a hole. -/
def shellOf? (shells : List (List Point)) (hole : List Point) : Option (List Point) :=
  match chain hole with
  | [] => none
  | s :: _ =>
    firstBy (fun a b => doubleArea a < doubleArea b) (shells.filter (surrounds · s))

/-- The points of a loop the other way around, from the first point after its own start that is a
node, from its own start where there is none. -/
def reversedFromNode (nodes : List Point) : List Point → List Point
  | [] => []
  | start :: rest =>
    let head := start :: rest.takeWhile (!nodes.contains ·)
    match rest.dropWhile (!nodes.contains ·) with
    | [] => start :: rest.reverse
    | node :: more => node :: head.reverse ++ more.reverse

/-- A closed ring the other way around. It starts one point after a node. -/
def reversedRing (nodes : List Point) (ring : List Point) : List Point :=
  match reversedFromNode nodes ring.dropLast with
  | [] => []
  | node :: rest => closeLoop (rest ++ [node])

/-- The polygons of a region, from its boundary pieces directed with the region on their left.
Each polygon is a list of closed rings, the shell first. Shells come in the order of their first
pieces; they run clockwise and holes counter-clockwise. -/
def polygonsOf (nodes : List Point) (edges : List Segment) : List (List (List Point)) :=
  let rings := (walks edges edges.length edges).flatMap fun walk =>
    (loops [] (walk.map (·.start))).map closeLoop
  let shells := rings.filter (0 < doubleArea ·)
  let holes := rings.filter (doubleArea · < 0)
  shells.map fun shell =>
    (shell :: holes.filter (shellOf? shells · == some shell)).map (reversedRing nodes)

/-- The boundary pieces of a region among some pieces, directed with the region on their left. -/
def boundaryOf (has : Probe → Bool) (all : List Segment) : List Segment :=
  all.filterMap fun s =>
    match has (Probe.leftOf s), has (Probe.rightOf s) with
    | true, false => some s
    | false, true => some s.reverse
    | _, _ => none

end Antimeridian.Plane
