import Antimeridian.Plane.Repair
import Antimeridian.Geometry.Basic

/-!
# Clipping to rectangles

What a geometry and some rectangles share, as a point set. Polygons are cut into polygons; where
a polygon only touches the rectangles, the touching pieces remain as lines and points. Lines are
cut where they meet the rectangles' outline, one another or themselves, and each piece stays a
line of its own. Polygons that are not valid are repaired first. What is made of parts of several
dimensions keeps of each only what the others do not cover.
-/

namespace Antimeridian.Plane

/-- Parts of a clipped geometry, by dimension. -/
structure Fragments where
  polygons : List (List (List Point)) := []
  lines : List (List Point) := []
  points : List (Vertex Rat) := []

/-- The parts of two clipped geometries together. -/
def Fragments.append (a b : Fragments) : Fragments :=
  ⟨a.polygons ++ b.polygons, a.lines ++ b.lines, a.points ++ b.points⟩

/-- A point as a vertex. -/
def Point.toVertex (p : Point) : Vertex Rat := { x := p.x, y := p.y }

/-- A vertex as a point. -/
def pointOf (v : Vertex Rat) : Point := ⟨v.x, v.y⟩

/-- Parts as the narrowest geometry that holds them. -/
def narrowest (polygons : List (List (List (Vertex Rat)))) (lines : List (List (Vertex Rat)))
    (points : List (Option (Vertex Rat))) : Geometry Rat :=
  match polygons, lines, points with
  | [], [], [] => .nothing
  | [rings], [], [] => .polygon rings
  | [], [line], [] => .line line
  | [], [], [p] => .point p
  | _, [], [] => .polygons polygons
  | [], _, [] => .lines lines
  | [], [], _ => .points points
  | _, _, _ =>
    .collection (polygons.map .polygon ++ lines.map .line ++ points.map .point)

/-- Whether a segment ends in a point. -/
def Segment.endsAt (s : Segment) (p : Point) : Bool := s.start == p || s.stop == p

/-- The part of a polygonal region in another region. -/
def clipRegion (shape window : Region) : Fragments :=
  let all := pieces (shape.edges ++ window.edges) []
  let has (p : Probe) := shape.has p && window.has p
  let boundary := boundaryOf has all
  let ofShape := all.filter shape.bounds
  let ofWindow := all.filter window.bounds
  let touching := ofShape.filter fun s =>
    ofWindow.contains s && shape.has (Probe.leftOf s) != window.has (Probe.leftOf s)
  let used := boundary ++ touching
  let meeting := ((ofShape.flatMap fun s => [s.start, s.stop]).eraseDups).filter fun p =>
    ofWindow.any (·.endsAt p) && !used.any (·.endsAt p)
  let nodes := (shape.edges.flatMap fun s => window.edges.flatMap s.meets).eraseDups
    ++ (shape.starts ++ window.starts)
  { polygons := polygonsOf nodes boundary
    lines := touching.map fun s => [s.start, s.stop]
    points := meeting.map Point.toVertex }

/-- A chain of points with a mark on those where the chain is cut: the points it shares with
other segments, the joints between its own consecutive segments aside. The segments already
passed come first, the last one on top. -/
def markedChain (others : List Segment) : List Segment → List Segment → List (Point × Bool)
  | _, [] => []
  | passed, s :: rest =>
    let before := passed.drop 1
    let after := rest.drop 1
    let strange := (others ++ before ++ after).flatMap s.meets
    let folded (t : Segment) := if (s.meets t).length > 1 then s.meets t else []
    let cuts := strange ++ (passed.take 1 ++ rest.take 1).flatMap folded
    let inner := (sortAlong s.direction cuts).filter fun p => p ≠ s.start && p ≠ s.stop
    let stops := inner.map (·, true) ++ [(s.stop, rest.isEmpty || cuts.contains s.stop)]
    let start := if passed.isEmpty then [(s.start, true)] else []
    start ++ stops ++ markedChain others (s :: passed) rest

/-- A marked chain taken apart at its marks. The first list holds the points of the current part,
last one first. -/
def partsAtMarks : List Point → List (Point × Bool) → List (List Point)
  | _, [] => []
  | trail, (p, marked) :: rest =>
    if marked then
      let part := (p :: trail).reverse
      if trail.isEmpty then partsAtMarks [p] rest else part :: partsAtMarks [p] rest
    else partsAtMarks (p :: trail) rest

/-- A list of chains without those that repeat an earlier one, either way around. -/
def distinctChains : List (List Point) → List (List Point)
  | [] => []
  | c :: rest =>
    c :: (distinctChains rest).filter fun d => d ≠ c && d ≠ c.reverse

/-- The part of some lines in a region. -/
def clipLines (lines : List (List Point)) (window : Region) : Fragments :=
  let chains := lines.map chain
  let marked := chains.zipIdx.map fun (c, i) =>
    let others := (chains.zipIdx.filter (·.2 ≠ i)).flatMap (·.1)
    markedChain (window.edges ++ others) [] c
  let parts := distinctChains (marked.flatMap (partsAtMarks []))
  let inside := parts.filter fun part =>
    match chain part with
    | s :: _ => window.has (Probe.leftOf s) || window.has (Probe.rightOf s)
    | [] => false
  let nodes := ((marked.flatten.filter (·.2)).map (·.1)).eraseDups
  let meeting := nodes.filter fun p =>
    window.edges.any (·.holds p)
      && !inside.any fun part => part.head? == some p || part.getLast? == some p
  { lines := inside, points := meeting.map Point.toVertex }

/-- The points of a list, each position once. -/
def distinctPoints (points : List (Vertex Rat)) : List (Vertex Rat) :=
  points.foldl (fun kept v =>
    if kept.any (fun w => pointOf w == pointOf v) then kept else kept ++ [v]) []

/-- The points of a list that lie in some rectangles, each position once. -/
def clipPoints (points : List (Vertex Rat)) (rectangles : List Rectangle) : Fragments :=
  { points := distinctPoints (points.filter fun v => rectangles.any (·.hasPoint (pointOf v))) }

/-! ## Parts of several dimensions -/

/-- A geometry taken apart into valid areas, lines and points, with the vertices that areas and
lines come from. -/
structure Parts where
  areas : List Region := []
  lines : List (List Point) := []
  points : List (Vertex Rat) := []
  areaVertices : List (List (Vertex Rat)) := []
  lineVertices : List (List (Vertex Rat)) := []

namespace Parts

/-- The parts of two geometries together. -/
def append (a b : Parts) : Parts :=
  ⟨a.areas ++ b.areas, a.lines ++ b.lines, a.points ++ b.points,
    a.areaVertices ++ b.areaVertices, a.lineVertices ++ b.lineVertices⟩

/-- The parts of some points. -/
def ofPoints (points : List (Vertex Rat)) : Parts := { points }

/-- The parts of some lines. A line without length is a point. -/
def ofLines (lines : List (List (Vertex Rat))) : Parts where
  lines := (lines.map (·.map pointOf)).filter fun line => !(chain line).isEmpty
  points := (lines.filter fun vs => (chain (vs.map pointOf)).isEmpty).filterMap List.head?
  lineVertices := lines

/-- The parts of the rings of polygons. -/
def ofRings (rings : List (List (Vertex Rat))) : Parts :=
  let repaired := repair (rings.map (·.map pointOf))
  { areas := if repaired.region.edges.isEmpty then [] else [repaired.region]
    lines := repaired.lines.map fun s => [s.start, s.stop]
    points := repaired.points.map Point.toVertex
    areaVertices := rings }

mutual

/-- The parts of a geometry. -/
def ofGeometry : Geometry Rat → Parts
  | .point position => ofPoints position.toList
  | .points parts => ofPoints (parts.filterMap id)
  | .line vertices | .ring vertices => ofLines [vertices]
  | .lines parts => ofLines parts
  | .polygon rings => ofRings rings
  | .polygons parts => ofRings parts.flatten
  | .collection members => ofGeometries members

/-- The parts of a list of geometries. -/
def ofGeometries : List (Geometry Rat) → Parts
  | [] => {}
  | g :: rest => (ofGeometry g).append (ofGeometries rest)

end

/-- The area of the parts. -/
def area (p : Parts) : Region :=
  match p.areas with
  | [region] => region
  | regions => Region.union regions

/-- Whether the parts have different dimensions. -/
def isMixed (p : Parts) : Bool :=
  1 < ([p.areas.isEmpty, p.lines.isEmpty, p.points.isEmpty].filter (!·)).length

end Parts

/-- Parts of several dimensions without what is covered by those of a higher one. -/
def Fragments.settled (f : Fragments) : Fragments :=
  let area := Region.ofRings f.polygons.flatten
  let chains := f.lines.map chain
  let parts := distinctChains ((chains.zipIdx.map fun (c, i) =>
    let others := (chains.zipIdx.filter (·.2 ≠ i)).flatMap (·.1)
    markedChain (area.edges ++ others) [] c).flatMap (partsAtMarks []))
  let isOutside (part : List Point) : Bool :=
    match chain part with
    | s :: _ => !area.has (Probe.leftOf s) && !area.has (Probe.rightOf s)
    | [] => false
  let isCovered (p : Point) : Bool :=
    chains.any (·.any (·.holds p)) || area.edges.any (·.holds p)
      || area.has ⟨p, ⟨1, 0⟩⟩
  { polygons := f.polygons
    lines := parts.filter isOutside
    points := (distinctPoints f.points).filter fun v => !isCovered (pointOf v) }

/-! ## Heights -/

/-- The height of a line at a point, if the point lies on it. -/
def heightOn? (p : Point) : List (Vertex Rat) → Option Rat
  | v :: w :: rest =>
    let s : Segment := ⟨pointOf v, pointOf w⟩
    if s.start ≠ p && s.stop ≠ p && s.holds p then
      match v.z, w.z with
      | some a, some b =>
        let d := s.direction
        some (a + (b - a) * (dot d (p.sub s.start) / dot d d))
      | some a, none => some a
      | none, b => b
    else heightOn? p (w :: rest)
  | _ => none

/-- The height of a geometry, given by its lines of vertices, at a point: that of a vertex, or what
lies between those of two. -/
def heightAt? (chains : List (List (Vertex Rat))) (p : Point) : Option Rat :=
  match (chains.flatten.find? fun v => pointOf v == p).bind (·.z) with
  | some z => some z
  | none => chains.findSome? (heightOn? p)

/-- Whether some vertex carries a height. -/
def hasHeights (chains : List (List (Vertex Rat))) : Bool := chains.any (·.any (·.z.isSome))

/-- A point as a vertex with the height that some vertices give it. Where they have heights it gets
one in any case. -/
def raised (chains : List (List (Vertex Rat))) (p : Point) : Vertex Rat :=
  let z := if hasHeights chains then some ((heightAt? chains p).getD 0) else none
  { x := p.x, y := p.y, z }

/-- The geometry of the fragments of some parts, with heights where the parts have them. -/
def Fragments.toGeometry (parts : Parts) (f : Fragments) : Geometry Rat :=
  let chains := parts.areaVertices ++ parts.lineVertices
  narrowest (f.polygons.map fun rings => rings.map (·.map (raised parts.areaVertices)))
    (f.lines.map (·.map (raised chains)))
    (f.points.map fun v =>
      some (if v.z.isSome then v else { v with z := heightAt? chains (pointOf v) }))

/-! ## The clip -/

/-- The part of a geometry in the union of some rectangles. -/
def clip (g : Geometry Rat) (rectangles : List Rectangle) : Geometry Rat :=
  let window := Region.ofRectangles rectangles
  let parts := Parts.ofGeometry g
  let ofAreas := if parts.areas.isEmpty then {} else clipRegion parts.area window
  let ofLines := if parts.lines.isEmpty then {} else clipLines parts.lines window
  let all := (ofAreas.append ofLines).append (clipPoints parts.points rectangles)
  (if parts.isMixed then all.settled else all).toGeometry parts

/-- Whether two lists of closed rings bound the same region. -/
def sameRegion (a b : List (List Point)) : Bool :=
  let one := Region.ofRings a
  let other := Region.ofRings b
  (pieces (one.edges ++ other.edges) []).all fun s =>
    one.has (Probe.leftOf s) == other.has (Probe.leftOf s)
      && one.has (Probe.rightOf s) == other.has (Probe.rightOf s)

end Antimeridian.Plane
