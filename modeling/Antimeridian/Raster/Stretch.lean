import Antimeridian.Scalar.Binary64

/-!
# Stretches of an axis

A read brings a stretch of an axis to another number of pixels. Each of them is found from some
pixels of the source, with a weight for each, and what the methods to find it differ in is which
pixels these are and how they are weighted. A stretch of a smaller copy of the source need not
begin at a pixel, so besides whole pixels it keeps its exact place.
-/

namespace Antimeridian

/-- The part of an axis that is read, and the number of pixels that it is brought to. -/
structure Stretch where
  /-- The number of pixels of the axis. -/
  total : Nat
  /-- The first pixel of the stretch. -/
  first : Nat
  /-- The number of pixels of the stretch. -/
  size : Nat
  /-- Where the stretch begins exactly, in pixels of the axis. -/
  start : Float
  /-- How long the stretch is exactly, in pixels of the axis. -/
  extent : Float
  /-- The number of pixels that the stretch is brought to. -/
  count : Nat

/-- Pixels of an axis with the weights they are counted with. -/
abbrev Weights := List (Nat × Float)

namespace Stretch

/-- A stretch of whole pixels. -/
def whole (total first size count : Nat) : Stretch :=
  { total, first, size, start := Float.ofNat first, extent := Float.ofNat size, count }

/-- The number of pixels of the stretch for each that is read. -/
def ratio (s : Stretch) : Float := s.extent / Float.ofNat s.count

/-- The same stretch on a copy with fewer pixels. -/
def onCopy (s : Stretch) (total : Nat) : Stretch :=
  let factor := Float.ofNat s.total / Float.ofNat total
  let nearest (n : Nat) : Nat := (Scalar.truncate (Float.ofNat n / factor + 0.5)).toNat
  let first := min (total - 1) (nearest s.first)
  { s with
    total, first
    size := min (max 1 (nearest s.size)) (total - first)
    start := s.start / factor
    extent := s.extent / factor }

/-- The pixel at the centre of one that is read. A centre that comes within a hair of the next
pixel is taken into it. -/
def nearest (s : Stretch) (index : Nat) : Nat :=
  let centre := (Float.ofNat index + 0.5) * s.ratio + s.start + 1e-10
  min (s.total - 1) (Scalar.floor centre).toNat

/-! ## Where pixels that are read fall -/

/-- The pixels that are read on the axis of the source. Positions are counted from a pixel of it.
-/
structure Alignment where
  /-- The pixel that positions are counted from. -/
  base : Nat
  /-- The number of pixels of the same width that come before those that are read. -/
  skipped : Nat
  /-- How far the first pixel is from its place. -/
  shift : Float
  /-- The width of a pixel. -/
  width : Float
  /-- The first position that can be looked at. -/
  low : Int
  /-- The position behind the last one that can be looked at. -/
  high : Int

/-- Where the pixels of a stretch fall, for a method that looks at some pixels on each side. Where
the pixels before the stretch are a whole number of read ones, positions are counted from the edge
of the source, so that a part is read like the whole. -/
def alignment (s : Stretch) (radius : Nat) : Alignment :=
  let width := s.ratio
  let before := s.start / width
  let skipped := Scalar.truncate (before + 0.5)
  let atEdge := (before - Scalar.ofInt skipped).abs < 1e-8
  let base := if atEdge then 0 else s.first
  let margin := radius * max 1 (Scalar.truncate (0.5 + width)).toNat
  let last := min s.total (s.first + 1 + (Scalar.ceil (Float.ofNat s.count * width)).toNat)
  { base, width
    skipped := if atEdge then skipped.toNat else 0
    shift := if atEdge then 0 else s.start - Float.ofNat s.first
    low := (s.first - margin : Nat) - (base : Int)
    high := (min s.total (last + margin) : Nat) - (base : Int) }

namespace Alignment

/-- The number of a read pixel, counted from where positions are. -/
def place (a : Alignment) (index : Nat) : Float := Float.ofNat (a.skipped + index)

/-- The pixels at the positions from one to another. -/
def pixels (a : Alignment) (first last : Int) : List Nat :=
  (List.range (last - first).toNat).map fun (k : Nat) => ((a.base : Int) + first + k).toNat

/-- Where a read pixel begins and ends. -/
def ends (a : Alignment) (index : Nat) : Float × Float :=
  (a.place index * a.width + a.shift, (a.place index + 1) * a.width + a.shift)

/-- The positions that a read pixel covers, slivers aside. -/
def covered (a : Alignment) (index : Nat) : Int × Int :=
  let (start, stop) := a.ends index
  let first := max (Scalar.truncate (start + 1e-8)) a.low
  let last := Scalar.ceil (stop - 1e-8)
  (first, min (if last = first then last + 1 else last) a.high)

/-- The pixels that a read pixel covers, each weighted with the share of it that is covered. -/
def shares (a : Alignment) (index : Nat) : Weights :=
  let (start, stop) := a.ends index
  let (first, last) := a.covered index
  let weight (position : Int) : Float :=
    if last - first = 1 then 1
    else if position = first then 1 - (start - Scalar.ofInt first)
    else if position = last - 1 then 1 - (Scalar.ofInt last - stop)
    else 1
  (a.pixels first last).zipIdx.map fun (pixel, k) => (pixel, weight (first + k))

/-! ## Bells -/

/-- The weights of a bell over a number of pixels for each that is read. -/
def bell (ratio : Float) : List Float :=
  let wanted := Scalar.truncate (0.5 + ratio)
  if wanted ≤ 2 then [1, 2, 1] else if wanted ≤ 4 then [1, 4, 6, 4, 1] else [1, 6, 15, 20, 15, 6, 1]

/-- The pixels under a bell around a read pixel. Those outside the source are left out. -/
def underBell (a : Alignment) (bell : List Float) (index : Nat) : Weights :=
  let start := Scalar.truncate (0.5 + a.place index * a.width)
  let stop := Scalar.truncate (0.5 + (a.place index + 1) * a.width) + 1
  let (start, stop) := if start < a.low then (a.low, stop + 1) else (start, stop)
  let first := start + (stop - start) / 2 - bell.length / 2
  let last := min (first + bell.length) a.high
  let inside := max first a.low
  (a.pixels inside last).zip (bell.drop (inside - first).toNat)

/-! ## Filters -/

/-- The pixels that a filter reaches around a read pixel. The filter is a function of the distance
and is nowhere but within a radius; where pixels are merged it is stretched over all of them. -/
def filtered (a : Alignment) (radius : Nat) (filter : Float → Float) (index : Nat) : Weights :=
  let centre := (a.place index + 0.5) * a.width + a.shift
  let scale := if 1 / a.width < 1 then 1 / a.width else 1
  let reach := Float.ofNat radius / scale
  let first := max (Scalar.floor (centre - reach + 0.5)) a.low
  let last := min (Scalar.truncate (centre + reach + 0.5)) a.high
  (a.pixels first last).zipIdx.map fun (pixel, k) =>
    (pixel, filter (scale * (Scalar.ofInt (first + k) - centre + 0.5)))

end Alignment

end Stretch

/-! ## Filter functions -/

namespace FilterShape

/-- A tent. -/
def linear (x : Float) : Float := if x.abs ≤ 1 then 1 - x.abs else 0

/-- The cubic that passes through the pixels. -/
def cubic (x : Float) : Float :=
  let d := x.abs
  if d ≤ 1 then d * d * (1.5 * d - 2.5) + 1
  else if d ≤ 2 then d * d * (-0.5 * d + 2.5) - 4 * d + 2
  else 0

/-- The cubic that smooths the pixels. Its weights add up to six. -/
def spline (x : Float) : Float :=
  let cube (y : Float) : Float := y * y * y
  if x + 2 ≤ 0 then 0
  else if x + 1 ≤ 0 then cube (x + 2)
  else if x ≤ 0 then -4 * cube (x + 1) + cube (x + 2)
  else if x - 1 ≤ 0 then 6 * cube x + -4 * cube (x + 1) + cube (x + 2)
  else -4 * cube (x - 1) + 6 * cube x + -4 * cube (x + 1) + cube (x + 2)

/-- The ratio of a circumference to its diameter. -/
def pi : Float := 3.141592653589793

/-- A wave that dies out, itself over three of its bumps. -/
def wave (x : Float) : Float :=
  if x == 0 then 1
  else if 3 < x.abs then 0
  else
    let angle := pi * x
    let third := angle / 3
    Float.sin angle * Float.sin third / (angle * third)

end FilterShape

end Antimeridian
