import Antimeridian.Crs.Registry
import Antimeridian.Proofs.Envelope.Exact
import Antimeridian.Proofs.Grid.Frames

/-!
# Tight covers

The pixels that cover an envelope are counted at its four corners, in whichever directions columns
and rows run: both are at their least and at their greatest in corners. Slivers of a millionth of a
pixel aside they cover the whole envelope, and none of their outermost columns and rows can be
spared.
-/

namespace Antimeridian

namespace PixelRect

/-- Whether a rectangle is what another one is without its first or its last column or row, where it
has one. -/
inductive Trims (rect : PixelRect) : PixelRect → Prop
  | firstColumn (h : 0 < rect.width) :
    Trims rect { rect with column := rect.column + 1, width := rect.width - 1 }
  | lastColumn (h : 0 < rect.width) : Trims rect { rect with width := rect.width - 1 }
  | firstRow (h : 0 < rect.height) :
    Trims rect { rect with row := rect.row + 1, height := rect.height - 1 }
  | lastRow (h : 0 < rect.height) : Trims rect { rect with height := rect.height - 1 }

variable {K : Type} [Field K] [LinearOrder K] [FloorRing K] [IsStrictOrderedRing K]

/-- Snapping the ends of a range inward never makes them pass each other. -/
theorem covering_nonneg {bound : Envelope K} (hocc : bound.Occupied) :
    0 ≤ (covering bound).width ∧ 0 ≤ (covering bound).height := by
  have hrange {a b : K} (hle : a ≤ b) : 0 ≤ ⌈b - 1 / 10 ^ 6⌉ - ⌊a + 1 / 10 ^ 6⌋ := by
    have hfloor := Int.floor_le (a + 1 / 10 ^ 6)
    have hceil := Int.le_ceil (b - 1 / 10 ^ 6)
    have hslivers : (1 / 10 ^ 6 + 1 / 10 ^ 6 : K) < 1 := by norm_num
    have hlt : (⌊a + 1 / 10 ^ 6⌋ : K) < (⌈b - 1 / 10 ^ 6⌉ + 1 : Int) := by
      push_cast
      linarith
    rw [Int.cast_lt] at hlt
    omega
  exact ⟨hrange hocc.1, hrange hocc.2⟩

/-- What lies between bounds lies in the pixels that cover them, slivers aside. -/
theorem covering_reaches {bound : Envelope K} {p : K × K} (hp : p ∈ bound.region) :
    ((covering bound).column - 1 / 10 ^ 6 ≤ p.1 ∧
        p.1 ≤ (covering bound).column + (covering bound).width + 1 / 10 ^ 6) ∧
      (covering bound).row - 1 / 10 ^ 6 ≤ p.2 ∧
        p.2 ≤ (covering bound).row + (covering bound).height + 1 / 10 ^ 6 := by
  obtain ⟨⟨hwest, heast⟩, hnorth, hsouth⟩ := Envelope.mem_region.mp hp
  have hcolumn := Int.floor_le (bound.minx + 1 / 10 ^ 6)
  have hrow := Int.floor_le (bound.miny + 1 / 10 ^ 6)
  have hcolumnEnd := Int.le_ceil (bound.maxx - 1 / 10 ^ 6)
  have hrowEnd := Int.le_ceil (bound.maxy - 1 / 10 ^ 6)
  simp only [covering]
  push_cast
  refine ⟨⟨?_, ?_⟩, ?_, ?_⟩ <;> linarith

/-- Without an outermost column or row, one of the bounds lies beyond the pixels by more than a
sliver. -/
theorem Trims.beyond {bound : Envelope K} {rest : PixelRect}
    (htrims : (covering bound).Trims rest) :
    (bound.minx < rest.column - 1 / 10 ^ 6 ∨
        (rest.column + rest.width + 1 / 10 ^ 6 : K) < bound.maxx) ∨
      bound.miny < rest.row - 1 / 10 ^ 6 ∨
        (rest.row + rest.height + 1 / 10 ^ 6 : K) < bound.maxy := by
  cases htrims with
  | firstColumn _ =>
      have hnext := Int.lt_floor_add_one (bound.minx + 1 / 10 ^ 6)
      refine .inl (.inl ?_)
      simp only [covering]
      push_cast
      linarith
  | lastColumn _ =>
      have hprevious := Int.ceil_lt_add_one (bound.maxx - 1 / 10 ^ 6)
      refine .inl (.inr ?_)
      simp only [covering]
      push_cast
      linarith
  | firstRow _ =>
      have hnext := Int.lt_floor_add_one (bound.miny + 1 / 10 ^ 6)
      refine .inr (.inl ?_)
      simp only [covering]
      push_cast
      linarith
  | lastRow _ =>
      have hprevious := Int.ceil_lt_add_one (bound.maxy - 1 / 10 ^ 6)
      refine .inr (.inr ?_)
      simp only [covering]
      push_cast
      linarith

end PixelRect

namespace Envelope

variable {K : Type} [Field K] [LinearOrder K] {e : Envelope K}

/-- The places of the corners of an envelope. -/
def fourCorners (e : Envelope K) : List (K × K) :=
  [(e.minx, e.miny), (e.maxx, e.maxy), (e.minx, e.maxy), (e.maxx, e.miny)]

omit [Field K] [LinearOrder K] in
theorem mem_fourCorners {x y : K} :
    (x, y) ∈ e.fourCorners ↔ (x = e.minx ∨ x = e.maxx) ∧ (y = e.miny ∨ y = e.maxy) := by
  simp only [fourCorners, List.mem_cons, List.not_mem_nil, Prod.mk.injEq, or_false]
  tauto

omit [Field K] in
theorem mem_region_of_mem_fourCorners (hocc : e.Occupied) {q : K × K} (hq : q ∈ e.fourCorners) :
    q ∈ e.region := by
  obtain ⟨hx, hy⟩ := mem_fourCorners.mp hq
  rw [mem_region]
  constructor
  · rcases hx with hx | hx <;> rw [hx]
    · exact ⟨le_rfl, hocc.1⟩
    · exact ⟨hocc.1, le_rfl⟩
  · rcases hy with hy | hy <;> rw [hy]
    · exact ⟨le_rfl, hocc.2⟩
    · exact ⟨hocc.2, le_rfl⟩

/-- On the way from a point of an envelope to some corner, what changes at given rates to the east
and to the north does not grow. -/
theorem exists_corner_le [IsStrictOrderedRing K] {p : K × K} (hp : p ∈ e.region)
    (eastward northward : K) :
    ∃ q ∈ e.fourCorners, eastward * (q.1 - p.1) + northward * (q.2 - p.2) ≤ 0 := by
  obtain ⟨⟨hwest, heast⟩, hsouth, hnorth⟩ := mem_region.mp hp
  -- one of the ends lies on the side where the change is not positive
  have hend {rate low high c : K} (hlow : low ≤ c) (hhigh : c ≤ high) :
      ∃ x, (x = low ∨ x = high) ∧ rate * (x - c) ≤ 0 := by
    rcases le_total 0 rate with hgrows | hfalls
    · exact ⟨low, .inl rfl, mul_nonpos_of_nonneg_of_nonpos hgrows (sub_nonpos.mpr hlow)⟩
    · exact ⟨high, .inr rfl, mul_nonpos_of_nonpos_of_nonneg hfalls (sub_nonneg.mpr hhigh)⟩
  obtain ⟨x, hx, hacross⟩ := hend hwest heast
  obtain ⟨y, hy, hup⟩ := hend hsouth hnorth
  exact ⟨(x, y), mem_fourCorners.mpr ⟨hx, hy⟩, add_nonpos hacross hup⟩

/-- What changes at given rates to the east and to the north is at its least and at its greatest in
corners. -/
theorem between_fourCorners [IsStrictOrderedRing K] {p : K × K} (hp : p ∈ e.region)
    {value : K × K → K} {eastward northward : K}
    (hvalue : ∀ q, value q = value p + (eastward * (q.1 - p.1) + northward * (q.2 - p.2))) :
    least (e.fourCorners.map value) ≤ value p ∧
      value p ≤ greatest (e.fourCorners.map value) := by
  have hne : e.fourCorners.map value ≠ [] := by simp [fourCorners]
  constructor
  · obtain ⟨q, hq, hle⟩ := exists_corner_le hp eastward northward
    calc least (e.fourCorners.map value) ≤ value q :=
          (least_spec hne).2 _ (List.mem_map_of_mem hq)
      _ ≤ value p := by linarith [hvalue q]
  · obtain ⟨q, hq, hle⟩ := exists_corner_le hp (-eastward) (-northward)
    calc value p ≤ value q := by linarith [hvalue q]
      _ ≤ greatest (e.fourCorners.map value) := (greatest_spec hne).2 _ (List.mem_map_of_mem hq)

end Envelope

namespace PixelFrame

variable {K : Type} [Field K] [LinearOrder K] (frame : PixelFrame K)

/-- The least and the greatest columns and rows among the corners of an envelope. -/
def bounding (e : Envelope K) : Envelope K where
  minx := least (e.fourCorners.map fun q => (frame.count q.1 q.2).1)
  miny := least (e.fourCorners.map fun q => (frame.count q.1 q.2).2)
  maxx := greatest (e.fourCorners.map fun q => (frame.count q.1 q.2).1)
  maxy := greatest (e.fourCorners.map fun q => (frame.count q.1 q.2).2)

variable {frame}

/-- The columns and rows of an envelope lie between those of its corners. -/
theorem count_mem_bounding [IsStrictOrderedRing K] {e : Envelope K} {p : K × K}
    (hp : p ∈ e.region) : frame.count p.1 p.2 ∈ (frame.bounding e).region := by
  have hcorner (q : K × K) := Prod.ext_iff.mp (frame.count_eq_add p.1 p.2 q.1 q.2)
  rw [Envelope.mem_region]
  exact ⟨Envelope.between_fourCorners hp fun q => (hcorner q).1,
    Envelope.between_fourCorners hp fun q => (hcorner q).2⟩

/-- Each bound is the column or the row of a point of the envelope. -/
theorem exists_bounding {e : Envelope K} (hocc : e.Occupied) :
    ((∃ p ∈ e.region, (frame.count p.1 p.2).1 = (frame.bounding e).minx) ∧
        ∃ p ∈ e.region, (frame.count p.1 p.2).1 = (frame.bounding e).maxx) ∧
      (∃ p ∈ e.region, (frame.count p.1 p.2).2 = (frame.bounding e).miny) ∧
        ∃ p ∈ e.region, (frame.count p.1 p.2).2 = (frame.bounding e).maxy := by
  have hattained {value : K × K → K} {x : K} (hx : x ∈ e.fourCorners.map value) :
      ∃ p ∈ e.region, value p = x := by
    obtain ⟨q, hq, rfl⟩ := List.mem_map.mp hx
    exact ⟨q, Envelope.mem_region_of_mem_fourCorners hocc hq, rfl⟩
  have hne (value : K × K → K) : e.fourCorners.map value ≠ [] := by simp [Envelope.fourCorners]
  exact ⟨⟨hattained (least_spec (hne _)).1, hattained (greatest_spec (hne _)).1⟩,
    hattained (least_spec (hne _)).1, hattained (greatest_spec (hne _)).1⟩

variable [FloorRing K] [IsStrictOrderedRing K]

/-- The pixels of an envelope are those that cover the bounds at its corners. -/
theorem pixelsOf_of_frame {g : Grid (Extended K)} (hg : g.transform = frame.affine)
    (e : Envelope K) : g.pixelsOf e.finite = .ok (PixelRect.covering (frame.bounding e)) := by
  obtain ⟨back, hback, happly⟩ := frame.exists_inverse
  have hcorners : Grid.boundCorners (back.apply (.finite e.minx) (.finite e.miny))
      (back.apply (.finite e.maxx) (.finite e.maxy)) (back.apply (.finite e.minx) (.finite e.maxy))
      (back.apply (.finite e.maxx) (.finite e.miny)) none = (frame.bounding e).finite := by
    simp only [happly, Grid.boundCorners, Scalar.minimum, Scalar.maximum, List.foldl_cons,
      List.foldl_nil, Extended.min_finite, Extended.max_finite]
    rfl
  rw [Grid.pixelsOf, hg, hback]
  exact (congrArg Grid.coveringPixels hcorners).trans (coveringPixels_finite _)

end PixelFrame

namespace Grid

variable {K : Type} [Field K] [LinearOrder K] [FloorRing K]

/-- Whether a place has a column and a row in a rectangle of pixels, or beyond it by no more than a
margin. -/
def HoldsUpTo (g : Grid (Extended K)) (rect : PixelRect) (margin : K) (p : K × K) : Prop :=
  ∃ column row : K,
    g.transform.apply (.finite column) (.finite row) = (.finite p.1, .finite p.2) ∧
    (rect.column - margin ≤ column ∧ column ≤ rect.column + rect.width + margin) ∧
      rect.row - margin ≤ row ∧ row ≤ rect.row + rect.height + margin

variable {g : Grid (Extended K)} {frame : PixelFrame K} {rect : PixelRect} {margin : K} {p : K × K}

theorem holdsUpTo_iff (hg : g.transform = frame.affine) :
    g.HoldsUpTo rect margin p ↔
      (rect.column - margin ≤ (frame.count p.1 p.2).1 ∧
          (frame.count p.1 p.2).1 ≤ rect.column + rect.width + margin) ∧
        rect.row - margin ≤ (frame.count p.1 p.2).2 ∧
          (frame.count p.1 p.2).2 ≤ rect.row + rect.height + margin := by
  constructor
  · rintro ⟨column, row, happly, hbounds⟩
    rw [hg, frame.apply_affine, Prod.mk.injEq, Extended.finite.injEq, Extended.finite.injEq]
      at happly
    rwa [← happly.1, ← happly.2, frame.count_place]
  · intro hbounds
    refine ⟨_, _, ?_, hbounds⟩
    rw [hg, frame.apply_affine, frame.place_count]

variable [IsStrictOrderedRing K]

/-- The pixels of an envelope cover all its points up to a millionth of a pixel, and none of their
outermost columns and rows can be spared for that. -/
theorem pixelsOf_covers_tightly (hg : g.transform = frame.affine) {e : Envelope K}
    (hocc : e.Occupied) :
    ∃ rect, g.pixelsOf e.finite = .ok rect ∧ (0 ≤ rect.width ∧ 0 ≤ rect.height) ∧
      (∀ p ∈ e.region, g.HoldsUpTo rect (1 / 10 ^ 6) p) ∧
      ∀ rest, rect.Trims rest → ∃ p ∈ e.region, ¬g.HoldsUpTo rest (1 / 10 ^ 6) p := by
  have hbound : (frame.bounding e).Occupied := by
    obtain ⟨⟨hx, hx'⟩, hy, hy'⟩ := Envelope.mem_region.mp
      (frame.count_mem_bounding (Envelope.mem_region_of_mem_fourCorners hocc List.mem_cons_self))
    exact ⟨hx.trans hx', hy.trans hy'⟩
  refine ⟨_, frame.pixelsOf_of_frame hg e, PixelRect.covering_nonneg hbound, ?_, ?_⟩
  · intro p hp
    exact (holdsUpTo_iff hg).mpr (PixelRect.covering_reaches (frame.count_mem_bounding hp))
  · intro rest htrims
    obtain ⟨⟨⟨p, hp, hfirst⟩, q, hq, hlast⟩, ⟨p', hp', hfirst'⟩, q', hq', hlast'⟩ :=
      frame.exists_bounding hocc
    -- the point whose column or row is the bound beyond the rest is left out
    rcases htrims.beyond with (hwest | heast) | hnorth | hsouth
    · refine ⟨p, hp, fun hholds => ?_⟩
      rw [holdsUpTo_iff hg, hfirst] at hholds
      exact hwest.not_ge hholds.1.1
    · refine ⟨q, hq, fun hholds => ?_⟩
      rw [holdsUpTo_iff hg, hlast] at hholds
      exact heast.not_ge hholds.1.2
    · refine ⟨p', hp', fun hholds => ?_⟩
      rw [holdsUpTo_iff hg, hfirst'] at hholds
      exact hnorth.not_ge hholds.2.1
    · refine ⟨q', hq', fun hholds => ?_⟩
      rw [holdsUpTo_iff hg, hlast'] at hholds
      exact hsouth.not_ge hholds.2.2

/-- Where columns run to the north-east and rows to the south-east, a square is covered by four
pixels. They hold all of it, and without the first column they do not. -/
theorem square_covered_by_sheared_pixels :
    let frame : PixelFrame ℚ := ⟨⟨1, 1, 0, 1, -1, 0⟩, by norm_num⟩
    let g : Grid (Extended ℚ) := ⟨0, 0, 4, 4, frame.affine, .wgs84, by decide, by decide⟩
    let e : Envelope ℚ := ⟨3, -1, 5, 1, none⟩
    g.pixelsOf e.finite = .ok ⟨1, 1, 2, 2⟩ ∧
      (∀ p ∈ e.region, g.HoldsUpTo ⟨1, 1, 2, 2⟩ (1 / 10 ^ 6) p) ∧
      ∃ p ∈ e.region, ¬g.HoldsUpTo ⟨2, 1, 1, 2⟩ (1 / 10 ^ 6) p := by
  intro frame g e
  have hocc : e.Occupied := by norm_num [e, Envelope.Occupied]
  have hpixels : (g.pixelsOf e.finite).toOption = some ⟨1, 1, 2, 2⟩ := by decide +kernel
  obtain ⟨rect, hrect, -, hcovers, htight⟩ :=
    pixelsOf_covers_tightly (show g.transform = frame.affine from rfl) hocc
  rw [hrect] at hpixels
  obtain rfl := Option.some.inj hpixels
  exact ⟨hrect, hcovers, htight _ (.firstColumn (by decide))⟩

end Grid

end Antimeridian
