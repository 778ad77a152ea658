import Antimeridian.Proofs.Envelope.Depth
import Antimeridian.Proofs.Raster.Windows

/-!
# Slivers at the edges between pixels

Pixel coordinates within a millionth of a pixel of a whole number are snapped to it. Of a range of
them among some pixels, snapping leaves pixels unless both of its ends are snapped to one edge. An
envelope that has an area and lies in a raster can be such a sliver, and then the raster cannot be
cropped to it.
-/

namespace Antimeridian

variable {K : Type} [Field K] [LinearOrder K] [IsStrictOrderedRing K]

/-- Pixels are left of a range of pixel coordinates unless both of its ends are near one edge. -/
theorem left_of_range_iff [FloorRing K] {low high t : K} {size : Nat} (ht : 0 < t) (hlow : 0 ≤ low)
    (hhigh : high ≤ size) :
    max 0 ⌊low + t⌋ < min (size : Int) ⌈high - t⌉ ↔ ¬∃ k : Int, k - t ≤ low ∧ high ≤ k + t := by
  constructor
  · rintro hleft ⟨k, hfirst, hlast⟩
    have hfloor : k ≤ ⌊low + t⌋ := Int.le_floor.mpr (sub_le_iff_le_add.mp hfirst)
    have hceil : ⌈high - t⌉ ≤ k := Int.ceil_le.mpr (sub_le_iff_le_add.mpr hlast)
    omega
  · intro hfar
    -- neither the edge before the range, nor the first, nor the last edge is near both ends
    have hnear (k : Int) (hk : k - t ≤ low) : (k : K) + t < high := by
      by_contra hlast
      exact hfar ⟨k, hk, not_lt.mp hlast⟩
    have hwithin : ⌊low + t⌋ < ⌈high - t⌉ := by
      rw [Int.lt_ceil, lt_sub_iff_add_lt]
      exact hnear _ (sub_le_iff_le_add.mpr (Int.floor_le _))
    have hfirst : 0 < ⌈high - t⌉ := by
      rw [Int.lt_ceil, lt_sub_iff_add_lt]
      exact hnear 0 (by push_cast; linarith)
    have hlast : ⌊low + t⌋ < (size : Int) := by
      rw [Int.floor_lt, Int.cast_natCast]
      by_contra hreach
      have hbeyond := hnear size (by rw [Int.cast_natCast]; linarith)
      rw [Int.cast_natCast] at hbeyond
      linarith
    have hfloor : 0 ≤ ⌊low + t⌋ := Int.floor_nonneg.mpr (by linarith)
    omega

namespace PixelAxes

/-- Whether two ordinates are within a millionth of a step of one multiple of it. -/
def HugsOne (start step low high : K) : Prop :=
  ∃ k : Int, |low - (start + step * k)| ≤ |step| / 10 ^ 6 ∧
    |high - (start + step * k)| ≤ |step| / 10 ^ 6

/-- Whether an envelope keeps within a millionth of a pixel of one edge between pixels. -/
def Hugs (axes : PixelAxes K) (e : Envelope K) : Prop :=
  HugsOne axes.x axes.dx e.minx e.maxx ∨ HugsOne axes.y axes.dy e.miny e.maxy

theorem hugsOne_iff {start step low high : K} (hstep : step ≠ 0) :
    HugsOne start step low high ↔
      ∃ k : Int, k - 1 / 10 ^ 6 ≤ min ((low - start) / step) ((high - start) / step) ∧
        max ((low - start) / step) ((high - start) / step) ≤ k + 1 / 10 ^ 6 := by
  have hcount (z : K) (k : Int) : |z - (start + step * k)| ≤ |step| / 10 ^ 6 ↔
      k - 1 / 10 ^ 6 ≤ (z - start) / step ∧ (z - start) / step ≤ k + 1 / 10 ^ 6 := by
    have hscale : z - (start + step * k) = step * ((z - start) / step - k) := by
      rw [mul_sub, mul_div_cancel₀ _ hstep]
      ring
    rw [hscale, abs_mul, div_eq_mul_one_div |step|, mul_le_mul_iff_right₀ (abs_pos.mpr hstep),
      abs_sub_le_iff, sub_le_iff_le_add', sub_le_comm, and_comm]
  refine exists_congr fun k => ?_
  rw [hcount, hcount, le_min_iff, max_le_iff]
  exact and_and_and_comm

/-- What lies between two corners of the pixels is counted from zero to their number. -/
theorem count_within {start step low high : K} {size : Nat} (hstep : step ≠ 0) (hle : low ≤ high)
    (hlow : min (start + step * 0) (start + step * size) ≤ low)
    (hhigh : high ≤ max (start + step * 0) (start + step * size)) :
    0 ≤ min ((low - start) / step) ((high - start) / step) ∧
      max ((low - start) / step) ((high - start) / step) ≤ size := by
  rw [mul_zero, add_zero] at hlow hhigh
  have hsize : (0 : K) ≤ size := size.cast_nonneg
  rcases lt_or_gt_of_ne hstep with hneg | hpos
  · have hspan : step * size ≤ 0 := mul_nonpos_of_nonpos_of_nonneg hneg.le hsize
    rw [min_eq_right (by linarith)] at hlow
    rw [max_eq_left (by linarith)] at hhigh
    simp only [le_min_iff, max_le_iff, div_le_iff_of_neg hneg, le_div_iff_of_neg hneg]
    refine ⟨⟨?_, ?_⟩, ?_, ?_⟩ <;> linarith
  · have hspan : 0 ≤ step * size := mul_nonneg hpos.le hsize
    rw [min_eq_left (by linarith)] at hlow
    rw [max_eq_right (by linarith)] at hhigh
    simp only [le_min_iff, max_le_iff, div_le_iff₀ hpos, le_div_iff₀ hpos]
    refine ⟨⟨?_, ?_⟩, ?_, ?_⟩ <;> linarith

/-- Along one axis, steps are left of a range among them unless it keeps near the end of one. -/
theorem left_of_axis_iff [FloorRing K] {start step low high : K} {size : Nat} (hstep : step ≠ 0)
    (hle : low ≤ high) (hlow : min (start + step * 0) (start + step * size) ≤ low)
    (hhigh : high ≤ max (start + step * 0) (start + step * size)) :
    max 0 ⌊min ((low - start) / step) ((high - start) / step) + 1 / 10 ^ 6⌋ <
        min (size : Int) ⌈max ((low - start) / step) ((high - start) / step) - 1 / 10 ^ 6⌉ ↔
      ¬HugsOne start step low high := by
  obtain ⟨hfirst, hlast⟩ := count_within hstep hle hlow hhigh
  rw [hugsOne_iff hstep]
  exact left_of_range_iff (by positivity) hfirst hlast

/-- Some of the steps from a corner on span no more than all of them. -/
theorem span_le {start step a b : K} (ha : 0 ≤ a) (hab : a ≤ b) :
    min (start + step * 0) (start + step * b) ≤ min (start + step * 0) (start + step * a) ∧
      max (start + step * 0) (start + step * a) ≤ max (start + step * 0) (start + step * b) := by
  have hends : min (start + step * 0) (start + step * b) ≤ start + step * a ∧
      start + step * a ≤ max (start + step * 0) (start + step * b) := by
    rw [mul_zero, add_zero]
    rcases le_total 0 step with hpos | hneg
    · have hnear := mul_nonneg hpos ha
      have hfar := mul_le_mul_of_nonneg_left hab hpos
      exact ⟨min_le_of_left_le (by linarith), le_max_of_le_right (by linarith)⟩
    · have hnear := mul_nonpos_of_nonpos_of_nonneg hneg ha
      have hfar := mul_le_mul_of_nonpos_left hab hneg
      exact ⟨min_le_of_right_le (by linarith), le_max_of_le_left (by linarith)⟩
  exact ⟨le_min (min_le_left _ _) hends.1, max_le (le_max_left _ _) hends.2⟩

theorem span_lt {start step a : K} (hstep : step ≠ 0) (ha : a ≠ 0) :
    min (start + step * 0) (start + step * a) < max (start + step * 0) (start + step * a) := by
  rw [min_lt_max, mul_zero, add_zero]
  exact fun heq => mul_ne_zero hstep ha (left_eq_add.mp heq)

/-- A millionth of a step from a corner on keeps near the corner. -/
theorem hugsOne_span (start step : K) :
    HugsOne start step (min (start + step * 0) (start + step * (1 / 10 ^ 6)))
      (max (start + step * 0) (start + step * (1 / 10 ^ 6))) := by
  have hzero : |start + step * 0 - (start + step * (0 : Int))| ≤ |step| / 10 ^ 6 := by
    simp only [Int.cast_zero, sub_self, abs_zero]
    positivity
  have hlast : |start + step * (1 / 10 ^ 6) - (start + step * (0 : Int))| ≤ |step| / 10 ^ 6 := by
    rw [Int.cast_zero, mul_zero, add_zero, add_sub_cancel_left, mul_one_div, abs_div,
      abs_of_pos (by positivity : (0 : K) < 10 ^ 6)]
  rcases le_total (start + step * 0) (start + step * (1 / 10 ^ 6)) with hle | hle
  · rw [min_eq_left hle, max_eq_right hle]
    exact ⟨0, hzero, hlast⟩
  · rw [min_eq_right hle, max_eq_left hle]
    exact ⟨0, hlast, hzero⟩

/-- Where there are pixels, the first millionth of them along an axis is an envelope that has an
area, lies among the pixels and keeps near one edge. -/
theorem exists_hugged (axes : PixelAxes K) {columns rows : Nat} (hcolumns : 0 < columns)
    (hrows : 0 < rows) :
    ∃ sliver : Envelope K, sliver.HasArea ∧ axes.Hugs sliver ∧
      ((axes.frame.between 0 0 columns rows).minx ≤ sliver.minx ∧
        sliver.maxx ≤ (axes.frame.between 0 0 columns rows).maxx) ∧
      (axes.frame.between 0 0 columns rows).miny ≤ sliver.miny ∧
        sliver.maxy ≤ (axes.frame.between 0 0 columns rows).maxy := by
  have hsnap : (0 : K) ≤ 1 / 10 ^ 6 := by positivity
  have hwithin : (1 / 10 ^ 6 : K) ≤ columns := by
    have hone : (1 : K) ≤ columns := by exact_mod_cast hcolumns
    exact le_trans (by norm_num) hone
  have hrows' : (0 : K) < rows := by exact_mod_cast hrows
  refine ⟨axes.frame.between 0 0 (1 / 10 ^ 6) rows, ?_⟩
  cases hturned : axes.turned with
  | false =>
      simp only [Envelope.HasArea, Hugs, PixelFrame.between, place_eq, across, down, hturned,
        Bool.false_eq_true, if_false]
      exact ⟨⟨span_lt axes.dx_ne (by norm_num), span_lt axes.dy_ne hrows'.ne'⟩,
        .inl (hugsOne_span _ _), span_le hsnap hwithin, span_le hrows'.le le_rfl⟩
  | true =>
      simp only [Envelope.HasArea, Hugs, PixelFrame.between, place_eq, across, down, hturned,
        if_true]
      exact ⟨⟨span_lt axes.dx_ne hrows'.ne', span_lt axes.dy_ne (by norm_num)⟩,
        .inr (hugsOne_span _ _), span_le hrows'.le le_rfl, span_le hsnap hwithin⟩

end PixelAxes

namespace Raster

variable [FloorRing K] {r : Raster (Extended K)} {axes : PixelAxes K} {g : Envelope K}

/-- Pixels are left of an envelope in a raster unless it keeps near one edge between them. -/
theorem left_of_within_iff (columns rows : Nat) (hocc : g.Occupied)
    (hx : (axes.frame.between 0 0 columns rows).minx ≤ g.minx ∧
      g.maxx ≤ (axes.frame.between 0 0 columns rows).maxx)
    (hy : (axes.frame.between 0 0 columns rows).miny ≤ g.miny ∧
      g.maxy ≤ (axes.frame.between 0 0 columns rows).maxy) :
    (∃ rect, (PixelRect.covering (axes.frame.counted g)).clamped? columns rows = some rect) ↔
      ¬axes.Hugs g := by
  have hleft (rect : PixelRect) : (∃ part, rect.clamped? columns rows = some part) ↔
      max 0 rect.column < min (columns : Int) (rect.column + rect.width) ∧
        max 0 rect.row < min (rows : Int) (rect.row + rect.height) := by
    simp only [PixelRect.clamped?_eq_some_iff, exists_and_left, exists_eq, and_true]
  rw [hleft, PixelAxes.Hugs, not_or]
  simp only [PixelRect.covering, add_sub_cancel]
  cases hturned : axes.turned with
  | false =>
      simp only [PixelFrame.between, axes.counted_eq, axes.place_eq, PixelAxes.across,
        PixelAxes.down, hturned, Bool.false_eq_true, if_false] at hx hy ⊢
      exact and_congr (PixelAxes.left_of_axis_iff axes.dx_ne hocc.1 hx.1 hx.2)
        (PixelAxes.left_of_axis_iff axes.dy_ne hocc.2 hy.1 hy.2)
  | true =>
      simp only [PixelFrame.between, axes.counted_eq, axes.place_eq, PixelAxes.across,
        PixelAxes.down, hturned, if_true] at hx hy ⊢
      exact and_comm.trans (and_congr (PixelAxes.left_of_axis_iff axes.dx_ne hocc.1 hx.1 hx.2)
        (PixelAxes.left_of_axis_iff axes.dy_ne hocc.2 hy.1 hy.2))

omit [IsStrictOrderedRing K] in
theorem exists_finite_of_contains (hr : r.transform = axes.affine) {e : Envelope (Extended K)}
    (hcontains : r.envelope.contains e = true) : ∃ g : Envelope K, e = g.finite := by
  rw [envelope_between hr] at hcontains
  obtain ⟨g, heq, -⟩ := Envelope.exists_finite_of_contains hcontains
  exact ⟨g, heq⟩

/-- A raster can be cropped to what lies in it unless that keeps near one edge between pixels. -/
theorem exists_crop_iff (hr : r.transform = axes.affine)
    (hcontains : r.envelope.contains g.finite = true) :
    (∃ part, r.crop g.finite = .ok part) ↔ ¬axes.Hugs g := by
  rw [envelope_between hr] at hcontains
  obtain ⟨own, heq, hocc, hx, hy⟩ := Envelope.exists_finite_of_contains hcontains
  obtain rfl := Envelope.finite_injective heq
  rw [← left_of_within_iff r.columns r.rows hocc hx hy, crop_of_frame (hr.trans axes.affine_eq)]
  cases (PixelRect.covering (axes.frame.counted g)).clamped? r.columns r.rows with
  | none => simp
  | some rect => simp

/-- Where it does, cropping fails with the error that the raster is not overlapped, although it is.
-/
theorem crop_of_hugs (hr : r.transform = axes.affine)
    (hcontains : r.envelope.contains g.finite = true) (hhugs : axes.Hugs g) :
    r.crop g.finite = .error (.noOverlap g.finite r.envelope) := by
  have hnone : ¬∃ part, r.crop g.finite = .ok part :=
    fun hpart => (exists_crop_iff hr hcontains).mp hpart hhugs
  rw [crop_of_frame (hr.trans axes.affine_eq)] at hnone ⊢
  split
  next => rfl
  next rect hrect =>
    rw [hrect] at hnone
    exact (hnone ⟨_, rfl⟩).elim

/-- Every raster that has pixels has an envelope with an area in it to which it cannot be cropped.
-/
theorem exists_not_cropped (hr : r.transform = axes.affine) (hcolumns : 0 < r.columns)
    (hrows : 0 < r.rows) :
    ∃ e, e.hasArea = true ∧ r.envelope.contains e = true ∧
      r.crop e = .error (.noOverlap e r.envelope) := by
  obtain ⟨g, harea, hhugs, hx, hy⟩ := axes.exists_hugged hcolumns hrows
  have hcontains : r.envelope.contains g.finite = true := by
    rw [envelope_between hr]
    exact Envelope.contains_of_within harea.occupied hx hy
  exact ⟨g.finite, Envelope.hasArea_finite_iff.mpr harea, hcontains,
    crop_of_hugs hr hcontains hhugs⟩

end Raster

end Antimeridian
