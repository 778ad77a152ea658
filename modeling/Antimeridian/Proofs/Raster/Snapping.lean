import Antimeridian.Proofs.Raster.Slivers

/-!
# Pixels around an envelope

The pixels that are read for an envelope in a raster are those that it meets, slivers aside. They
reach each side of the envelope to within a millionth of a pixel, and beyond it by less than one.
Some are left whenever the envelope is more than two millionths of a pixel wide and high. Merged
into fewer pixels they take up the same area.
-/

namespace Antimeridian

variable {K : Type} [Field K] [LinearOrder K] [IsStrictOrderedRing K]

/-- Of the pixels that cover a rectangle of pixel coordinates, those among some columns and rows
reach every side of it that lies among these, slivers aside. -/
theorem PixelRect.clamped?_reaches [FloorRing K] {bound : Envelope K} {part : PixelRect}
    {columns rows : Nat}
    (hpart : (PixelRect.covering bound).clamped? columns rows = some part)
    (hx : 0 ≤ bound.minx ∧ bound.maxx ≤ columns) (hy : 0 ≤ bound.miny ∧ bound.maxy ≤ rows) :
    (part.column ≤ bound.minx + 1 / 10 ^ 6 ∧
        bound.maxx - 1 / 10 ^ 6 ≤ (part.column + part.width : Int)) ∧
      part.row ≤ bound.miny + 1 / 10 ^ 6 ∧
        bound.maxy - 1 / 10 ^ 6 ≤ (part.row + part.height : Int) := by
  obtain ⟨-, rfl⟩ := clamped?_eq_some_iff.mp hpart
  have hsliver : (0 : K) < 1 / 10 ^ 6 := by positivity
  -- clamping moves no end into the range, which lies among the pixels
  have hstart {z : K} (hz : 0 ≤ z) : ((max 0 ⌊z + 1 / 10 ^ 6⌋ : Int) : K) ≤ z + 1 / 10 ^ 6 := by
    rw [max_eq_right (Int.floor_nonneg.mpr (by linarith))]
    exact Int.floor_le _
  have hend {z : K} {size : Nat} (hz : z ≤ size) :
      z - 1 / 10 ^ 6 ≤ ((min (size : Int) ⌈z - 1 / 10 ^ 6⌉ : Int) : K) := by
    rw [min_eq_right (Int.ceil_le.mpr (by push_cast; linarith))]
    exact Int.le_ceil _
  simp only [covering, add_sub_cancel]
  exact ⟨⟨hstart hx.1, hend hx.2⟩, hstart hy.1, hend hy.2⟩

namespace PixelAxes

/-- Steps that reach the ends of a range of them, but for a share of a step, reach the ends of what
they are counted in, but for that share of the length of a step. -/
theorem reaches_of_count {c s low high first last share : K} (hs : s ≠ 0)
    (hfirst : first ≤ min ((low - c) / s) ((high - c) / s) + share)
    (hlast : max ((low - c) / s) ((high - c) / s) - share ≤ last) :
    min (c + s * first) (c + s * last) ≤ low + share * |s| ∧
      high ≤ max (c + s * first) (c + s * last) + share * |s| := by
  obtain ⟨hfirstLow, hfirstHigh⟩ := le_min_iff.mp (sub_le_iff_le_add.mpr hfirst)
  obtain ⟨hlastLow, hlastHigh⟩ := max_le_iff.mp (sub_le_iff_le_add.mp hlast)
  rcases lt_or_gt_of_ne hs with hneg | hpos
  · rw [le_div_iff_of_neg hneg] at hfirstHigh
    rw [div_le_iff_of_neg hneg] at hlastLow
    rw [abs_of_neg hneg]
    constructor
    · exact min_le_of_right_le (by linarith)
    · rw [← sub_le_iff_le_add]
      exact le_max_of_le_left (by linarith)
  · rw [le_div_iff₀ hpos] at hfirstLow
    rw [div_le_iff₀ hpos] at hlastHigh
    rw [abs_of_pos hpos]
    constructor
    · exact min_le_of_left_le (by linarith)
    · rw [← sub_le_iff_le_add]
      exact le_max_of_le_right (by linarith)

variable (axes : PixelAxes K) {e : Envelope K}

/-- What lies among some pixels is counted from zero to their numbers. -/
theorem counted_within {columns rows : Nat} (hocc : e.Occupied)
    (hx : (axes.frame.between 0 0 columns rows).minx ≤ e.minx ∧
      e.maxx ≤ (axes.frame.between 0 0 columns rows).maxx)
    (hy : (axes.frame.between 0 0 columns rows).miny ≤ e.miny ∧
      e.maxy ≤ (axes.frame.between 0 0 columns rows).maxy) :
    (0 ≤ (axes.frame.counted e).minx ∧ (axes.frame.counted e).maxx ≤ columns) ∧
      0 ≤ (axes.frame.counted e).miny ∧ (axes.frame.counted e).maxy ≤ rows := by
  cases hturned : axes.turned with
  | false =>
      simp only [PixelFrame.between, counted_eq, place_eq, across, down, hturned,
        Bool.false_eq_true, if_false] at hx hy ⊢
      exact ⟨count_within axes.dx_ne hocc.1 hx.1 hx.2, count_within axes.dy_ne hocc.2 hy.1 hy.2⟩
  | true =>
      simp only [PixelFrame.between, counted_eq, place_eq, across, down, hturned, if_true]
        at hx hy ⊢
      exact ⟨count_within axes.dy_ne hocc.2 hy.1 hy.2, count_within axes.dx_ne hocc.1 hx.1 hx.2⟩

/-- Pixels that reach the columns and rows of an envelope, but for a share of a pixel, reach its
sides but for that share. -/
theorem between_reaches {column row columnEnd rowEnd share : K}
    (hcolumn : column ≤ (axes.frame.counted e).minx + share ∧
      (axes.frame.counted e).maxx - share ≤ columnEnd)
    (hrow : row ≤ (axes.frame.counted e).miny + share ∧
      (axes.frame.counted e).maxy - share ≤ rowEnd) :
    ((axes.frame.between column row columnEnd rowEnd).minx ≤ e.minx + share * |axes.dx| ∧
        e.maxx ≤ (axes.frame.between column row columnEnd rowEnd).maxx + share * |axes.dx|) ∧
      (axes.frame.between column row columnEnd rowEnd).miny ≤ e.miny + share * |axes.dy| ∧
        e.maxy ≤ (axes.frame.between column row columnEnd rowEnd).maxy + share * |axes.dy| := by
  cases hturned : axes.turned with
  | false =>
      simp only [PixelFrame.between, counted_eq, place_eq, across, down, hturned,
        Bool.false_eq_true, if_false] at hcolumn hrow ⊢
      exact ⟨reaches_of_count axes.dx_ne hcolumn.1 hcolumn.2,
        reaches_of_count axes.dy_ne hrow.1 hrow.2⟩
  | true =>
      simp only [PixelFrame.between, counted_eq, place_eq, across, down, hturned, if_true]
        at hcolumn hrow ⊢
      exact ⟨reaches_of_count axes.dx_ne hrow.1 hrow.2,
        reaches_of_count axes.dy_ne hcolumn.1 hcolumn.2⟩

theorem length_le_of_hugsOne {start step low high : K} (hhugs : HugsOne start step low high) :
    high - low ≤ 2 / 10 ^ 6 * |step| := by
  obtain ⟨k, hlow, hhigh⟩ := hhugs
  have hfirst := (abs_sub_le_iff.mp hlow).2
  have hlast := (abs_sub_le_iff.mp hhigh).1
  linarith

/-- What is more than two millionths of a pixel wide and high keeps near no edge. -/
theorem not_hugs (hwide : 2 / 10 ^ 6 * |axes.dx| < e.maxx - e.minx)
    (hhigh : 2 / 10 ^ 6 * |axes.dy| < e.maxy - e.miny) : ¬axes.Hugs e := by
  rintro (hhugs | hhugs)
  · exact (length_le_of_hugsOne hhugs).not_gt hwide
  · exact (length_le_of_hugsOne hhugs).not_gt hhigh

end PixelAxes

namespace Raster

variable [FloorRing K]

/-- Whether a raster contains an envelope but for a share of one of its pixels on each side. -/
def ContainsUpTo (r : Raster (Extended K)) (share : K) (e : Envelope (Extended K)) : Prop :=
  (r.envelope.minx ≤ e.minx + .finite share * r.pixelSize.1 ∧
      e.maxx ≤ r.envelope.maxx + .finite share * r.pixelSize.1) ∧
    r.envelope.miny ≤ e.miny + .finite share * r.pixelSize.2 ∧
      e.maxy ≤ r.envelope.maxy + .finite share * r.pixelSize.2

/-- Whether some pixels of a raster are those that an envelope meets, slivers aside. -/
structure SnapsTo (r : Raster (Extended K)) (e : Envelope (Extended K)) (rect : PixelRect) :
    Prop where
  first : 0 ≤ rect.column ∧ 0 ≤ rect.row
  size : 0 < rect.width ∧ 0 < rect.height
  last : rect.column + rect.width ≤ r.columns ∧ rect.row + rect.height ≤ r.rows
  contains : (r.windowOf rect).ContainsUpTo (1 / 10 ^ 6) e
  within : (r.windowOf rect).WithinPixel e

variable {r : Raster (Extended K)} {axes : PixelAxes K} {e : Envelope (Extended K)}

/-- The pixels that cover an envelope in a raster contain it, slivers aside. -/
theorem containsUpTo_windowOf (hr : r.transform = axes.affine) {g : Envelope K} (hocc : g.Occupied)
    (hx : (axes.frame.between 0 0 r.columns r.rows).minx ≤ g.minx ∧
      g.maxx ≤ (axes.frame.between 0 0 r.columns r.rows).maxx)
    (hy : (axes.frame.between 0 0 r.columns r.rows).miny ≤ g.miny ∧
      g.maxy ≤ (axes.frame.between 0 0 r.columns r.rows).maxy) {rect : PixelRect}
    (hrect : (PixelRect.covering (axes.frame.counted g)).clamped? r.columns r.rows = some rect) :
    (r.windowOf rect).ContainsUpTo (1 / 10 ^ 6) g.finite := by
  obtain ⟨hfirst, hsize⟩ := PixelRect.clamped?_eq_some hrect
  obtain ⟨hcolumns, hrows⟩ := axes.counted_within hocc hx hy
  obtain ⟨hcolumn, hrow⟩ := PixelRect.clamped?_reaches hrect hcolumns hrows
  push_cast at hcolumn hrow
  have hreaches := axes.between_reaches hcolumn hrow
  rw [ContainsUpTo, envelope_windowOf hr hfirst hsize,
    pixelSize_windowOf (hr.trans axes.affine_eq), pixelSize_eq hr]
  simpa only [Envelope.labelled, Envelope.finite_minx, Envelope.finite_maxx, Envelope.finite_miny,
    Envelope.finite_maxy, Extended.finite_mul, Extended.finite_add, Extended.finite_le_finite]
    using hreaches

theorem isEmpty_of_wide (hr : r.transform = axes.affine)
    (hwide : .finite (2 / 10 ^ 6) * r.pixelSize.1 < e.width) : e.isEmpty = false := by
  by_contra hempty
  rw [Bool.not_eq_false] at hempty
  have hnonneg : 0 ≤ 2 / 10 ^ 6 * |axes.dx| := by positivity
  rw [pixelSize_eq hr, Envelope.width, if_pos hempty, Extended.zero_eq, Extended.finite_mul,
    Extended.finite_lt_finite] at hwide
  exact hnonneg.not_gt hwide

/-- An envelope in a raster that is more than two millionths of a pixel wide and high has numbers
as bounds, and so many of them between these. -/
theorem exists_wide (hr : r.transform = axes.affine) (hcontains : r.envelope.contains e = true)
    (hwide : .finite (2 / 10 ^ 6) * r.pixelSize.1 < e.width)
    (hhigh : .finite (2 / 10 ^ 6) * r.pixelSize.2 < e.height) :
    ∃ g : Envelope K, e = g.finite ∧ g.HasArea ∧ ¬axes.Hugs g ∧
      ((axes.frame.between 0 0 r.columns r.rows).minx ≤ g.minx ∧
        g.maxx ≤ (axes.frame.between 0 0 r.columns r.rows).maxx) ∧
      (axes.frame.between 0 0 r.columns r.rows).miny ≤ g.miny ∧
        g.maxy ≤ (axes.frame.between 0 0 r.columns r.rows).maxy := by
  rw [envelope_between hr] at hcontains
  obtain ⟨g, rfl, hocc, hx, hy⟩ := Envelope.exists_finite_of_contains hcontains
  rw [pixelSize_eq hr, Envelope.width_finite hocc, Extended.finite_mul,
    Extended.finite_lt_finite] at hwide
  rw [pixelSize_eq hr, Envelope.height_finite hocc, Extended.finite_mul,
    Extended.finite_lt_finite] at hhigh
  have hdx : 0 ≤ 2 / 10 ^ 6 * |axes.dx| := by positivity
  have hdy : 0 ≤ 2 / 10 ^ 6 * |axes.dy| := by positivity
  exact ⟨g, rfl, ⟨sub_pos.mp (hdx.trans_lt hwide), sub_pos.mp (hdy.trans_lt hhigh)⟩,
    axes.not_hugs hwide hhigh, hx, hy⟩

/-- Such an envelope meets pixels. -/
theorem exists_snapsTo (hr : r.transform = axes.affine) (hcontains : r.envelope.contains e = true)
    (hwide : .finite (2 / 10 ^ 6) * r.pixelSize.1 < e.width)
    (hhigh : .finite (2 / 10 ^ 6) * r.pixelSize.2 < e.height) :
    ∃ rect, coveredPixels? r.transform r.columns r.rows e = .ok (some rect) ∧
      r.SnapsTo e rect := by
  obtain ⟨g, rfl, harea, hfar, hx, hy⟩ := exists_wide hr hcontains hwide hhigh
  have hocc := harea.occupied
  obtain ⟨rect, hrect⟩ := (left_of_within_iff r.columns r.rows hocc hx hy).mpr hfar
  obtain ⟨hfirst, hsize⟩ := PixelRect.clamped?_eq_some hrect
  refine ⟨rect, ?_, hfirst, hsize, PixelRect.clamped?_le hrect,
    containsUpTo_windowOf hr hocc hx hy hrect,
    withinPixel_windowOf hr hocc ⟨⟨le_rfl, le_rfl⟩, le_rfl, le_rfl⟩ hrect⟩
  rw [hr, axes.affine_eq, axes.frame.coveredPixels?_eq, hrect]

end Raster

/-! ## Another size -/

namespace PixelAxes

/-- Pixels that are longer by a factor along the columns and by one along the rows. -/
def stretched (axes : PixelAxes K) {column row : K} (hcolumn : column ≠ 0) (hrow : row ≠ 0) :
    PixelAxes K :=
  { axes with
    dx := axes.dx * axes.across column row
    dy := axes.dy * axes.down column row
    dx_ne := mul_ne_zero axes.dx_ne (by unfold across; split <;> assumption)
    dy_ne := mul_ne_zero axes.dy_ne (by unfold down; split <;> assumption) }

theorem between_stretched (axes : PixelAxes K) {column row : K} (hcolumn : column ≠ 0)
    (hrow : row ≠ 0) (columns rows : K) :
    (axes.stretched hcolumn hrow).frame.between 0 0 columns rows =
      axes.frame.between 0 0 (column * columns) (row * rows) := by
  cases hturned : axes.turned <;>
    simp [PixelFrame.between, place_eq, stretched, across, down, hturned, mul_assoc]

end PixelAxes

namespace Raster

variable [FloorRing K] {r : Raster (Extended K)} {axes : PixelAxes K}

theorem resized_transform (hr : r.transform = axes.affine) {width height : Nat}
    (hcolumn : (r.columns / width : K) ≠ 0) (hrow : (r.rows / height : K) ≠ 0)
    (pixel : Nat → Nat → Nat → Pixel) :
    (r.resized width height pixel).transform = (axes.stretched hcolumn hrow).affine := by
  have hwidth : (width : K) ≠ 0 := fun hzero => hcolumn (by rw [hzero, div_zero])
  have hheight : (height : K) ≠ 0 := fun hzero => hrow (by rw [hzero, div_zero])
  cases hturned : axes.turned <;>
    simp [resized, hr, Affine.compose, Affine.scaling, PixelAxes.affine, PixelAxes.stretched,
      PixelAxes.across, PixelAxes.down, hturned, Extended.finite_div _ hwidth,
      Extended.finite_div _ hheight]

/-- Pixels at another size take up the same area. -/
theorem envelope_resized (hr : r.transform = axes.affine) (hcolumns : 0 < r.columns)
    (hrows : 0 < r.rows) {width height : Nat} (hwidth : 0 < width) (hheight : 0 < height)
    (pixel : Nat → Nat → Nat → Pixel) :
    (r.resized width height pixel).envelope = r.envelope := by
  have hwidth' : (width : K) ≠ 0 := by exact_mod_cast hwidth.ne'
  have hheight' : (height : K) ≠ 0 := by exact_mod_cast hheight.ne'
  have hcolumn : (r.columns / width : K) ≠ 0 := div_ne_zero (by exact_mod_cast hcolumns.ne') hwidth'
  have hrow : (r.rows / height : K) ≠ 0 := div_ne_zero (by exact_mod_cast hrows.ne') hheight'
  have hcover : (r.columns / width : K) * width = r.columns := div_mul_cancel₀ _ hwidth'
  have hcover' : (r.rows / height : K) * height = r.rows := div_mul_cancel₀ _ hheight'
  rw [envelope_between hr, envelope_between (resized_transform hr hcolumn hrow pixel)]
  simp only [resized, PixelAxes.between_stretched, hcover, hcover']

end Raster

end Antimeridian
