import Antimeridian.Proofs.Envelope.Clamping
import Antimeridian.Proofs.Grid.Frames
import Antimeridian.Proofs.Raster.Cropping

/-!
# Windows of rasters

The pixels of a raster may be counted along the axes of its system in either direction, and its
columns along either of them. Cropping such a raster to an envelope takes a window of it: pixels
that stay as they are and where they are, and that reach beyond the envelope by less than one of
them on each side.
-/

namespace Antimeridian

/-- Pixels along the axes of a system: the corner they are counted from, and the steps from one to
the next along the horizontal and the vertical axis. In a turned raster the columns follow one
another along the vertical axis. -/
structure PixelAxes (K : Type) [Zero K] where
  x : K
  y : K
  dx : K
  dy : K
  turned : Bool
  dx_ne : dx ≠ 0
  dy_ne : dy ≠ 0

namespace PixelAxes

variable {K : Type} [Field K] (axes : PixelAxes K)

/-- The transform from columns and rows to places. -/
def affine : Affine (Extended K) :=
  if axes.turned then
    ⟨.finite 0, .finite axes.dx, .finite axes.x, .finite axes.dy, .finite 0, .finite axes.y⟩
  else ⟨.finite axes.dx, .finite 0, .finite axes.x, .finite 0, .finite axes.dy, .finite axes.y⟩

/-- Of two numbers for the columns and the rows, that along the horizontal axis. -/
def across {α : Type} (column row : α) : α := if axes.turned then row else column

/-- Of two numbers for the columns and the rows, that along the vertical axis. -/
def down {α : Type} (column row : α) : α := if axes.turned then column else row

/-- The directions the pixels are counted in. -/
def frame : PixelFrame K where
  a := axes.across axes.dx 0
  b := axes.across 0 axes.dx
  c := axes.x
  d := axes.down axes.dy 0
  e := axes.down 0 axes.dy
  f := axes.y
  invertible := by
    have hdx := axes.dx_ne
    have hdy := axes.dy_ne
    cases hturned : axes.turned <;> simp [across, down, hturned, hdx, hdy]

theorem affine_eq : axes.affine = axes.frame.affine := by
  cases hturned : axes.turned <;> simp [affine, PixelFrame.affine, frame, across, down, hturned]

theorem place_eq (column row : K) :
    axes.frame.place column row =
      (axes.x + axes.dx * axes.across column row, axes.y + axes.dy * axes.down column row) := by
  cases hturned : axes.turned <;>
    simp [PixelFrame.place, frame, across, down, hturned, add_comm]

theorem count_eq (x y : K) :
    axes.frame.count x y =
      (axes.across ((x - axes.x) / axes.dx) ((y - axes.y) / axes.dy),
        axes.down ((x - axes.x) / axes.dx) ((y - axes.y) / axes.dy)) := by
  have hdx := axes.dx_ne
  have hdy := axes.dy_ne
  cases hturned : axes.turned <;>
  · simp only [PixelFrame.count, frame, across, down, hturned, Bool.false_eq_true, if_false,
      if_true, Prod.mk.injEq]
    constructor <;>
    · field_simp
      ring

/-- Counted from another corner, pixels run along the axes as before. -/
theorem exists_countedFrom (column row : K) :
    ∃ moved : PixelAxes K, moved.frame = axes.frame.countedFrom column row :=
  ⟨{ axes with
      x := (axes.frame.place column row).1
      y := (axes.frame.place column row).2 }, rfl⟩

variable [LinearOrder K]

/-- The columns and rows of an envelope are the steps to its western and eastern ends and those to
its southern and northern ends, whichever of these come first. -/
theorem counted_eq (e : Envelope K) :
    axes.frame.counted e =
      ⟨axes.across (min ((e.minx - axes.x) / axes.dx) ((e.maxx - axes.x) / axes.dx))
          (min ((e.miny - axes.y) / axes.dy) ((e.maxy - axes.y) / axes.dy)),
        axes.down (min ((e.minx - axes.x) / axes.dx) ((e.maxx - axes.x) / axes.dx))
          (min ((e.miny - axes.y) / axes.dy) ((e.maxy - axes.y) / axes.dy)),
        axes.across (max ((e.minx - axes.x) / axes.dx) ((e.maxx - axes.x) / axes.dx))
          (max ((e.miny - axes.y) / axes.dy) ((e.maxy - axes.y) / axes.dy)),
        axes.down (max ((e.minx - axes.x) / axes.dx) ((e.maxx - axes.x) / axes.dx))
          (max ((e.miny - axes.y) / axes.dy) ((e.maxy - axes.y) / axes.dy)), none⟩ := by
  -- the north-western corner is looked at first
  rw [min_comm ((e.miny - axes.y) / axes.dy), max_comm ((e.miny - axes.y) / axes.dy)]
  cases hturned : axes.turned <;> simp [PixelFrame.counted, count_eq, across, down, hturned]

variable [IsStrictOrderedRing K]

/-- A number of steps that exceeds those within a range by less than one ends less than one step
beyond the range. -/
theorem near_of_count {c s low high i : K} (hs : s ≠ 0) (hle : low ≤ high)
    (hlow : min ((low - c) / s) ((high - c) / s) - 1 < i)
    (hhigh : i < max ((low - c) / s) ((high - c) / s) + 1) :
    low - |s| < c + s * i ∧ c + s * i < high + |s| := by
  rcases lt_or_gt_of_ne hs with hneg | hpos
  · have horder : (high - c) / s ≤ (low - c) / s :=
      (div_le_div_right_of_neg hneg).mpr (sub_le_sub_right hle c)
    rw [min_eq_right horder, sub_lt_iff_lt_add, div_lt_iff_of_neg hneg] at hlow
    rw [max_eq_left horder, ← sub_lt_iff_lt_add, lt_div_iff_of_neg hneg] at hhigh
    rw [abs_of_neg hneg]
    constructor <;> linarith
  · have horder : (low - c) / s ≤ (high - c) / s :=
      (div_le_div_iff_of_pos_right hpos).mpr (sub_le_sub_right hle c)
    rw [min_eq_left horder, sub_lt_iff_lt_add, div_lt_iff₀ hpos] at hlow
    rw [max_eq_right horder, ← sub_lt_iff_lt_add, lt_div_iff₀ hpos] at hhigh
    rw [abs_of_pos hpos]
    constructor <;> linarith

/-- A corner whose column and row exceed those of an envelope by less than one lies less than a
pixel beyond the envelope. -/
theorem near_place {e : Envelope K} (hocc : e.Occupied) (column row : K)
    (hcolumn : (axes.frame.counted e).minx - 1 < column ∧
      column < (axes.frame.counted e).maxx + 1)
    (hrow : (axes.frame.counted e).miny - 1 < row ∧ row < (axes.frame.counted e).maxy + 1) :
    (e.minx - |axes.dx| < (axes.frame.place column row).1 ∧
        (axes.frame.place column row).1 < e.maxx + |axes.dx|) ∧
      e.miny - |axes.dy| < (axes.frame.place column row).2 ∧
        (axes.frame.place column row).2 < e.maxy + |axes.dy| := by
  cases hturned : axes.turned with
  | false =>
      simp only [counted_eq, place_eq, across, down, hturned, Bool.false_eq_true, if_false]
        at hcolumn hrow ⊢
      exact ⟨near_of_count axes.dx_ne hocc.1 hcolumn.1 hcolumn.2,
        near_of_count axes.dy_ne hocc.2 hrow.1 hrow.2⟩
  | true =>
      simp only [counted_eq, place_eq, across, down, hturned, if_true] at hcolumn hrow ⊢
      exact ⟨near_of_count axes.dx_ne hocc.1 hrow.1 hrow.2,
        near_of_count axes.dy_ne hocc.2 hcolumn.1 hcolumn.2⟩

end PixelAxes

namespace Raster

section Size

variable {α : Type} [Scalar α]

/-- The extents of a pixel along the axes of the system. -/
def pixelSize (r : Raster α) : α × α :=
  (Scalar.abs r.transform.a + Scalar.abs r.transform.b,
    Scalar.abs r.transform.d + Scalar.abs r.transform.e)

/-- Whether a raster reaches beyond an envelope by less than one of its pixels on each side. -/
def WithinPixel (r : Raster α) (e : Envelope α) : Prop :=
  (e.minx - r.pixelSize.1 < r.envelope.minx ∧ r.envelope.maxx < e.maxx + r.pixelSize.1) ∧
    e.miny - r.pixelSize.2 < r.envelope.miny ∧ r.envelope.maxy < e.maxy + r.pixelSize.2

end Size

variable {K : Type} [Field K] [LinearOrder K] [FloorRing K]

/-- The pixels of a raster from a column and a row on, as they are and where they are. -/
structure IsWindow (part whole : Raster (Extended K)) (column row : Nat) : Prop where
  columns : column + part.columns ≤ whole.columns
  rows : row + part.rows ≤ whole.rows
  bands_eq : part.bands = whole.bands
  pixel_eq : ∀ b y x, part.pixel b y x = whole.pixel b (row + y) (column + x)
  place_eq : ∀ x y : K, part.transform.apply (.finite x) (.finite y) =
    whole.transform.apply (.finite (column + x)) (.finite (row + y))
  crs_eq : part.crs = whole.crs
  pixelType_eq : part.pixelType = whole.pixelType
  nodata_eq : part.nodata = whole.nodata
  bandNames_eq : part.bandNames = whole.bandNames

theorem isWindow_self (r : Raster (Extended K)) : r.IsWindow r 0 0 where
  columns := by simp
  rows := by simp
  bands_eq := rfl
  pixel_eq := by simp
  place_eq := by simp
  crs_eq := rfl
  pixelType_eq := rfl
  nodata_eq := rfl
  bandNames_eq := rfl

variable [IsStrictOrderedRing K] {r : Raster (Extended K)} {axes : PixelAxes K}

theorem pixelSize_eq (hr : r.transform = axes.affine) :
    r.pixelSize = (.finite |axes.dx|, .finite |axes.dy|) := by
  cases hturned : axes.turned <;> simp [pixelSize, hr, PixelAxes.affine, hturned]

omit [IsStrictOrderedRing K] in
/-- The bounding envelope of the corners of a rectangle, one after the other around it. -/
theorem boundCorners_around (x y x' y' : K) (crs : Option Crs) :
    Grid.boundCorners (.finite x, .finite y) (.finite x', .finite y) (.finite x', .finite y')
      (.finite x, .finite y') crs =
        (⟨min x x', min y y', max x x', max y y', crs⟩ : Envelope K).finite := by
  simp [Grid.boundCorners, Scalar.minimum, Scalar.maximum, Envelope.finite]

omit [IsStrictOrderedRing K] in
theorem envelope_between (hr : r.transform = axes.affine) :
    r.envelope = ((axes.frame.between 0 0 r.columns r.rows).labelled r.crs).finite := by
  cases hturned : axes.turned with
  | false =>
      simp [envelope, bounds, hr, PixelAxes.affine, hturned, PixelFrame.between, axes.place_eq,
        PixelAxes.across, PixelAxes.down, Envelope.finite, Envelope.labelled, min_comm, max_comm]
  | true =>
      have hcorner (column row : K) := axes.frame.apply_affine column row
      simp only [← axes.affine_eq, axes.place_eq, PixelAxes.across, PixelAxes.down, hturned,
        if_true] at hcorner
      have hsheared : (r.transform.b == 0 && r.transform.d == 0) = false := by
        simp [hr, PixelAxes.affine, hturned, axes.dx_ne]
      have hfirst : (r.transform.c, r.transform.f) = (.finite axes.x, .finite axes.y) := by
        simp [hr, PixelAxes.affine, hturned]
      rw [envelope, bounds, hsheared, hfirst]
      simp only [Bool.false_eq_true, if_false, hr, Extended.ofInt_eq, Extended.zero_eq, hcorner,
        Int.cast_natCast, mul_zero, add_zero, boundCorners_around, Envelope.finite_minx,
        Envelope.finite_miny, Envelope.finite_maxx, Envelope.finite_maxy, Extended.min_finite,
        Extended.max_finite]
      simp [PixelFrame.between, axes.place_eq, PixelAxes.across, PixelAxes.down, hturned,
        Envelope.finite, Envelope.labelled]

omit [IsStrictOrderedRing K] in
theorem isWindow_window {frame : PixelFrame K} (hr : r.transform = frame.affine)
    {column row width height : Nat} (hcolumns : column + width ≤ r.columns)
    (hrows : row + height ≤ r.rows) : (r.window column row width height).IsWindow r column row where
  columns := hcolumns
  rows := hrows
  bands_eq := rfl
  pixel_eq := fun _ _ _ => rfl
  place_eq := by
    intro x y
    rw [window_transform_of_frame hr, hr, PixelFrame.apply_affine, PixelFrame.apply_affine,
      PixelFrame.place_countedFrom]
  crs_eq := rfl
  pixelType_eq := rfl
  nodata_eq := rfl
  bandNames_eq := rfl

omit [IsStrictOrderedRing K] in
/-- The pixels of a window run along the axes, too. -/
theorem exists_axes_of_window (hr : r.transform = axes.affine) (column row width height : Nat) :
    ∃ moved : PixelAxes K, moved.frame = axes.frame.countedFrom column row ∧
      (r.window column row width height).transform = moved.affine := by
  obtain ⟨moved, hmoved⟩ := axes.exists_countedFrom column row
  refine ⟨moved, hmoved, ?_⟩
  rw [window_transform_of_frame (hr.trans axes.affine_eq), moved.affine_eq, hmoved]

omit [IsStrictOrderedRing K] in
/-- A window lies between its corners in the raster. -/
theorem envelope_window (hr : r.transform = axes.affine) (column row width height : Nat) :
    (r.window column row width height).envelope =
      ((axes.frame.between column row (column + width) (row + height)).labelled r.crs).finite := by
  obtain ⟨moved, hmoved, hwindow⟩ := exists_axes_of_window hr column row width height
  rw [envelope_between hwindow, hmoved, PixelFrame.between_countedFrom, add_zero, add_zero]
  rfl

theorem withinPixel_of_encloses {width height : K}
    (hsize : r.pixelSize = (.finite width, .finite height)) {own e : Envelope K}
    (hown : r.envelope = own.finite) {f : Envelope (Extended K)} (hf : f.Encloses e)
    (hx : e.minx - width < own.minx ∧ own.maxx < e.maxx + width)
    (hy : e.miny - height < own.miny ∧ own.maxy < e.maxy + height) : r.WithinPixel f := by
  rw [WithinPixel, hown, hsize]
  exact ⟨⟨Extended.sub_finite_lt hf.1.1 hx.1, Extended.finite_lt_add hf.1.2 hx.2⟩,
    Extended.sub_finite_lt hf.2.1 hy.1, Extended.finite_lt_add hf.2.2 hy.2⟩

theorem withinPixel_of_contains (hr : r.transform = axes.affine) {f : Envelope (Extended K)}
    (hcontains : f.contains r.envelope = true) : r.WithinPixel f := by
  have hown := envelope_between hr
  rw [hown] at hcontains
  simp only [Envelope.contains, Bool.and_eq_true, decide_eq_true_eq] at hcontains
  obtain ⟨⟨⟨⟨-, hwest⟩, heast⟩, hsouth⟩, hnorth⟩ := hcontains
  have hdx := abs_pos.mpr axes.dx_ne
  have hdy := abs_pos.mpr axes.dy_ne
  exact withinPixel_of_encloses (pixelSize_eq hr) hown ⟨⟨hwest, heast⟩, hsouth, hnorth⟩
    ⟨sub_lt_self _ hdx, lt_add_of_pos_right _ hdx⟩ ⟨sub_lt_self _ hdy, lt_add_of_pos_right _ hdy⟩

omit [IsStrictOrderedRing K] in
theorem envelope_windowOf (hr : r.transform = axes.affine) {rect : PixelRect}
    (hfirst : 0 ≤ rect.column ∧ 0 ≤ rect.row) (hsize : 0 < rect.width ∧ 0 < rect.height) :
    (r.windowOf rect).envelope = ((axes.frame.between rect.column rect.row
      (rect.column + rect.width) (rect.row + rect.height)).labelled r.crs).finite := by
  obtain ⟨column, row, width, height⟩ := rect
  lift column to ℕ using hfirst.1
  lift row to ℕ using hfirst.2
  lift width to ℕ using hsize.1.le
  lift height to ℕ using hsize.2.le
  simpa only [windowOf, Int.toNat_natCast, Int.cast_natCast]
    using envelope_window hr column row width height

omit [IsStrictOrderedRing K] in
/-- Pixels that are cut out keep their size. -/
theorem pixelSize_windowOf {frame : PixelFrame K} (hr : r.transform = frame.affine)
    (rect : PixelRect) : (r.windowOf rect).pixelSize = r.pixelSize := by
  rw [pixelSize, pixelSize, windowOf, window_transform_of_frame hr, hr]
  rfl

/-- The pixels that cover an envelope reach less than a pixel beyond it. -/
theorem withinPixel_windowOf (hr : r.transform = axes.affine) {e : Envelope K} (hocc : e.Occupied)
    {f : Envelope (Extended K)} (hf : f.Encloses e) {rect : PixelRect}
    (hrect : (PixelRect.covering (axes.frame.counted e)).clamped? r.columns r.rows = some rect) :
    (r.windowOf rect).WithinPixel f := by
  obtain ⟨hstart, hwidth, hheight⟩ := PixelRect.clamped?_eq_some hrect
  obtain ⟨hx, hy⟩ := PixelRect.clamped?_covering hrect
  have hwidth' : (0 : K) < rect.width := by exact_mod_cast hwidth
  have hheight' : (0 : K) < rect.height := by exact_mod_cast hheight
  push_cast at hx hy
  -- both corners of the window are near
  have hfirst := axes.near_place hocc rect.column rect.row
    ⟨hx.1, by linarith [hx.2]⟩ ⟨hy.1, by linarith [hy.2]⟩
  have hlast := axes.near_place hocc (rect.column + rect.width) (rect.row + rect.height)
    ⟨by linarith [hx.1], hx.2⟩ ⟨by linarith [hy.1], hy.2⟩
  have hsize := (pixelSize_windowOf (hr.trans axes.affine_eq) rect).trans (pixelSize_eq hr)
  exact withinPixel_of_encloses hsize (envelope_windowOf hr hstart ⟨hwidth, hheight⟩) hf
    ⟨lt_min hfirst.1.1 hlast.1.1, max_lt hfirst.1.2 hlast.1.2⟩
    ⟨lt_min hfirst.2.1 hlast.2.1, max_lt hfirst.2.2 hlast.2.2⟩

/-- Cropping to an envelope with points takes a window that reaches less than a pixel beyond it. -/
theorem exists_isWindow_of_crop (hr : r.transform = axes.affine) {e : Envelope K}
    (hocc : e.Occupied) {f : Envelope (Extended K)} (hf : f.Encloses e)
    {part : Raster (Extended K)} (hok : r.crop e.finite = .ok part) :
    (∃ column row, part.IsWindow r column row) ∧ part.WithinPixel f := by
  rw [crop_of_frame (hr.trans axes.affine_eq)] at hok
  split at hok
  next => contradiction
  next rect hrect =>
    cases hok
    obtain ⟨hstart, hsize⟩ := PixelRect.clamped?_eq_some hrect
    obtain ⟨hcolumns, hrows⟩ := PixelRect.clamped?_le hrect
    exact ⟨⟨rect.column.toNat, rect.row.toNat, isWindow_window (hr.trans axes.affine_eq)
      (by omega) (by omega)⟩, withinPixel_windowOf hr hocc hf hrect⟩

end Raster

end Antimeridian
