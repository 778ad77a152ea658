import Antimeridian.Proofs.Envelope.Depth
import Antimeridian.Proofs.Geometry.Gathering
import Antimeridian.Proofs.Grid.Covering

/-!
# North-up grids

Pixels of one size, counted to the east and to the south from a corner. Covering an envelope with
whole pixels loses slivers of it only: a point that lies deeper in the envelope lies in the pixels.
-/

namespace Antimeridian

theorem Grid.make_eq_ok {α : Type} {rect : PixelRect} {transform : Affine α}
    {crs : Except (Failure α) Crs} {g : Grid α} (hok : Grid.make rect transform crs = .ok g) :
    (0 < rect.width ∧ 0 < rect.height) ∧ g.transform = transform ∧ g.rect = rect ∧
      crs = .ok g.crs := by
  rw [Grid.make] at hok
  split at hok
  next hsize =>
    obtain ⟨own, hown, hok⟩ := bind_eq_ok_iff.mp hok
    cases hok
    exact ⟨hsize, rfl, rfl, hown⟩
  next => contradiction

/-- Pixels counted to the east and to the south: the corner they are counted from and their size. -/
structure NorthUp (K : Type) [Zero K] [LT K] where
  west : K
  north : K
  width : K
  height : K
  width_pos : 0 < width
  height_pos : 0 < height

namespace NorthUp

variable {K : Type} [Field K] [LinearOrder K] (u : NorthUp K)

/-- The transform from columns and rows to places. -/
def affine : Affine (Extended K) where
  a := .finite u.width
  b := .finite 0
  c := .finite u.west
  d := .finite 0
  e := .finite (-u.height)
  f := .finite u.north

/-- The extent of a rectangle of pixels. -/
def extent (rect : PixelRect) : Envelope K where
  minx := u.west + u.width * rect.column
  miny := u.north - u.height * (rect.row + rect.height : Int)
  maxx := u.west + u.width * (rect.column + rect.width : Int)
  maxy := u.north - u.height * rect.row

/-- The directions the pixels are counted in. -/
def frame : PixelFrame K where
  a := u.width
  b := 0
  c := u.west
  d := 0
  e := -u.height
  f := u.north
  invertible := by simp [u.width_pos.ne', u.height_pos.ne']

theorem affine_eq : u.affine = u.frame.affine := rfl

theorem count_eq (x y : K) :
    u.frame.count x y = ((x - u.west) / u.width, (u.north - y) / u.height) := by
  have hwidth := u.width_pos.ne'
  have hheight := u.height_pos.ne'
  simp only [PixelFrame.count, frame, Prod.mk.injEq]
  constructor <;>
  · field_simp
    ring

/-- Columns and rows run along the axes, so that two corners have all those of the four. -/
theorem bounding_eq (e : Envelope K) : u.frame.bounding e = u.frame.counted e := by
  simp [PixelFrame.bounding, PixelFrame.counted, Envelope.fourCorners, least, greatest, count_eq]

variable [FloorRing K]

@[simp] theorem apply_affine (x y : K) : u.affine.apply (.finite x) (.finite y) =
    (.finite (u.west + u.width * x), .finite (u.north - u.height * y)) := by
  simp only [Affine.apply, affine, Extended.finite_mul, Extended.finite_add, Prod.mk.injEq,
    Extended.finite.injEq]
  constructor <;> ring

variable [IsStrictOrderedRing K]

omit [FloorRing K] in
/-- The columns of an envelope run from its west to its east, its rows from its north to its
south. -/
theorem counted_eq {e : Envelope K} (hocc : e.Occupied) :
    u.frame.counted e =
      ⟨(e.minx - u.west) / u.width, (u.north - e.maxy) / u.height,
        (e.maxx - u.west) / u.width, (u.north - e.miny) / u.height, none⟩ := by
  have hx : (e.minx - u.west) / u.width ≤ (e.maxx - u.west) / u.width :=
    (div_le_div_iff_of_pos_right u.width_pos).mpr (sub_le_sub_right hocc.1 _)
  have hy : (u.north - e.maxy) / u.height ≤ (u.north - e.miny) / u.height :=
    (div_le_div_iff_of_pos_right u.height_pos).mpr (sub_le_sub_left hocc.2 _)
  simp only [PixelFrame.counted, count_eq, min_eq_left hx, max_eq_right hx, min_eq_left hy,
    max_eq_right hy]

theorem pixelsOf_eq {g : Grid (Extended K)} (hg : g.transform = u.affine) (e : Envelope K) :
    g.pixelsOf e.finite = .ok (PixelRect.covering (u.frame.counted e)) := by
  rw [u.frame.pixelsOf_of_frame hg, bounding_eq]

omit [IsStrictOrderedRing K] in
/-- The bounding envelope of the corners of a rectangle, each given once. -/
theorem boundCorners_finite {west south east north : K} (hx : west ≤ east) (hy : south ≤ north)
    (crs : Option Crs) :
    Grid.boundCorners (.finite west, .finite north) (.finite east, .finite south)
      (.finite west, .finite south) (.finite east, .finite north) crs =
        (⟨west, south, east, north, crs⟩ : Envelope K).finite := by
  simp [Grid.boundCorners, Scalar.minimum, Scalar.maximum, hx, hy, Envelope.finite]

omit [FloorRing K] in
theorem extent_occupied {rect : PixelRect} (hwidth : 0 ≤ rect.width) (hheight : 0 ≤ rect.height) :
    (u.extent rect).Occupied := by
  have hcolumns : (rect.column : K) ≤ (rect.column + rect.width : Int) := by
    exact_mod_cast le_add_of_nonneg_right hwidth
  have hrows : (rect.row : K) ≤ (rect.row + rect.height : Int) := by
    exact_mod_cast le_add_of_nonneg_right hheight
  constructor
  · exact add_le_add_right (mul_le_mul_of_nonneg_left hcolumns u.width_pos.le) _
  · exact sub_le_sub_left (mul_le_mul_of_nonneg_left hrows u.height_pos.le) _

omit [FloorRing K] in
theorem size_pos {rect : PixelRect} (harea : (u.extent rect).HasArea) :
    0 < rect.width ∧ 0 < rect.height := by
  obtain ⟨hx, hy⟩ := harea
  constructor
  · have hlt := lt_of_mul_lt_mul_left (lt_of_add_lt_add_left hx) u.width_pos.le
    have hcolumns : rect.column < rect.column + rect.width := by exact_mod_cast hlt
    omega
  · have hlt := lt_of_mul_lt_mul_left ((sub_lt_sub_iff_left _).mp hy) u.height_pos.le
    have hrows : rect.row < rect.row + rect.height := by exact_mod_cast hlt
    omega

theorem grid_envelope_eq {g : Grid (Extended K)} (hg : g.transform = u.affine) :
    g.envelope = ((u.extent g.rect).labelled g.crs).finite := by
  have hocc : (u.extent g.rect).Occupied := u.extent_occupied g.width_pos.le g.height_pos.le
  obtain ⟨hx, hy⟩ := hocc
  have hplace (column row : Int) : g.place column row =
      (.finite (u.west + u.width * column), .finite (u.north - u.height * row)) := by
    rw [Grid.place, hg, Extended.ofInt_eq, Extended.ofInt_eq, apply_affine]
  simp only [Grid.envelope, hplace]
  exact boundCorners_finite hx hy (some g.crs)

/-! ## Dividing an envelope -/

omit [FloorRing K] in
/-- The pixels that divide an envelope with an area into columns and rows, some of them given as a
rectangle. -/
def dividing {e : Envelope K} (harea : e.HasArea) {rect : PixelRect}
    (hsize : 0 < rect.width ∧ 0 < rect.height) : NorthUp K where
  west := e.minx - (e.maxx - e.minx) / rect.width * rect.column
  north := e.maxy + (e.maxy - e.miny) / rect.height * rect.row
  width := (e.maxx - e.minx) / rect.width
  height := (e.maxy - e.miny) / rect.height
  width_pos := div_pos (sub_pos.mpr harea.1) (Int.cast_pos.mpr hsize.1)
  height_pos := div_pos (sub_pos.mpr harea.2) (Int.cast_pos.mpr hsize.2)

theorem ofEnvelope_eq {e : Envelope K} (harea : e.HasArea) {rect : PixelRect}
    (hsize : 0 < rect.width ∧ 0 < rect.height) :
    Grid.ofEnvelope e.finite rect =
      Grid.make rect (dividing harea hsize).affine (Crs.required e.crs) := by
  have hcolumns : (rect.width : K) ≠ 0 := Int.cast_ne_zero.mpr hsize.1.ne'
  have hrows : (rect.height : K) ≠ 0 := Int.cast_ne_zero.mpr hsize.2.ne'
  have hcounted : ¬(rect.width = 0 || rect.height = 0) = true := by
    simp [hsize.1.ne', hsize.2.ne']
  rw [Grid.ofEnvelope, Envelope.isEmpty_finite harea.occupied, Affine.overBounds, if_neg hcounted]
  have htransform : ((Affine.translation (.finite e.minx) (.finite e.maxy)).compose
      (.scaling ((.finite e.maxx - .finite e.minx) / Scalar.ofInt rect.width)
        ((.finite e.miny - .finite e.maxy) / Scalar.ofInt rect.height))).compose
      (.translation (Scalar.ofInt (-rect.column)) (Scalar.ofInt (-rect.row))) =
        (dividing harea hsize).affine := by
    simp only [Affine.compose, Affine.translation, Affine.scaling, affine, dividing,
      Affine.mk.injEq, Extended.one_eq, Extended.zero_eq, Extended.ofInt_eq, Extended.finite_sub,
      Extended.finite_div _ hcolumns, Extended.finite_div _ hrows, Extended.finite_mul,
      Extended.finite_add, Extended.finite.injEq, Int.cast_neg]
    refine ⟨?_, ?_, ?_, ?_, ?_, ?_⟩ <;> ring
  rw [← htransform]
  rfl

/-- The grid over an envelope with an area is north-up. -/
theorem exists_of_ofEnvelope {e : Envelope K} (harea : e.HasArea) {rect : PixelRect}
    {g : Grid (Extended K)} (hok : Grid.ofEnvelope e.finite rect = .ok g) :
    ∃ u : NorthUp K, g.transform = u.affine ∧ g.rect = rect ∧ e.crs = some g.crs := by
  have hsize : 0 < rect.width ∧ 0 < rect.height := by
    rw [Grid.ofEnvelope, Envelope.isEmpty_finite harea.occupied] at hok
    obtain ⟨transform, -, hok⟩ := bind_eq_ok_iff.mp hok
    exact (Grid.make_eq_ok hok).1
  rw [ofEnvelope_eq harea hsize] at hok
  obtain ⟨-, hg, hrect, hcrs⟩ := Grid.make_eq_ok hok
  refine ⟨dividing harea hsize, hg, hrect, ?_⟩
  cases hown : e.crs with
  | none => simp [hown, Crs.required] at hcrs
  | some own =>
      simp only [hown, Crs.required, Except.ok.injEq] at hcrs
      rw [hcrs]

/-- Divided into columns and rows, an envelope takes up what it did. -/
theorem extent_dividing {e : Envelope K} (harea : e.HasArea) {rect : PixelRect}
    (hsize : 0 < rect.width ∧ 0 < rect.height) :
    (dividing harea hsize).extent rect = { e with crs := none } := by
  have hcolumns : (rect.width : K) ≠ 0 := Int.cast_ne_zero.mpr hsize.1.ne'
  have hrows : (rect.height : K) ≠ 0 := Int.cast_ne_zero.mpr hsize.2.ne'
  simp only [extent, dividing, Envelope.mk.injEq, Int.cast_add, and_true]
  refine ⟨?_, ?_, ?_, ?_⟩ <;>
  · field_simp
    ring

/-- What a rectangle of pixels takes up is covered by these pixels and no others. -/
theorem covering_extent {rect : PixelRect} (hcolumns : 0 ≤ rect.width) (hrows : 0 ≤ rect.height) :
    PixelRect.covering (u.frame.counted (u.extent rect)) = rect := by
  have hwidth := u.width_pos.ne'
  have hheight := u.height_pos.ne'
  have hfloor (n : Int) : ⌊(n : K) + 1 / 10 ^ 6⌋ = n := by
    rw [Int.floor_intCast_add, add_eq_left, Int.floor_eq_zero_iff]
    norm_num
  have hceil (n : Int) : ⌈(n : K) - 1 / 10 ^ 6⌉ = n := by
    rw [sub_eq_add_neg, Int.ceil_intCast_add, add_eq_left, Int.ceil_eq_zero_iff]
    norm_num
  have hcounted : u.frame.counted (u.extent rect) =
      ⟨rect.column, rect.row, (rect.column + rect.width : Int), (rect.row + rect.height : Int),
        none⟩ := by
    rw [u.counted_eq (u.extent_occupied hcolumns hrows)]
    simp [extent, hwidth, hheight]
  simp only [hcounted, PixelRect.covering, hfloor, hceil, add_sub_cancel_left]

/-! ## Depth -/

variable {u} {e : Envelope K} {m s : K} {p : K × K}

/-- The pixels that cover an envelope lose less than a sliver of it. -/
theorem deep_covering (hocc : e.Occupied) (hdeep : e.Deep m p) (hwidth : u.width ≤ 10 ^ 6 * s)
    (hheight : u.height ≤ 10 ^ 6 * s) :
    (u.extent (PixelRect.covering (u.frame.counted e))).Deep (m - s) p := by
  rw [u.counted_eq hocc]
  obtain ⟨⟨hwest, heast⟩, hsouth, hnorth⟩ := hdeep
  have hw := u.width_pos
  have hh := u.height_pos
  have hcolumn := Int.floor_le ((e.minx - u.west) / u.width + 1 / 10 ^ 6)
  have hcolumnEnd := Int.le_ceil ((e.maxx - u.west) / u.width - 1 / 10 ^ 6)
  have hrow := Int.floor_le ((u.north - e.maxy) / u.height + 1 / 10 ^ 6)
  have hrowEnd := Int.le_ceil ((u.north - e.miny) / u.height - 1 / 10 ^ 6)
  have hleft := mul_le_mul_of_nonneg_left hcolumn hw.le
  have hright := mul_le_mul_of_nonneg_left hcolumnEnd hw.le
  have htop := mul_le_mul_of_nonneg_left hrow hh.le
  have hbottom := mul_le_mul_of_nonneg_left hrowEnd hh.le
  simp only [mul_add, mul_sub, mul_div_cancel₀ _ hw.ne', mul_div_cancel₀ _ hh.ne'] at *
  refine ⟨⟨?_, ?_⟩, ?_, ?_⟩
  · simp only [extent, PixelRect.covering]
    linarith
  · simp only [extent, PixelRect.covering, add_sub_cancel]
    linarith
  · simp only [extent, PixelRect.covering, add_sub_cancel]
    linarith
  · simp only [extent, PixelRect.covering]
    linarith

/-- Of the pixels around a point that lies deep in a grid, some are left among those of the grid. -/
theorem exists_clamped {rect : PixelRect} {columns rows : Nat} (hrect : (u.extent rect).Deep m p)
    (hwhole : (u.extent ⟨0, 0, columns, rows⟩).Deep m p) (hm : 0 < m) :
    ∃ part, rect.clamped? columns rows = some part ∧ (u.extent part).Deep m p := by
  obtain ⟨⟨hwest, heast⟩, hsouth, hnorth⟩ := hrect
  obtain ⟨⟨hwest', heast'⟩, hsouth', hnorth'⟩ := hwhole
  simp only [extent, zero_add] at hwest heast hsouth hnorth hwest' heast' hsouth' hnorth'
  have hleft : u.west + u.width * (max 0 rect.column : Int) + m ≤ p.1 := by
    rcases max_choice 0 rect.column with heq | heq <;> rwa [heq]
  have hright : p.1 + m ≤
      u.west + u.width * (min (columns : Int) (rect.column + rect.width) : Int) := by
    rcases min_choice (columns : Int) (rect.column + rect.width) with heq | heq <;> rwa [heq]
  have htop : p.2 + m ≤ u.north - u.height * (max 0 rect.row : Int) := by
    rcases max_choice 0 rect.row with heq | heq <;> rwa [heq]
  have hbottom : u.north - u.height * (min (rows : Int) (rect.row + rect.height) : Int) + m ≤
      p.2 := by
    rcases min_choice (rows : Int) (rect.row + rect.height) with heq | heq <;> rwa [heq]
  have hcolumns : max 0 rect.column < min (columns : Int) (rect.column + rect.width) := by
    have hlt : u.width * (max 0 rect.column : Int) <
        u.width * (min (columns : Int) (rect.column + rect.width) : Int) := by linarith
    exact Int.cast_lt.mp (lt_of_mul_lt_mul_left hlt u.width_pos.le)
  have hrows : max 0 rect.row < min (rows : Int) (rect.row + rect.height) := by
    have hlt : u.height * (max 0 rect.row : Int) <
        u.height * (min (rows : Int) (rect.row + rect.height) : Int) := by linarith
    exact Int.cast_lt.mp (lt_of_mul_lt_mul_left hlt u.height_pos.le)
  refine ⟨_, PixelRect.clamped?_eq_some_iff.mpr ⟨⟨hcolumns, hrows⟩, rfl⟩, ?_⟩
  simp only [extent, add_sub_cancel]
  exact ⟨⟨hleft, hright⟩, hbottom, htop⟩

end NorthUp

end Antimeridian
