import Antimeridian.Proofs.Geometry.Bounds
import Antimeridian.Raster.Crop

/-!
# Frames of pixels

Pixels may be counted in any two directions that differ: along the axes of their system, turned
against them, or sheared. Columns and rows lead to places and back again. Cutting out pixels moves
the corner they are counted from, and cutting out of what is cut out moves it twice.
-/

namespace Antimeridian

/-- A transform with numbers as entries goes back where areas do not vanish. -/
theorem Affine.exists_inverse {K : Type} [Field K] [LinearOrder K] [FloorRing K]
    {a b c d e f : K} (hdet : a * e - b * d ≠ 0) :
    ∃ back, (⟨.finite a, .finite b, .finite c, .finite d, .finite e, .finite f⟩ :
        Affine (Extended K)).inverse = .ok back ∧
      ∀ x y : K, back.apply (.finite x) (.finite y) =
        (.finite ((e * (x - c) - b * (y - f)) / (a * e - b * d)),
          .finite ((a * (y - f) - d * (x - c)) / (a * e - b * d))) := by
  rw [Affine.inverse, Affine.determinant]
  simp only [Extended.finite_mul, Extended.finite_sub, Extended.zero_eq, Extended.finite_beq_finite,
    hdet, decide_false, Bool.false_eq_true, if_false, Extended.one_eq, Extended.finite_div _ hdet]
  refine ⟨_, rfl, fun x y => ?_⟩
  simp only [Affine.apply, Extended.finite_mul, Extended.finite_add, Extended.finite_neg,
    Extended.finite_sub, Prod.mk.injEq, Extended.finite.injEq]
  constructor <;> ring

/-- Everything that is left of a rectangle among some columns and rows, and when something is. -/
theorem PixelRect.clamped?_eq_some_iff {rect part : PixelRect} {columns rows : Nat} :
    rect.clamped? columns rows = some part ↔
      (max 0 rect.column < min (columns : Int) (rect.column + rect.width) ∧
        max 0 rect.row < min (rows : Int) (rect.row + rect.height)) ∧
      part = ⟨max 0 rect.column, max 0 rect.row,
        min (columns : Int) (rect.column + rect.width) - max 0 rect.column,
        min (rows : Int) (rect.row + rect.height) - max 0 rect.row⟩ := by
  rw [clamped?]
  split
  next hnone =>
    simp only [Bool.or_eq_true, decide_eq_true_eq] at hnone
    refine iff_of_false (by simp) fun hpart => ?_
    omega
  next hsome =>
    simp only [Bool.or_eq_true, decide_eq_true_eq, not_or, not_le] at hsome
    rw [Option.some.injEq, eq_comm, and_iff_right hsome]

section Covering

variable {K : Type} [Field K] [LinearOrder K] [FloorRing K]

/-- The whole pixels that cover a rectangle of pixel coordinates, slivers aside. -/
def PixelRect.covering (bound : Envelope K) : PixelRect :=
  let column := ⌊bound.minx + 1 / 10 ^ 6⌋
  let row := ⌊bound.miny + 1 / 10 ^ 6⌋
  ⟨column, row, ⌈bound.maxx - 1 / 10 ^ 6⌉ - column, ⌈bound.maxy - 1 / 10 ^ 6⌉ - row⟩

variable [IsStrictOrderedRing K]

theorem coveringPixels_finite (bound : Envelope K) :
    Grid.coveringPixels bound.finite = .ok (PixelRect.covering bound) := by
  have hsnap : (Grid.snap : Extended K) = .finite (1 / 10 ^ 6) := by
    rw [Grid.snap, Extended.ofScientific_eq]
    norm_num
  simp only [Grid.coveringPixels, hsnap, Envelope.finite_minx, Envelope.finite_miny,
    Envelope.finite_maxx, Envelope.finite_maxy, Extended.finite_add, Extended.finite_sub,
    Extended.integral_floor_finite, Extended.integral_ceil_finite, bind, Except.bind]
  rfl

end Covering

/-- Directions to count pixels in, from a corner on: a transform that does not flatten them. -/
structure PixelFrame (K : Type) [Field K] extends Affine K where
  invertible : a * e - b * d ≠ 0

namespace PixelFrame

variable {K : Type} [Field K] (frame : PixelFrame K)

/-- The transform from columns and rows to places. -/
def affine : Affine (Extended K) :=
  ⟨.finite frame.a, .finite frame.b, .finite frame.c, .finite frame.d, .finite frame.e,
    .finite frame.f⟩

/-- The place of a corner. -/
def place (column row : K) : K × K :=
  (frame.a * column + frame.b * row + frame.c, frame.d * column + frame.e * row + frame.f)

/-- The column and the row of a place. -/
def count (x y : K) : K × K :=
  ((frame.e * (x - frame.c) - frame.b * (y - frame.f)) / (frame.a * frame.e - frame.b * frame.d),
    (frame.a * (y - frame.f) - frame.d * (x - frame.c)) / (frame.a * frame.e - frame.b * frame.d))

theorem count_place (column row : K) :
    frame.count (frame.place column row).1 (frame.place column row).2 = (column, row) := by
  have hdet := frame.invertible
  simp only [count, place, Prod.mk.injEq, div_eq_iff hdet]
  constructor <;> ring

theorem place_count (x y : K) :
    frame.place (frame.count x y).1 (frame.count x y).2 = (x, y) := by
  have hsolves {d r s t u v w : K} (hd : d ≠ 0) (heq : r * t + s * u = (w - v) * d) :
      r * (t / d) + s * (u / d) + v = w := by
    rw [mul_div_assoc', mul_div_assoc', ← add_div, heq, mul_div_cancel_right₀ _ hd, sub_add_cancel]
  rw [place, Prod.mk.injEq]
  constructor <;>
  · apply hsolves frame.invertible
    ring

theorem place_injective {column row column' row' : K}
    (heq : frame.place column row = frame.place column' row') : column = column' ∧ row = row' := by
  have hcount := frame.count_place column row
  rw [heq, count_place, Prod.mk.injEq] at hcount
  exact ⟨hcount.1.symm, hcount.2.symm⟩

/-- The same pixels counted from another one. -/
def countedFrom (column row : K) : PixelFrame K :=
  { frame with
    c := (frame.place column row).1
    f := (frame.place column row).2 }

theorem place_countedFrom (column row x y : K) :
    (frame.countedFrom column row).place x y = frame.place (column + x) (row + y) := by
  simp only [place, countedFrom, Prod.mk.injEq]
  constructor <;> ring

theorem countedFrom_countedFrom (column row column' row' : K) :
    (frame.countedFrom column row).countedFrom column' row' =
      frame.countedFrom (column + column') (row + row') := by
  simp only [countedFrom, place, mk.injEq, Affine.mk.injEq, true_and]
  constructor <;> ring

theorem count_countedFrom (column row x y : K) :
    (frame.countedFrom column row).count x y =
      ((frame.count x y).1 - column, (frame.count x y).2 - row) := by
  have hdet := frame.invertible
  simp only [count, countedFrom, place, Prod.mk.injEq, div_sub' hdet]
  constructor <;>
  · congr 1
    ring

/-- The columns and the rows passed on a way to the east of length one. -/
def eastward : K × K :=
  (frame.e / (frame.a * frame.e - frame.b * frame.d),
    -frame.d / (frame.a * frame.e - frame.b * frame.d))

/-- The columns and the rows passed on a way to the north of length one. -/
def northward : K × K :=
  (-frame.b / (frame.a * frame.e - frame.b * frame.d),
    frame.a / (frame.a * frame.e - frame.b * frame.d))

theorem count_eq_add (x y x' y' : K) :
    frame.count x' y' =
      ((frame.count x y).1 + (frame.eastward.1 * (x' - x) + frame.northward.1 * (y' - y)),
        (frame.count x y).2 + (frame.eastward.2 * (x' - x) + frame.northward.2 * (y' - y))) := by
  simp only [count, eastward, northward, Prod.mk.injEq]
  constructor <;> ring

variable [LinearOrder K]

/-- The columns and rows of an envelope, found from its north-western and south-eastern corners. -/
def counted (e : Envelope K) : Envelope K where
  minx := min (frame.count e.minx e.maxy).1 (frame.count e.maxx e.miny).1
  miny := min (frame.count e.minx e.maxy).2 (frame.count e.maxx e.miny).2
  maxx := max (frame.count e.minx e.maxy).1 (frame.count e.maxx e.miny).1
  maxy := max (frame.count e.minx e.maxy).2 (frame.count e.maxx e.miny).2

theorem counted_countedFrom [IsStrictOrderedRing K] (e : Envelope K) (column row : K) :
    (frame.countedFrom column row).counted e =
      ⟨(frame.counted e).minx - column, (frame.counted e).miny - row,
        (frame.counted e).maxx - column, (frame.counted e).maxy - row, none⟩ := by
  simp only [counted, count_countedFrom, min_sub_sub_right, max_sub_sub_right]

/-- The envelope between two corners. -/
def between (column row columnEnd rowEnd : K) : Envelope K where
  minx := min (frame.place column row).1 (frame.place columnEnd rowEnd).1
  miny := min (frame.place column row).2 (frame.place columnEnd rowEnd).2
  maxx := max (frame.place column row).1 (frame.place columnEnd rowEnd).1
  maxy := max (frame.place column row).2 (frame.place columnEnd rowEnd).2

theorem between_countedFrom (column row x y x' y' : K) :
    (frame.countedFrom column row).between x y x' y' =
      frame.between (column + x) (row + y) (column + x') (row + y') := by
  simp only [between, place_countedFrom]

variable [FloorRing K]

theorem apply_affine (column row : K) : frame.affine.apply (.finite column) (.finite row) =
    (.finite (frame.place column row).1, .finite (frame.place column row).2) := by
  simp only [affine, place, Affine.apply, Extended.finite_mul, Extended.finite_add, Prod.mk.injEq,
    Extended.finite.injEq]
  constructor <;> ring

theorem exists_inverse : ∃ back, frame.affine.inverse = .ok back ∧ ∀ x y : K,
    back.apply (.finite x) (.finite y) =
      (.finite (frame.count x y).1, .finite (frame.count x y).2) :=
  Affine.exists_inverse frame.invertible

theorem coveredPixels?_eq [IsStrictOrderedRing K] (columns rows : Nat) (e : Envelope K) :
    Raster.coveredPixels? frame.affine columns rows e.finite =
      .ok ((PixelRect.covering (frame.counted e)).clamped? columns rows) := by
  obtain ⟨back, hback, happly⟩ := frame.exists_inverse
  rw [Raster.coveredPixels?, hback]
  simp only [bind, Except.bind, Envelope.finite_minx, Envelope.finite_miny, Envelope.finite_maxx,
    Envelope.finite_maxy, happly, Extended.min_finite, Extended.max_finite]
  have hcovering := coveringPixels_finite (frame.counted e)
  rw [Envelope.finite] at hcovering
  simp only [counted] at hcovering
  rw [hcovering]
  rfl

end PixelFrame

namespace Raster

/-- The pixels of a rectangle. They stay where they are. -/
def windowOf {α : Type} [Scalar α] (r : Raster α) (rect : PixelRect) : Raster α :=
  r.window rect.column.toNat rect.row.toNat rect.width.toNat rect.height.toNat

variable {K : Type} [Field K] [LinearOrder K] [FloorRing K] {r : Raster (Extended K)}
  {frame : PixelFrame K}

/-- Cropping takes the pixels that cover an envelope, those there are. -/
theorem crop_of_frame [IsStrictOrderedRing K] (hr : r.transform = frame.affine) (e : Envelope K) :
    r.crop e.finite =
      match (PixelRect.covering (frame.counted e)).clamped? r.columns r.rows with
      | none => .error (.noOverlap e.finite r.envelope)
      | some rect => .ok (r.windowOf rect) := by
  rw [crop, hr, frame.coveredPixels?_eq]
  rfl

theorem window_transform_of_frame (hr : r.transform = frame.affine)
    (column row width height : Nat) :
    (r.window column row width height).transform = (frame.countedFrom column row).affine := by
  have hcorner := frame.apply_affine column row
  simp only [window, hr, Extended.ofInt_eq, Int.cast_natCast, hcorner]
  simp only [Affine.compose, Affine.translation, PixelFrame.affine, PixelFrame.countedFrom,
    PixelFrame.place, Affine.mk.injEq, Extended.one_eq, Extended.zero_eq, Extended.finite_sub,
    Extended.finite_mul, Extended.finite_add, Extended.finite.injEq]
  refine ⟨?_, ?_, ?_, ?_, ?_, ?_⟩ <;> ring

theorem windowOf_transform (hr : r.transform = frame.affine) {rect : PixelRect}
    (hfirst : 0 ≤ rect.column ∧ 0 ≤ rect.row) :
    (r.windowOf rect).transform = (frame.countedFrom rect.column rect.row).affine := by
  have hcolumn : ((rect.column.toNat : Nat) : K) = ((rect.column : Int) : K) := by
    exact_mod_cast Int.toNat_of_nonneg hfirst.1
  have hrow : ((rect.row.toNat : Nat) : K) = ((rect.row : Int) : K) := by
    exact_mod_cast Int.toNat_of_nonneg hfirst.2
  rw [windowOf, window_transform_of_frame hr, hcolumn, hrow]

/-- A window of a window is a window. -/
theorem window_window (hr : r.transform = frame.affine)
    (column row width height column' row' width' height' : Nat) :
    (r.window column row width height).window column' row' width' height' =
      r.window (column + column') (row + row') width' height' := by
  have htransform :
      ((r.window column row width height).window column' row' width' height').transform =
        (r.window (column + column') (row + row') width' height').transform := by
    rw [window_transform_of_frame (window_transform_of_frame hr _ _ _ _),
      window_transform_of_frame hr, PixelFrame.countedFrom_countedFrom, Nat.cast_add, Nat.cast_add]
  have hpixel : ((r.window column row width height).window column' row' width' height').pixel =
      (r.window (column + column') (row + row') width' height').pixel := by
    funext b y x
    simp only [window, Nat.add_assoc]
  exact (Raster.mk.injEq ..).mpr ⟨rfl, rfl, rfl, hpixel, rfl, htransform, rfl, rfl, rfl⟩

end Raster

end Antimeridian
