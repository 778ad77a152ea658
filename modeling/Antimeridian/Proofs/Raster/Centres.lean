import Antimeridian.Crs.Registry
import Antimeridian.Proofs.Raster.Windows

/-!
# Centres of pixels

A crop is wanted for the pixels whose centres lie in an envelope. The columns and rows it takes are
counted at two corners of the envelope only, in the north-west and in the south-east. They reach
every centre where neither columns nor rows run from one of these quarters to the other; where they
do, both corners can lie on one side of a centre, and the pixel is left out, or the raster is taken
to be missed altogether.
-/

namespace Antimeridian

namespace PixelRect

/-- Whether a pixel is one of a rectangle. -/
def Holds (rect : PixelRect) (column row : Int) : Prop :=
  (rect.column ≤ column ∧ column < rect.column + rect.width) ∧
    rect.row ≤ row ∧ row < rect.row + rect.height

theorem holds_of_clamped? {rect part : PixelRect} {columns rows : Nat}
    (hpart : rect.clamped? columns rows = some part) (column row : Nat)
    (hsize : column < columns ∧ row < rows) : part.Holds column row ↔ rect.Holds column row := by
  obtain ⟨-, rfl⟩ := clamped?_eq_some_iff.mp hpart
  simp only [Holds]
  omega

theorem exists_clamped? {rect : PixelRect} {columns rows column row : Nat}
    (hsize : column < columns ∧ row < rows) (hholds : rect.Holds column row) :
    ∃ part, rect.clamped? columns rows = some part := by
  obtain ⟨⟨hcolumn, hcolumn'⟩, hrow, hrow'⟩ := hholds
  exact ⟨_, clamped?_eq_some_iff.mpr ⟨by omega, rfl⟩⟩

theorem holds_covering {K : Type} [Field K] [LinearOrder K] [FloorRing K] [IsStrictOrderedRing K]
    {bound : Envelope K} {column row : Int} :
    (covering bound).Holds column row ↔
      (bound.minx + 1 / 10 ^ 6 < column + 1 ∧ column < bound.maxx - 1 / 10 ^ 6) ∧
        bound.miny + 1 / 10 ^ 6 < row + 1 ∧ row < bound.maxy - 1 / 10 ^ 6 := by
  simp only [Holds, covering, add_sub_cancel, Int.floor_le_iff, Int.lt_ceil]

end PixelRect

namespace Envelope

variable {K : Type} [Field K]

/-- What grows at some rates to the east and to the north of a place, at the north-western corner of
an envelope and at its south-eastern one. -/
def atCorners (e : Envelope K) (p : K × K) (eastward northward : K) : K × K :=
  (eastward * (e.minx - p.1) + northward * (e.maxy - p.2),
    eastward * (e.maxx - p.1) + northward * (e.miny - p.2))

variable [LinearOrder K] [IsStrictOrderedRing K] {eastward northward : K}

/-- What grows along one axis and falls along the other is at its least and at its greatest in these
corners. -/
theorem atCorners_around (hsigns : eastward * northward ≤ 0) {e : Envelope K} {p : K × K}
    (hp : p ∈ e.region) :
    min (e.atCorners p eastward northward).1 (e.atCorners p eastward northward).2 ≤ 0 ∧
      0 ≤ max (e.atCorners p eastward northward).1 (e.atCorners p eastward northward).2 := by
  obtain ⟨⟨hwest, heast⟩, hsouth, hnorth⟩ := mem_region.mp hp
  have hwest := sub_nonpos.mpr hwest
  have heast := sub_nonneg.mpr heast
  have hsouth := sub_nonpos.mpr hsouth
  have hnorth := sub_nonneg.mpr hnorth
  rcases mul_nonpos_iff.mp hsigns with ⟨hgrows, hfalls⟩ | ⟨hfalls, hgrows⟩
  · have hfirst := add_nonpos (mul_nonpos_of_nonneg_of_nonpos hgrows hwest)
      (mul_nonpos_of_nonpos_of_nonneg hfalls hnorth)
    have hlast := add_nonneg (mul_nonneg hgrows heast)
      (mul_nonneg_of_nonpos_of_nonpos hfalls hsouth)
    exact ⟨(min_le_left _ _).trans hfirst, hlast.trans (le_max_right _ _)⟩
  · have hfirst := add_nonneg (mul_nonneg_of_nonpos_of_nonpos hfalls hwest)
      (mul_nonneg hgrows hnorth)
    have hlast := add_nonpos (mul_nonpos_of_nonpos_of_nonneg hfalls heast)
      (mul_nonpos_of_nonneg_of_nonpos hgrows hsouth)
    exact ⟨(min_le_right _ _).trans hlast, hfirst.trans (le_max_left _ _)⟩

/-- What grows along both axes, or along neither of them, can have changed by one in the same
direction at both of them. -/
theorem exists_atCorners_aside (hsigns : 0 < eastward * northward) (p : K × K) :
    ∃ e : Envelope K, ∃ s : K, p ∈ e.region ∧ (s = 1 ∨ s = -1) ∧
      e.atCorners p eastward northward = (s, s) := by
  rcases mul_pos_iff.mp hsigns with ⟨heast, hnorth⟩ | ⟨heast, hnorth⟩
  · have hx := one_div_pos.mpr heast
    have hy := one_div_pos.mpr hnorth
    refine ⟨⟨p.1, p.2, p.1 + 1 / eastward, p.2 + 1 / northward, none⟩, 1, mem_region.mpr ?_,
      .inl rfl, ?_⟩
    · exact ⟨⟨le_rfl, by linarith⟩, le_rfl, by linarith⟩
    · simp [atCorners, heast.ne', hnorth.ne']
  · have hx := one_div_neg.mpr heast
    have hy := one_div_neg.mpr hnorth
    refine ⟨⟨p.1, p.2, p.1 - 1 / eastward, p.2 - 1 / northward, none⟩, -1, mem_region.mpr ?_,
      .inr rfl, ?_⟩
    · exact ⟨⟨le_rfl, by linarith⟩, le_rfl, by linarith⟩
    · simp [atCorners, heast.ne, hnorth.ne]

end Envelope

namespace PixelFrame

variable {K : Type} [Field K] (frame : PixelFrame K)

variable [LinearOrder K]

/-- Whether the columns and rows counted at the corners of an envelope include those of a pixel,
slivers aside. -/
def Reaches (e : Envelope K) (column row : Int) : Prop :=
  ((frame.counted e).minx + 1 / 10 ^ 6 < column + 1 ∧
      column < (frame.counted e).maxx - 1 / 10 ^ 6) ∧
    (frame.counted e).miny + 1 / 10 ^ 6 < row + 1 ∧ row < (frame.counted e).maxy - 1 / 10 ^ 6

variable [IsStrictOrderedRing K]

/-- The columns and rows of an envelope, seen from a place. -/
theorem counted_around (e : Envelope K) (column row : K) :
    let columns := e.atCorners (frame.place column row) frame.eastward.1 frame.northward.1
    let rows := e.atCorners (frame.place column row) frame.eastward.2 frame.northward.2
    frame.counted e = ⟨column + min columns.1 columns.2, row + min rows.1 rows.2,
      column + max columns.1 columns.2, row + max rows.1 rows.2, none⟩ := by
  intro columns rows
  have hcorner (x' y' : K) :=
    frame.count_eq_add (frame.place column row).1 (frame.place column row).2 x' y'
  simp only [frame.count_place] at hcorner
  simp only [counted, hcorner, min_add_add_left, max_add_add_left, columns, rows,
    Envelope.atCorners]

/-- Columns grow along one axis and fall along the other exactly where rows do not run to the
north-west or to the south-east, and rows where columns do not. -/
theorem signs_iff :
    (frame.eastward.1 * frame.northward.1 ≤ 0 ↔ 0 ≤ frame.b * frame.e) ∧
      (frame.eastward.2 * frame.northward.2 ≤ 0 ↔ 0 ≤ frame.a * frame.d) := by
  have hsquare := mul_self_pos.mpr frame.invertible
  simp only [eastward, northward, div_mul_div_comm, div_le_iff₀ hsquare, zero_mul]
  constructor
  · rw [mul_neg, neg_nonpos, mul_comm]
  · rw [neg_mul, neg_nonpos, mul_comm]

variable {frame}

/-- Where neither columns nor rows run to the north-west or to the south-east, the corners of an
envelope reach every centre in it. -/
theorem reaches_of_signs (hcolumns : 0 ≤ frame.a * frame.d) (hrows : 0 ≤ frame.b * frame.e)
    {e : Envelope K} {column row : Int}
    (hcentre : frame.place (column + 1 / 2) (row + 1 / 2) ∈ e.region) :
    frame.Reaches e column row := by
  obtain ⟨hmin, hmax⟩ := Envelope.atCorners_around (frame.signs_iff.1.mpr hrows) hcentre
  obtain ⟨hmin', hmax'⟩ := Envelope.atCorners_around (frame.signs_iff.2.mpr hcolumns) hcentre
  rw [Reaches, frame.counted_around e (column + 1 / 2) (row + 1 / 2)]
  refine ⟨⟨?_, ?_⟩, ?_, ?_⟩ <;> linarith

/-- Where columns or rows do, some envelope holds the centre of the first pixel out of reach of its
corners. -/
theorem exists_not_reaches (hsigns : ¬(0 ≤ frame.a * frame.d ∧ 0 ≤ frame.b * frame.e)) :
    ∃ e : Envelope K, frame.place (1 / 2) (1 / 2) ∈ e.region ∧ ¬frame.Reaches e 0 0 := by
  -- both corners are one pixel away, to the same side
  have haway {s : K} (hs : s = 1 ∨ s = -1) :
      ¬(1 / 2 + s + 1 / 10 ^ 6 < 0 + 1 ∧ 0 < 1 / 2 + s - 1 / 10 ^ 6) := by
    rintro ⟨hlow, hhigh⟩
    rcases hs with rfl | rfl
    · norm_num at hlow
    · norm_num at hhigh
  rw [← frame.signs_iff.1, ← frame.signs_iff.2, not_and_or, not_le, not_le] at hsigns
  rcases hsigns with hrows | hcolumns
  · obtain ⟨e, s, hregion, hs, hcorners⟩ :=
      Envelope.exists_atCorners_aside hrows (frame.place (1 / 2) (1 / 2))
    refine ⟨e, hregion, fun hreaches => haway hs ?_⟩
    rw [Reaches, frame.counted_around e (1 / 2) (1 / 2), hcorners] at hreaches
    simpa using hreaches.2
  · obtain ⟨e, s, hregion, hs, hcorners⟩ :=
      Envelope.exists_atCorners_aside hcolumns (frame.place (1 / 2) (1 / 2))
    refine ⟨e, hregion, fun hreaches => haway hs ?_⟩
    rw [Reaches, frame.counted_around e (1 / 2) (1 / 2), hcorners] at hreaches
    simpa using hreaches.1

end PixelFrame

namespace Raster

variable {K : Type} [Field K] [LinearOrder K] [FloorRing K] (r : Raster (Extended K))
  (e : Envelope K)

/-- Whether the centre of a pixel lies in an envelope. -/
def Wanted (column row : Nat) : Prop :=
  (column < r.columns ∧ row < r.rows) ∧
    let centre := r.transform.apply (.finite (column + 1 / 2)) (.finite (row + 1 / 2))
    e.finite.containsPoint centre.1 centre.2 = true

/-- Whether cropping gives a window of the raster that holds every pixel whose centre lies in the
envelope. -/
def KeepsCentres : Prop :=
  ∃ part column row, r.crop e.finite = .ok part ∧ part.IsWindow r column row ∧
    ∀ i j, r.Wanted e i j →
      (column ≤ i ∧ i < column + part.columns) ∧ row ≤ j ∧ j < row + part.rows

variable {r e} {frame : PixelFrame K}

theorem wanted_iff (hr : r.transform = frame.affine) {column row : Nat} :
    r.Wanted e column row ↔ (column < r.columns ∧ row < r.rows) ∧
      frame.place (column + 1 / 2) (row + 1 / 2) ∈ e.region := by
  rw [Wanted, hr, frame.apply_affine, ← Envelope.holds_finite_iff]
  rfl

variable [IsStrictOrderedRing K]

theorem holds_covering_iff {column row : Nat} :
    (PixelRect.covering (frame.counted e)).Holds column row ↔ frame.Reaches e column row :=
  PixelRect.holds_covering

omit [IsStrictOrderedRing K] in
/-- A crop is the window of its rectangle, and no other one. -/
theorem isWindow_windowOf_iff (hr : r.transform = frame.affine) {rect part : PixelRect}
    (hpart : rect.clamped? r.columns r.rows = some part) {column row : Nat} :
    (r.windowOf part).IsWindow r column row ↔ part.column = column ∧ part.row = row := by
  obtain ⟨hfirst, hwidth, hheight⟩ := PixelRect.clamped?_eq_some hpart
  obtain ⟨hcolumns, hrows⟩ := PixelRect.clamped?_le hpart
  constructor
  · intro hwindow
    have hplace := hwindow.place_eq 0 0
    rw [windowOf_transform hr hfirst, hr, PixelFrame.apply_affine, PixelFrame.apply_affine,
      PixelFrame.place_countedFrom, Prod.mk.injEq, Extended.finite.injEq, Extended.finite.injEq,
      ← Prod.ext_iff] at hplace
    obtain ⟨hcolumn, hrow⟩ := frame.place_injective hplace
    simp only [add_zero] at hcolumn hrow
    exact ⟨by exact_mod_cast hcolumn, by exact_mod_cast hrow⟩
  · rintro ⟨hcolumn, hrow⟩
    have hwindow : (r.windowOf part).IsWindow r part.column.toNat part.row.toNat :=
      isWindow_window hr (by omega) (by omega)
    have hfirst' : part.column.toNat = column ∧ part.row.toNat = row := by omega
    rwa [hfirst'.1, hfirst'.2] at hwindow

/-- A crop keeps the centres in an envelope exactly if the corners of the envelope reach them. -/
theorem keepsCentres_iff (hr : r.transform = frame.affine)
    (hwanted : ∃ column row, r.Wanted e column row) :
    r.KeepsCentres e ↔
      ∀ column row : Nat, r.Wanted e column row → frame.Reaches e column row := by
  constructor
  · rintro ⟨part, column, row, hcrop, hwindow, hall⟩ i j hij
    rw [crop_of_frame hr] at hcrop
    cases hrect : (PixelRect.covering (frame.counted e)).clamped? r.columns r.rows with
    | none => simp [hrect] at hcrop
    | some rect =>
        simp only [hrect, Except.ok.injEq] at hcrop
        subst hcrop
        obtain ⟨hcolumn, hrow⟩ := (isWindow_windowOf_iff hr hrect).mp hwindow
        rw [← holds_covering_iff, ← PixelRect.holds_of_clamped? hrect i j hij.1, PixelRect.Holds]
        have hbounds := hall i j hij
        simp only [windowOf, window] at hbounds
        omega
  · intro hreaches
    obtain ⟨i, j, hij⟩ := hwanted
    obtain ⟨rect, hrect⟩ :=
      PixelRect.exists_clamped? hij.1 (holds_covering_iff.mpr (hreaches i j hij))
    obtain ⟨hfirst, -⟩ := PixelRect.clamped?_eq_some hrect
    refine ⟨r.windowOf rect, rect.column.toNat, rect.row.toNat, ?_,
      (isWindow_windowOf_iff hr hrect).mpr (by omega), fun i j hij => ?_⟩
    · rw [crop_of_frame hr, hrect]
    · have hholds := holds_covering_iff.mpr (hreaches i j hij)
      rw [← PixelRect.holds_of_clamped? hrect i j hij.1, PixelRect.Holds] at hholds
      simp only [windowOf, window]
      omega

/-- A crop keeps every centre in an envelope, whatever the raster and the envelope are, exactly if
neither columns nor rows run to the north-west or to the south-east. Where some centres are wanted,
it keeps them exactly if two corners of the envelope reach them. -/
theorem crop_keeps_centres_iff (frame : PixelFrame K) :
    (∀ (r : Raster (Extended K)) (e : Envelope K), r.transform = frame.affine →
      (∃ column row, r.Wanted e column row) →
        (r.KeepsCentres e ↔
          ∀ column row : Nat, r.Wanted e column row → frame.Reaches e column row)) ∧
    ((∀ (r : Raster (Extended K)) (e : Envelope K), r.transform = frame.affine →
        (∃ column row, r.Wanted e column row) → r.KeepsCentres e) ↔
      0 ≤ frame.a * frame.d ∧ 0 ≤ frame.b * frame.e) := by
  refine ⟨fun r e hr hwanted => keepsCentres_iff hr hwanted, fun hkeeps => ?_, ?_⟩
  · by_contra hsigns
    obtain ⟨e, hcentre, hmissed⟩ := PixelFrame.exists_not_reaches hsigns
    -- a raster of the first pixel alone
    let r : Raster (Extended K) :=
      { bands := 1, rows := 1, columns := 1, pixel := fun _ _ _ => .whole 0, pixelType := .uint8,
        transform := frame.affine, crs := .wgs84 }
    have hr : r.transform = frame.affine := rfl
    have hwanted : r.Wanted e 0 0 := by
      rw [wanted_iff hr]
      exact ⟨⟨Nat.one_pos, Nat.one_pos⟩, by simpa using hcentre⟩
    have hreaches := (keepsCentres_iff hr ⟨0, 0, hwanted⟩).mp (hkeeps r e hr ⟨0, 0, hwanted⟩) 0 0
      hwanted
    exact hmissed (by simpa using hreaches)
  · rintro ⟨hcolumns, hrows⟩ r e hr hwanted
    rw [keepsCentres_iff hr hwanted]
    intro column row hij
    apply PixelFrame.reaches_of_signs hcolumns hrows
    simpa using ((wanted_iff hr).mp hij).2

/-- Where columns run to the north-east and rows to the south-east, an envelope that holds the
centre of a pixel counts as beside the raster. -/
theorem loses_centre_between_corners :
    let frame : PixelFrame ℚ := ⟨⟨1, 1, 0, 1, -1, 0⟩, by norm_num⟩
    let r : Raster (Extended ℚ) :=
      { bands := 1, rows := 4, columns := 4, pixel := fun _ y x => .whole (4 * y + x),
        pixelType := .uint8, transform := frame.affine, crs := .wgs84 }
    let e : Envelope ℚ := ⟨3, -1, 5, 1, none⟩
    r.Wanted e 1 1 ∧ ¬r.KeepsCentres e ∧
      r.crop e.finite = .error (.noOverlap e.finite r.envelope) := by
  intro frame r e
  have hr : r.transform = frame.affine := rfl
  have hwanted : r.Wanted e 1 1 := by
    rw [wanted_iff hr]
    exact ⟨by decide, Envelope.mem_region.mpr (by norm_num [frame, e, PixelFrame.place])⟩
  refine ⟨hwanted, ?_, ?_⟩
  · rw [(crop_keeps_centres_iff frame).1 r e hr ⟨1, 1, hwanted⟩]
    intro hreaches
    -- both corners lie between the second column and the third
    have hcolumn := (hreaches 1 1 hwanted).1.1
    norm_num [PixelFrame.counted, PixelFrame.count, frame, e] at hcolumn
  · have hnone : (PixelRect.covering (frame.counted e)).clamped? r.columns r.rows = none := by
      decide +kernel
    rw [crop_of_frame hr, hnone]

end Raster

end Antimeridian
