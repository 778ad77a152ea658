import Antimeridian.Crs.Registry
import Antimeridian.Proofs.Raster.Windows

/-!
# Crops of crops

Along the axes of a system, what an envelope covers is found for the columns and for the rows apart,
and for either of their ends. What two envelopes share covers what both of them cover, so that
cropping to one envelope and then to another is cropping to what they share, and finds nothing where
that does.
-/

namespace Antimeridian

namespace PixelRect

/-- The pixels that two rectangles share. -/
def meet (p q : PixelRect) : PixelRect :=
  let column := max p.column q.column
  let row := max p.row q.row
  ⟨column, row, min (p.column + p.width) (q.column + q.width) - column,
    min (p.row + p.height) (q.row + q.height) - row⟩

/-- The same pixels counted from another one. -/
def countedFrom (p : PixelRect) (column row : Int) : PixelRect :=
  { p with
    column := p.column - column
    row := p.row - row }

/-- Clamping a range to what clamping has left of another one is clamping what they share. -/
theorem clamp_clamp {first last : Int} {size : Nat} (hleft : max 0 first < min (size : Int) last)
    (start stop : Int) :
    max 0 (start - max 0 first) = max 0 (max first start) - max 0 first ∧
      min ((min (size : Int) last - max 0 first).toNat : Int) (stop - max 0 first) =
        min (size : Int) (min last stop) - max 0 first := by
  omega

/-- Among the pixels left of a rectangle, another one leaves what it shares with the rectangle. -/
theorem clamped?_countedFrom {p q part : PixelRect} {columns rows : Nat}
    (hpart : p.clamped? columns rows = some part) :
    (q.countedFrom part.column part.row).clamped? part.width.toNat part.height.toNat =
      ((p.meet q).clamped? columns rows).map (·.countedFrom part.column part.row) := by
  obtain ⟨⟨hcolumns, hrows⟩, rfl⟩ := clamped?_eq_some_iff.mp hpart
  obtain ⟨hcolumn, hcolumnEnd⟩ := clamp_clamp hcolumns q.column (q.column + q.width)
  obtain ⟨hrow, hrowEnd⟩ := clamp_clamp hrows q.row (q.row + q.height)
  simp only [clamped?, meet, countedFrom, sub_add_eq_add_sub, add_sub_cancel, hcolumn, hcolumnEnd,
    hrow, hrowEnd, sub_le_sub_iff_right, sub_sub_sub_cancel_right]
  split <;> rfl

/-- What two rectangles share starts nowhere before either of them. -/
theorem le_of_clamped?_meet {p q part rest : PixelRect} {columns rows : Nat}
    (hpart : p.clamped? columns rows = some part)
    (hrest : (p.meet q).clamped? columns rows = some rest) :
    part.column ≤ rest.column ∧ part.row ≤ rest.row := by
  obtain ⟨-, rfl⟩ := clamped?_eq_some_iff.mp hpart
  obtain ⟨-, rfl⟩ := clamped?_eq_some_iff.mp hrest
  exact ⟨max_le_max_left 0 (le_max_left _ _), max_le_max_left 0 (le_max_left _ _)⟩

section Covering

variable {K : Type} [Field K] [LinearOrder K] [FloorRing K] [IsStrictOrderedRing K]

theorem covering_meet (a b : Envelope K) :
    covering (a.meet b) = (covering a).meet (covering b) := by
  have hfloor (x y : K) : ⌊max x y + 1 / 10 ^ 6⌋ = max ⌊x + 1 / 10 ^ 6⌋ ⌊y + 1 / 10 ^ 6⌋ := by
    rw [← max_add_add_right, Int.floor_mono.map_max]
  have hceil (x y : K) : ⌈min x y - 1 / 10 ^ 6⌉ = min ⌈x - 1 / 10 ^ 6⌉ ⌈y - 1 / 10 ^ 6⌉ := by
    rw [← min_sub_sub_right, Int.ceil_mono.map_min]
  simp only [covering, meet, Envelope.meet, hfloor, hceil, add_sub_cancel]

theorem covering_sub (a : Envelope K) (column row : Int) :
    covering (⟨a.minx - column, a.miny - row, a.maxx - column, a.maxy - row, none⟩ : Envelope K) =
      (covering a).countedFrom column row := by
  have hfloor (x : K) (k : Int) : ⌊x - k + 1 / 10 ^ 6⌋ = ⌊x + 1 / 10 ^ 6⌋ - k := by
    rw [sub_add_eq_add_sub, Int.floor_sub_intCast]
  have hceil (x : K) (k : Int) : ⌈x - k - 1 / 10 ^ 6⌉ = ⌈x - 1 / 10 ^ 6⌉ - k := by
    rw [sub_right_comm, Int.ceil_sub_intCast]
  simp only [covering, countedFrom, hfloor, hceil, sub_sub_sub_cancel_right]

end Covering

end PixelRect

namespace PixelAxes

variable {K : Type} [Field K] [LinearOrder K] [IsStrictOrderedRing K] (axes : PixelAxes K)

/-- Ranges that meet are counted as ranges that meet: what they share is counted from the later of
their starts to the earlier of their ends, in whichever direction the steps go. -/
theorem count_meet {c s low high low' high' : K} (hs : s ≠ 0) (hle : low ≤ high)
    (hle' : low' ≤ high') (hcross : low ≤ high') (hcross' : low' ≤ high) :
    min ((max low low' - c) / s) ((min high high' - c) / s) =
        max (min ((low - c) / s) ((high - c) / s)) (min ((low' - c) / s) ((high' - c) / s)) ∧
      max ((max low low' - c) / s) ((min high high' - c) / s) =
        min (max ((low - c) / s) ((high - c) / s)) (max ((low' - c) / s) ((high' - c) / s)) := by
  have hmeet : max low low' ≤ min high high' :=
    max_le (le_min hle hcross) (le_min hcross' hle')
  rcases lt_or_gt_of_ne hs with hneg | hpos
  · have hcount : Antitone fun x => (x - c) / s := fun x y hxy =>
      (div_le_div_right_of_neg hneg).mpr (sub_le_sub_right hxy c)
    rw [min_eq_right (hcount hmeet), max_eq_left (hcount hmeet), min_eq_right (hcount hle),
      max_eq_left (hcount hle), min_eq_right (hcount hle'), max_eq_left (hcount hle')]
    exact ⟨hcount.map_min, hcount.map_max⟩
  · have hcount : Monotone fun x => (x - c) / s := fun x y hxy =>
      (div_le_div_iff_of_pos_right hpos).mpr (sub_le_sub_right hxy c)
    rw [min_eq_left (hcount hmeet), max_eq_right (hcount hmeet), min_eq_left (hcount hle),
      max_eq_right (hcount hle), min_eq_left (hcount hle'), max_eq_right (hcount hle')]
    exact ⟨hcount.map_max, hcount.map_min⟩

theorem counted_meet {e f : Envelope K} (hmeets : e.Meets f) :
    axes.frame.counted (e.meet f) = (axes.frame.counted e).meet (axes.frame.counted f) := by
  obtain ⟨⟨hocc, hfocc⟩, ⟨hwest, heast⟩, hsouth, hnorth⟩ := Envelope.meets_iff.mp hmeets
  obtain ⟨hminx, hmaxx⟩ := count_meet (c := axes.x) axes.dx_ne hocc.1 hfocc.1 hwest heast
  obtain ⟨hminy, hmaxy⟩ := count_meet (c := axes.y) axes.dy_ne hocc.2 hfocc.2 hsouth hnorth
  cases hturned : axes.turned with
  | false =>
      simp only [counted_eq, across, down, hturned, Envelope.meet, Bool.false_eq_true, if_false,
        hminx, hmaxx, hminy, hmaxy]
  | true =>
      simp only [counted_eq, across, down, hturned, Envelope.meet, if_true, hminx, hmaxx, hminy,
        hmaxy]

end PixelAxes

namespace Raster

variable {K : Type} [Field K] [LinearOrder K] [FloorRing K] {r : Raster (Extended K)}

theorem windowOf_windowOf {frame : PixelFrame K} (hr : r.transform = frame.affine)
    {part rest : PixelRect} (hfirst : 0 ≤ part.column ∧ 0 ≤ part.row)
    (hle : part.column ≤ rest.column ∧ part.row ≤ rest.row) :
    (r.windowOf part).windowOf (rest.countedFrom part.column part.row) = r.windowOf rest := by
  have hcolumn : part.column.toNat + (rest.column - part.column).toNat = rest.column.toNat := by
    omega
  have hrow : part.row.toNat + (rest.row - part.row).toNat = rest.row.toNat := by
    omega
  rw [windowOf, windowOf, window_window hr, PixelRect.countedFrom, hcolumn, hrow, windowOf]

variable [IsStrictOrderedRing K] {axes : PixelAxes K}

/-- Of what is left of one envelope, another one that meets it leaves what they share. -/
theorem crop_windowOf (hr : r.transform = axes.frame.affine) {e f : Envelope K}
    (hmeets : e.Meets f) {part : PixelRect}
    (hpart : (PixelRect.covering (axes.frame.counted e)).clamped? r.columns r.rows = some part) :
    (r.windowOf part).crop f.finite =
      match (PixelRect.covering (axes.frame.counted (e.meet f))).clamped? r.columns r.rows with
      | none => .error (.noOverlap f.finite (r.windowOf part).envelope)
      | some rest => .ok (r.windowOf rest) := by
  obtain ⟨hfirst, -⟩ := PixelRect.clamped?_eq_some hpart
  have hsize : (r.windowOf part).columns = part.width.toNat ∧
      (r.windowOf part).rows = part.height.toNat := ⟨rfl, rfl⟩
  rw [crop_of_frame (windowOf_transform hr hfirst), PixelFrame.counted_countedFrom,
    PixelRect.covering_sub, hsize.1, hsize.2, PixelRect.clamped?_countedFrom hpart,
    axes.counted_meet hmeets, PixelRect.covering_meet]
  cases hrest : ((PixelRect.covering (axes.frame.counted e)).meet
      (PixelRect.covering (axes.frame.counted f))).clamped? r.columns r.rows with
  | none => rfl
  | some rest =>
      simp only [Option.map_some]
      rw [windowOf_windowOf hr hfirst (PixelRect.le_of_clamped?_meet hpart hrest)]

/-- Cropping to an envelope and then to another one that meets it is cropping to what they share,
and fails where that does. Cropping once more to the same envelope changes nothing. -/
theorem crop_crop (hr : r.transform = axes.affine) {e₁ e₂ : Envelope K}
    (hmeets : e₁.finite.intersects e₂.finite = true) {part : Raster (Extended K)}
    (hpart : r.crop e₁.finite = .ok part) :
    ((∃ rest, part.crop e₂.finite = .ok rest ∧
        r.crop (e₁.finite.intersection e₂.finite) = .ok rest) ∨
      part.crop e₂.finite = .error (.noOverlap e₂.finite part.envelope) ∧
        r.crop (e₁.finite.intersection e₂.finite) =
          .error (.noOverlap (e₁.finite.intersection e₂.finite) r.envelope)) ∧
    part.crop e₁.finite = .ok part := by
  rw [Envelope.intersection_finite, if_pos hmeets]
  rw [Envelope.intersects_finite_iff] at hmeets
  rw [axes.affine_eq] at hr
  rw [crop_of_frame hr] at hpart
  cases hrect : (PixelRect.covering (axes.frame.counted e₁)).clamped? r.columns r.rows with
  | none => simp [hrect] at hpart
  | some rect =>
      simp only [hrect, Except.ok.injEq] at hpart
      subst hpart
      constructor
      · rw [crop_windowOf hr hmeets hrect, crop_of_frame hr]
        cases (PixelRect.covering (axes.frame.counted (e₁.meet e₂))).clamped? r.columns r.rows with
        | none => exact .inr ⟨rfl, rfl⟩
        | some rest => exact .inl ⟨r.windowOf rest, rfl, rfl⟩
      · have hself : e₁.meet e₁ = e₁ := by simp [Envelope.meet]
        have hocc := (Envelope.meets_iff.mp hmeets).1.1
        rw [crop_windowOf hr (Envelope.meets_of_occupied_meet (by rwa [hself])) hrect, hself, hrect]

/-- In a raster whose columns run to the west, three columns and three rows are left of two
envelopes, whichever way they are cut out. -/
theorem crops_westward_columns_twice :
    let axes : PixelAxes ℚ := ⟨12, 0, -2, 1, false, by norm_num, by norm_num⟩
    let r : Raster (Extended ℚ) :=
      { bands := 1, rows := 5, columns := 6, pixel := fun _ y x => .whole (6 * y + x),
        pixelType := .uint8, transform := axes.affine, crs := .wgs84 }
    let e : Envelope ℚ := ⟨1, 1 / 2, 9, 4, none⟩
    let f : Envelope ℚ := ⟨5, 3 / 2, 20, 7 / 2, none⟩
    ∃ part rest, r.crop e.finite = .ok part ∧ part.crop f.finite = .ok rest ∧
      r.crop (e.finite.intersection f.finite) = .ok rest ∧ part.crop e.finite = .ok part ∧
      rest.columns = 3 ∧ rest.rows = 3 := by
  intro axes r e f
  have haxes : r.transform = axes.affine := rfl
  have hmeets : e.finite.intersects f.finite = true := by decide +kernel
  have hfirst : (r.crop e.finite).toOption.isSome = true := by decide +kernel
  have hboth : (r.crop (e.finite.intersection f.finite)).toOption.map
      (fun rest => (rest.columns, rest.rows)) = some (3, 3) := by decide +kernel
  cases hpart : r.crop e.finite with
  | error failure => simp [hpart, Except.toOption] at hfirst
  | ok part =>
      obtain ⟨⟨rest, hrest, hmeet⟩ | ⟨-, hmissed⟩, hagain⟩ :=
        crop_crop haxes hmeets hpart
      · simp only [hmeet, Except.toOption, Option.map_some, Option.some.injEq,
          Prod.mk.injEq] at hboth
        exact ⟨part, rest, rfl, hrest, hmeet, hagain, hboth⟩
      · simp [hmissed, Except.toOption] at hboth

end Raster

end Antimeridian
