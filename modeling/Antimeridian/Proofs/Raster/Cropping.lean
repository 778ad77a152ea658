import Antimeridian.Proofs.Grid.NorthUp
import Antimeridian.Raster.Merge

/-!
# North-up rasters

Pixels that are cut out of a north-up raster, or merged into fewer, stay in their places. What is
cut out around a point that lies deep in an envelope and in the raster holds the point.
-/

namespace Antimeridian

theorem PixelRect.clamped?_eq_some {rect part : PixelRect} {columns rows : Nat}
    (hpart : rect.clamped? columns rows = some part) :
    (0 ≤ part.column ∧ 0 ≤ part.row) ∧ 0 < part.width ∧ 0 < part.height := by
  obtain ⟨⟨hcolumns, hrows⟩, rfl⟩ := clamped?_eq_some_iff.mp hpart
  exact ⟨⟨le_max_left _ _, le_max_left _ _⟩, sub_pos.mpr hcolumns, sub_pos.mpr hrows⟩

theorem PixelRect.clamped?_le {rect part : PixelRect} {columns rows : Nat}
    (hpart : rect.clamped? columns rows = some part) :
    part.column + part.width ≤ columns ∧ part.row + part.height ≤ rows := by
  obtain ⟨-, rfl⟩ := clamped?_eq_some_iff.mp hpart
  simp only [add_sub_cancel]
  exact ⟨min_le_left _ _, min_le_left _ _⟩

/-- Of the pixels that cover a rectangle of pixel coordinates, those among some columns and rows
exceed it by less than one on each side. -/
theorem PixelRect.clamped?_covering {K : Type} [Field K] [LinearOrder K] [FloorRing K]
    [IsStrictOrderedRing K] {bound : Envelope K} {part : PixelRect} {columns rows : Nat}
    (hpart : (PixelRect.covering bound).clamped? columns rows = some part) :
    (bound.minx - 1 < part.column ∧ (part.column + part.width : Int) < bound.maxx + 1) ∧
      bound.miny - 1 < part.row ∧ (part.row + part.height : Int) < bound.maxy + 1 := by
  obtain ⟨-, rfl⟩ := clamped?_eq_some_iff.mp hpart
  -- the ends are rounded outward, and clamping moves them inward
  have hstart (x : K) : x - 1 < (max 0 ⌊x + 1 / 10 ^ 6⌋ : Int) := by
    have hfloor := Int.lt_floor_add_one (x + 1 / 10 ^ 6)
    have hmax : ((⌊x + 1 / 10 ^ 6⌋ : Int) : K) ≤ (max 0 ⌊x + 1 / 10 ^ 6⌋ : Int) := by
      exact_mod_cast le_max_right _ _
    have hsliver : (0 : K) < 1 / 10 ^ 6 := by positivity
    linarith
  have hend (x : K) (size : Int) : (min size ⌈x - 1 / 10 ^ 6⌉ : Int) < x + 1 := by
    have hceil := Int.ceil_lt_add_one (x - 1 / 10 ^ 6)
    have hmin : ((min size ⌈x - 1 / 10 ^ 6⌉ : Int) : K) ≤ (⌈x - 1 / 10 ^ 6⌉ : Int) := by
      exact_mod_cast min_le_right _ _
    have hsliver : (0 : K) < 1 / 10 ^ 6 := by positivity
    linarith
  simp only [covering, add_sub_cancel]
  exact ⟨⟨hstart _, hend _ _⟩, hstart _, hend _ _⟩

namespace NorthUp

variable {K : Type} [Field K] [LinearOrder K]

/-- Counted from the first pixel of a rectangle, pixels run to the east and to the south as before,
and those of the rectangle take up the same extent. -/
theorem exists_countedFrom (u : NorthUp K) (rect : PixelRect) :
    ∃ v : NorthUp K, v.frame = u.frame.countedFrom rect.column rect.row ∧
      v.extent ⟨0, 0, rect.width, rect.height⟩ = u.extent rect := by
  rcases hcorner : u.frame.place rect.column rect.row with ⟨west, north⟩
  refine ⟨{ u with west, north }, ?_, ?_⟩
  · rw [PixelFrame.countedFrom, hcorner]
    rfl
  · simp only [PixelFrame.place, frame, Prod.mk.injEq] at hcorner
    obtain ⟨rfl, rfl⟩ := hcorner
    simp only [extent, Envelope.mk.injEq]
    push_cast
    refine ⟨?_, ?_, ?_, ?_, trivial⟩ <;> ring

end NorthUp

namespace Raster

variable {K : Type} [Field K] [LinearOrder K] [FloorRing K] [IsStrictOrderedRing K]
  {r : Raster (Extended K)} {u : NorthUp K}

/-- The rectangle of all pixels. -/
def whole {α : Type} (r : Raster α) : PixelRect := ⟨0, 0, r.columns, r.rows⟩

theorem envelope_eq (hr : r.transform = u.affine) :
    r.envelope = ((u.extent r.whole).labelled r.crs).finite := by
  have hocc : (u.extent r.whole).Occupied :=
    u.extent_occupied (Int.natCast_nonneg _) (Int.natCast_nonneg _)
  obtain ⟨hx, hy⟩ := hocc
  have hwest : (u.extent r.whole).minx = u.west := by simp [NorthUp.extent, whole]
  have heast : (u.extent r.whole).maxx = u.west + u.width * r.columns := by
    simp [NorthUp.extent, whole]
  have hsouth : (u.extent r.whole).miny = u.north + -u.height * r.rows := by
    simp [NorthUp.extent, whole, sub_eq_add_neg]
  have hnorth : (u.extent r.whole).maxy = u.north := by simp [NorthUp.extent, whole]
  have hbounds : r.bounds = (.finite (u.extent r.whole).minx, .finite (u.extent r.whole).miny,
      .finite (u.extent r.whole).maxx, .finite (u.extent r.whole).maxy) := by
    rw [bounds, hr, hwest, heast, hsouth, hnorth]
    simp [NorthUp.affine]
  rw [envelope, hbounds]
  simp only [Extended.min_finite, Extended.max_finite, min_eq_left hx, min_eq_left hy,
    max_eq_right hx, max_eq_right hy]
  rfl

omit [IsStrictOrderedRing K] in
/-- Pixels that are cut out take up the extent that they have in the raster. -/
theorem exists_windowOf (hr : r.transform = u.affine) {rect : PixelRect}
    (hfirst : 0 ≤ rect.column ∧ 0 ≤ rect.row) (hsize : 0 < rect.width ∧ 0 < rect.height) :
    ∃ v : NorthUp K, (r.windowOf rect).transform = v.affine ∧
      v.extent (r.windowOf rect).whole = u.extent rect := by
  obtain ⟨v, hframe, hextent⟩ := u.exists_countedFrom rect
  have hwhole : (r.windowOf rect).whole = ⟨0, 0, rect.width, rect.height⟩ := by
    simp only [whole, windowOf, window, Int.toNat_of_nonneg hsize.1.le,
      Int.toNat_of_nonneg hsize.2.le]
  refine ⟨v, ?_, hwhole ▸ hextent⟩
  rw [v.affine_eq, hframe, windowOf_transform (hr.trans u.affine_eq) hfirst]

/-- Pixels at another size take up the same extent. -/
theorem exists_resized (hr : r.transform = u.affine) {width height : Nat} (hcolumns : 0 < r.columns)
    (hrows : 0 < r.rows) (hwidth : 0 < width) (hheight : 0 < height)
    (pixel : Nat → Nat → Nat → Pixel) :
    ∃ v : NorthUp K, (r.resized width height pixel).transform = v.affine ∧
      v.extent (r.resized width height pixel).whole = u.extent r.whole := by
  have hcolumns' : (0 : K) < r.columns := by exact_mod_cast hcolumns
  have hrows' : (0 : K) < r.rows := by exact_mod_cast hrows
  have hwidth' : (0 : K) < width := by exact_mod_cast hwidth
  have hheight' : (0 : K) < height := by exact_mod_cast hheight
  let v : NorthUp K :=
    { u with
      width := u.width * (r.columns / width)
      height := u.height * (r.rows / height)
      width_pos := mul_pos u.width_pos (div_pos hcolumns' hwidth')
      height_pos := mul_pos u.height_pos (div_pos hrows' hheight') }
  refine ⟨v, ?_, ?_⟩
  · simp only [resized, hr, Affine.compose, Affine.scaling, NorthUp.affine, v, Affine.mk.injEq,
      Extended.zero_eq, Extended.ofInt_eq, Int.cast_natCast, Extended.finite_div _ hwidth'.ne',
      Extended.finite_div _ hheight'.ne', Extended.finite_mul, Extended.finite_add,
      Extended.finite.injEq]
    refine ⟨?_, ?_, ?_, ?_, ?_, ?_⟩ <;> ring
  · have hx : u.width * (r.columns / width) * width = u.width * r.columns := by
      field_simp
    have hy : u.height * (r.rows / height) * height = u.height * r.rows := by
      field_simp
    simp [NorthUp.extent, whole, resized, v, hx, hy]

/-- So do pixels that are merged. -/
theorem exists_merged (hr : r.transform = u.affine) {rect : PixelRect}
    (hfirst : 0 ≤ rect.column ∧ 0 ≤ rect.row) (hsize : 0 < rect.width ∧ 0 < rect.height)
    {width height : Nat} (hwidth : 0 < width) (hheight : 0 < height) (method : Resampling)
    (overviews : List Overview) :
    let part := r.merged method overviews rect.column.toNat rect.row.toNat rect.width.toNat
      rect.height.toNat width height
    ∃ v : NorthUp K, part.transform = v.affine ∧ v.extent part.whole = u.extent rect := by
  obtain ⟨cut, hcut, hextent⟩ := exists_windowOf hr hfirst hsize
  rw [← hextent]
  exact exists_resized hcut (Int.pos_iff_toNat_pos.mp hsize.1) (Int.pos_iff_toNat_pos.mp hsize.2)
    hwidth hheight _

omit [IsStrictOrderedRing K] in
/-- What is cut out of a raster has pixels of the same size. -/
theorem sides_of_crop (hr : r.transform = u.affine) {e : Envelope (Extended K)}
    {part : Raster (Extended K)} (hok : r.crop e = .ok part) :
    part.transform.a = .finite u.width ∧ part.transform.e = .finite (-u.height) := by
  obtain ⟨rect, -, hok⟩ := bind_eq_ok_iff.mp hok
  cases rect with
  | none => contradiction
  | some rect =>
      cases hok
      rw [window_transform_of_frame (hr.trans u.affine_eq)]
      exact ⟨rfl, rfl⟩

theorem covers_of_deep (hr : r.transform = u.affine) {m : K} {p : K × K} (hm : 0 ≤ m)
    (hdeep : (u.extent r.whole).Deep m p) :
    r.envelope.covers (.finite p.1) (.finite p.2) = true := by
  have hmem := Envelope.mem_region.mp (hdeep.mem_region hm)
  rw [envelope_eq hr]
  simpa [Envelope.covers, Envelope.labelled, and_assoc] using hmem

/-- What is cut out around a point that lies deep in an envelope and in the raster holds it. -/
theorem covers_of_crop (hr : r.transform = u.affine) {e : Envelope K} {part : Raster (Extended K)}
    (hok : r.crop e.finite = .ok part) {m s : K} {p : K × K} (he : e.Deep m p)
    (hwhole : (u.extent r.whole).Deep m p) (hs : 0 ≤ s) (hsm : s < m)
    (hwidth : u.width ≤ 10 ^ 6 * s) (hheight : u.height ≤ 10 ^ 6 * s) :
    part.envelope.covers (.finite p.1) (.finite p.2) = true := by
  have hocc := (he.hasArea (hs.trans_lt hsm)).occupied
  have hcovering := NorthUp.deep_covering hocc he hwidth hheight
  obtain ⟨rect, hrect, hdeep⟩ :=
    NorthUp.exists_clamped hcovering (hwhole.mono (sub_le_self m hs)) (sub_pos.mpr hsm)
  obtain ⟨hfirst, hsize⟩ := PixelRect.clamped?_eq_some hrect
  rw [crop_of_frame (hr.trans u.affine_eq), hrect] at hok
  cases hok
  obtain ⟨v, hv, hextent⟩ := exists_windowOf hr hfirst hsize
  exact covers_of_deep hv (sub_nonneg.mpr hsm.le) (hextent ▸ hdeep)

end Raster

end Antimeridian
