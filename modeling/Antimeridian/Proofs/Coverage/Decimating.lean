import Antimeridian.Crs.Registry
import Antimeridian.Proofs.Coverage.NativeReads
import Antimeridian.Proofs.Raster.Snapping

/-!
# Resolutions of reads

A read in a file's own system takes whole pixels of the file, those that the request meets. Where
the request is coarser than the file they are merged into fewer, one at least, and they are never
split into more. Where the request and the file share no area, there is no answer.
-/

namespace Antimeridian

namespace Raster

/-- Whether a raster takes up the same area as some pixels of another one, with no more columns and
rows than they have, and with as many where a resolution is not coarser than that of these pixels.
-/
structure Decimates {α : Type} [Scalar α] (coverage source : Raster α) (rect : PixelRect)
    (resolution : α × α) : Prop where
  footprint : coverage.envelope = (source.windowOf rect).envelope
  columns : 1 ≤ coverage.columns ∧ (coverage.columns : Int) ≤ rect.width
  rows : 1 ≤ coverage.rows ∧ (coverage.rows : Int) ≤ rect.height
  columns_eq : resolution.1 ≤ Scalar.abs source.transform.a → coverage.columns = rect.width
  rows_eq : resolution.2 ≤ Scalar.abs source.transform.e → coverage.rows = rect.height

/-- Whether some pixels are merged to a number of them: to one at least, and to all of them at a
resolution that is not coarser than theirs. -/
def MergesTo {α : Type} [Scalar α] (pixels : Int) (native requested : α) (count : Int) : Prop :=
  0 < count ∧ count ≤ pixels ∧ (requested ≤ native → count = pixels)

variable {K : Type} [Field K] [LinearOrder K] [FloorRing K] [IsStrictOrderedRing K]
  {r : Raster (Extended K)} {axes : PixelAxes K}

theorem decimates_merged (hr : r.transform = axes.affine) {rect : PixelRect}
    (hsize : 0 < rect.width ∧ 0 < rect.height) {resolution : Extended K × Extended K}
    {width height : Int}
    (hwidth : MergesTo rect.width (Scalar.abs r.transform.a) resolution.1 width)
    (hheight : MergesTo rect.height (Scalar.abs r.transform.e) resolution.2 height)
    (method : Resampling) (overviews : List Overview) :
    (r.merged method overviews rect.column.toNat rect.row.toNat rect.width.toNat rect.height.toNat
      width.toNat height.toNat).Decimates r rect resolution := by
  obtain ⟨hwide, hnarrow, hcolumns⟩ := hwidth
  obtain ⟨hhigh, hlow, hrows⟩ := hheight
  obtain ⟨_, -, hwindow⟩ := exists_axes_of_window hr rect.column.toNat rect.row.toNat
    rect.width.toNat rect.height.toNat
  constructor
  · exact envelope_resized hwindow (Int.pos_iff_toNat_pos.mp hsize.1)
      (Int.pos_iff_toNat_pos.mp hsize.2) (Int.pos_iff_toNat_pos.mp hwide)
      (Int.pos_iff_toNat_pos.mp hhigh) _
  all_goals simp only [merged, resized]
  · omega
  · omega
  · intro hfine
    rw [Int.toNat_of_nonneg hwide.le, hcolumns hfine]
  · intro hfine
    rw [Int.toNat_of_nonneg hhigh.le, hrows hfine]

end Raster

namespace FileReader

/-- Whether a reader has all it needs for reads of its file: memory for as many pixels as the file
has, bands that are there, and a method to read with. -/
structure Ready {α : Type} (reader : FileReader α) (resampling : ResamplingChoice) : Prop where
  fits : ∀ width height : Int, 0 < width → width ≤ reader.file.contents.columns →
    0 < height → height ≤ reader.file.contents.rows → reader.checkFits width height = .ok ()
  bands : reader.checkBands reader.file.contents.bands = .ok ()
  places : ∃ places, reader.places = .ok places
  method : ∃ method, (resampling.forReads : Except (Failure α) Resampling) = .ok method

variable {K : Type} [Field K] [LinearOrder K] [FloorRing K] [IsStrictOrderedRing K]

/-- Merged pixels are counted by rounding, to one at least and to no more than there are. -/
theorem exists_countAt {pixels : Int} {native requested : K} (hpixels : 0 < pixels)
    (hpos : 0 < max requested native) :
    ∃ count, countAt pixels (Extended.finite native) (Extended.finite requested) = .ok count ∧
      Raster.MergesTo pixels (Extended.finite native) (Extended.finite requested) count := by
  let share := pixels * native / max requested native
  have hcount : countAt pixels (Extended.finite native) (Extended.finite requested) =
      .ok (max 1 (Scalar.roundEven (Extended.finite share))) := by
    simp only [countAt, Extended.max_finite, Extended.zero_eq, Extended.finite_beq_finite,
      hpos.ne', decide_false, Bool.false_eq_true, if_false, Extended.ofInt_eq, Extended.finite_mul,
      Extended.finite_div _ hpos.ne']
    rfl
  have hpixels' : (0 : K) ≤ pixels := by exact_mod_cast hpixels.le
  have hshare : share ≤ pixels := by
    rw [div_le_iff₀ hpos]
    exact mul_le_mul_of_nonneg_left (le_max_right _ _) hpixels'
  have hrounded := Extended.roundEven_le hshare
  refine ⟨_, hcount, lt_max_of_lt_left one_pos, max_le hpixels hrounded, fun hfine => ?_⟩
  -- where nothing is merged there is nothing to round
  rw [Extended.finite_le_finite] at hfine
  have hwhole : pixels ≤ share := by
    rw [max_eq_right hfine] at hpos
    simp only [share, max_eq_right hfine]
    exact (mul_div_cancel_right₀ _ hpos.ne').ge
  rw [le_antisymm hrounded (Extended.le_roundEven hwhole)]
  exact max_eq_right hpixels

/-! ## Reads -/

variable {reader : FileReader (Extended K)} {resampling : ResamplingChoice}
  {g : Grid (Extended K)} {axes : PixelAxes K} {x y : K}

theorem lacksArea_overlap (hr : reader.file.contents.transform = axes.affine)
    (f : Envelope (Extended K)) :
    ((f.intersection reader.file.contents.envelope).isEmpty ||
      (f.intersection reader.file.contents.envelope).width == 0 ||
      (f.intersection reader.file.contents.envelope).height == 0) =
        !(f.intersection reader.file.contents.envelope).hasArea := by
  rw [Raster.envelope_between hr]
  cases hempty : (f.intersection (Envelope.finite _)).isEmpty with
  | true => simp [Envelope.hasArea, hempty]
  | false =>
      obtain ⟨shared, hshared, -⟩ := Envelope.exists_of_intersection_left hempty
      rw [← hempty, hshared, Envelope.lacksArea_finite]

/-- A read of pixels that are there answers with them, merged as they are counted. -/
theorem exists_readNative (hready : reader.Ready resampling)
    (hr : reader.file.contents.transform = axes.affine)
    (harea : (g.envelope.intersection reader.file.contents.envelope).hasArea = true)
    {rect : PixelRect} {width height : Int}
    (hrect : Raster.coveredPixels? reader.file.contents.transform reader.file.contents.columns
      reader.file.contents.rows (g.envelope.intersection reader.file.contents.envelope) =
        .ok (some rect))
    (hwidth : countAt rect.width (Scalar.abs reader.file.contents.transform.a) g.resolution.1 =
      .ok width)
    (hheight : countAt rect.height (Scalar.abs reader.file.contents.transform.e) g.resolution.2 =
      .ok height)
    (hfits : reader.checkFits width height = .ok ()) :
    ∃ method places, reader.readNative reader.file g resampling = .ok (some (reader.choose
      (reader.file.contents.merged method reader.file.overviews rect.column.toNat rect.row.toNat
        rect.width.toNat rect.height.toNat width.toNat height.toNat) places)) := by
  obtain ⟨-, hbands, ⟨places, hplaces⟩, method, hmethod⟩ := hready
  refine ⟨method, places, ?_⟩
  rw [readNative]
  simp only [lacksArea_overlap hr, harea, hrect, Bool.not_true, Bool.false_eq_true, if_false,
    bind, Except.bind, hwidth, hheight, hfits, hbands, hmethod, hplaces]
  rfl

omit [FloorRing K] in
/-- Of the resolutions that a read compares along an axis, one is not zero. -/
theorem resolutions_pos (hturned : axes.turned = true → x ≠ 0 ∧ y ≠ 0) :
    0 < max |x| |axes.frame.a| ∧ 0 < max |y| |axes.frame.e| := by
  cases hkind : axes.turned with
  | false =>
      simp [PixelAxes.frame, PixelAxes.across, PixelAxes.down, hkind, axes.dx_ne, axes.dy_ne]
  | true =>
      obtain ⟨hx, hy⟩ := hturned hkind
      simp [hx, hy]

/-- A read covers what the request and the file share with whole pixels of the file, and is never
finer than the file. The grid may be placed in any way; only where the columns of the file run along
the vertical axis its pixels need a size along both axes. -/
theorem readNative_decimates (hready : reader.Ready resampling)
    (hr : reader.file.contents.transform = axes.affine) (hx : g.transform.a = .finite x)
    (hy : g.transform.e = .finite y) (hturned : axes.turned = true → x ≠ 0 ∧ y ≠ 0) :
    let source := reader.file.contents
    let overlap := g.envelope.intersection source.envelope
    (overlap.hasArea = false → reader.readNative reader.file g resampling = .ok none) ∧
      (.finite (2 / 10 ^ 6) * source.pixelSize.1 < overlap.width →
        .finite (2 / 10 ^ 6) * source.pixelSize.2 < overlap.height →
        ∃ rect coverage, reader.readNative reader.file g resampling = .ok (some coverage) ∧
          source.SnapsTo overlap rect ∧ coverage.Decimates source rect g.resolution) := by
  intro source overlap
  constructor
  · intro hnone
    rw [readNative]
    simp only [lacksArea_overlap hr, source, overlap] at hnone ⊢
    simp only [hnone]
    rfl
  · intro hwide hhigh
    have hsome := Raster.isEmpty_of_wide hr hwide
    have hcontains : source.envelope.contains overlap = true := by
      simp only [source, overlap, Raster.envelope_between hr] at hsome ⊢
      exact Envelope.contains_intersection hsome
    have harea : overlap.hasArea = true := by
      obtain ⟨shared, heq, harea, -⟩ := Raster.exists_wide hr hcontains hwide hhigh
      rw [heq]
      exact Envelope.hasArea_finite_iff.mpr harea
    obtain ⟨rect, hrect, hsnaps⟩ := Raster.exists_snapsTo hr hcontains hwide hhigh
    -- the pixels are counted at the coarser one of two resolutions
    have hnative : Scalar.abs source.transform.a = .finite |axes.frame.a| ∧
        Scalar.abs source.transform.e = .finite |axes.frame.e| := by
      simp only [source, hr, axes.affine_eq, PixelFrame.affine, Extended.abs_finite, and_self]
    have hrequested : g.resolution.1 = .finite |x| ∧ g.resolution.2 = .finite |y| := by
      simp only [Grid.resolution, hx, hy, Extended.abs_finite, and_self]
    obtain ⟨hposX, hposY⟩ := resolutions_pos hturned
    obtain ⟨width, hwidth, hcolumns⟩ := exists_countAt hsnaps.size.1 hposX
    obtain ⟨height, hheight, hrows⟩ := exists_countAt hsnaps.size.2 hposY
    rw [← hnative.1, ← hrequested.1] at hwidth hcolumns
    rw [← hnative.2, ← hrequested.2] at hheight hrows
    have hfits : reader.checkFits width height = .ok () := by
      obtain ⟨⟨hcolumn, hrow⟩, -, ⟨hcolumnEnd, hrowEnd⟩, -, -⟩ := hsnaps
      obtain ⟨hwidthPos, hwidthLe, -⟩ := hcolumns
      obtain ⟨hheightPos, hheightLe, -⟩ := hrows
      exact hready.fits width height hwidthPos (by omega) hheightPos (by omega)
    obtain ⟨method, places, hok⟩ := exists_readNative hready hr harea hrect hwidth hheight hfits
    obtain ⟨hfootprint, hwide, hhigh, hwhole, hwhole'⟩ :=
      Raster.decimates_merged hr hsnaps.size hcolumns hrows method reader.file.overviews
    exact ⟨rect, _, hok, hsnaps, hfootprint, hwide, hhigh, hwhole, hwhole'⟩

/-- A request at half the resolution of a file of four by four pixels, that reaches beyond the file
on two sides and not to its ends on the others, is answered with all of them, merged. -/
theorem merges_pixels_for_coarse_request :
    let axes : PixelAxes ℚ := ⟨0, 4, 1, -1, false, by norm_num, by norm_num⟩
    let contents : Raster (Extended ℚ) :=
      { bands := 1, rows := 4, columns := 4, pixel := fun _ row column => .whole (row + column),
        pixelType := .uint8, transform := axes.affine, crs := Crs.ofFrame Crs.Registry.wgs84 }
    let reader : FileReader (Extended ℚ) :=
      ⟨"small.tif", ⟨contents, [none], []⟩, [.whole 1], MemoryCheck.defaultFactor, 2 ^ 30⟩
    let g : Grid (Extended ℚ) :=
      { column := 0, row := 0, width := 2, height := 2,
        transform := ⟨.finite 2, .finite 0, .finite (1 / 2), .finite 0, .finite (-2),
          .finite (7 / 2)⟩,
        crs := contents.crs, width_pos := by norm_num, height_pos := by norm_num }
    ∃ rect coverage, reader.readNative reader.file g (.method .average) = .ok (some coverage) ∧
      contents.SnapsTo (g.envelope.intersection contents.envelope) rect ∧
      coverage.Decimates contents rect g.resolution := by
  intro axes contents reader g
  have hmemory : ((List.range 5).all fun width => (List.range 5).all fun height =>
      (reader.checkFits width height).toOption.isSome) = true := by
    decide +kernel
  have hready : reader.Ready (.method .average) := by
    refine ⟨fun width height hwide hnarrow hhigh hlow => ?_, rfl, ⟨[0], rfl⟩, ⟨.average, rfl⟩⟩
    lift width to ℕ using hwide.le
    lift height to ℕ using hhigh.le
    simp only [List.all_eq_true, List.mem_range, Option.isSome_iff_exists] at hmemory
    have hnarrow' : width ≤ 4 := by exact_mod_cast hnarrow
    have hlow' : height ≤ 4 := by exact_mod_cast hlow
    obtain ⟨_, hfits⟩ := hmemory width (by omega) height (by omega)
    cases hcheck : reader.checkFits width height with
    | error failure => simp [hcheck, Except.toOption] at hfits
    | ok => rfl
  have hplaced : reader.file.contents.transform = axes.affine := rfl
  have hreads := (readNative_decimates (x := 2) (y := -2) (g := g) hready hplaced rfl rfl
    (by simp [axes])).2
  exact hreads (by decide +kernel) (by decide +kernel)

end FileReader

end Antimeridian
