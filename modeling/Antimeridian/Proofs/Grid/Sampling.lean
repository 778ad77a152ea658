import Antimeridian.Grid.Resolution
import Antimeridian.Proofs.Crs.Horizontal
import Antimeridian.Proofs.Grid.Renumbering

/-!
# Resolutions found by sampling

A chart that stretches each axis evenly stretches all pixels of a grid along the axes alike, so that
every sample finds the same size of a pixel, wherever and however many the samples are. Where the
chart leaves the axes as they are, sampling finds what the grid itself says its pixels measure.
-/

namespace Antimeridian

/-! ## Lengths -/

namespace Extended

/-- The length of a plane vector. It is infinite as soon as one of the components is. -/
noncomputable def planarLength : Extended ℝ → Extended ℝ → Extended ℝ
  | finite x, finite y => finite √(x * x + y * y)
  | above, _ | below, _ | _, above | _, below => above
  | _, _ => missing

noncomputable instance : PlanarLength (Extended ℝ) := ⟨planarLength⟩

theorem length_along_x (x : ℝ) : PlanarLength.length (finite x) (finite 0) = finite |x| := by
  change finite √(x * x + 0 * 0) = finite |x|
  rw [mul_zero, add_zero, Real.sqrt_mul_self_eq_abs]

theorem length_along_y (y : ℝ) : PlanarLength.length (finite 0) (finite y) = finite |y| := by
  change finite √(0 * 0 + y * y) = finite |y|
  rw [mul_zero, zero_add, Real.sqrt_mul_self_eq_abs]

end Extended

theorem Scalar.minimum_replicate {K : Type} [Field K] [LinearOrder K] [FloorRing K] (x : K)
    (n : Nat) : Scalar.minimum (Extended.finite x) (List.replicate n (.finite x)) = .finite x := by
  induction n with
  | zero => rfl
  | succ n ih => rwa [List.replicate_succ, minimum, List.foldl_cons, Extended.min_finite, min_self]

namespace Grid

/-- Data are read in the resolution of the grid within its own system, and in a sampled one in
another, though no finer than they are. -/
theorem readResolution_eq {α : Type} [Scalar α] [PlanarLength α] {atlas : Atlas α} {g : Grid α}
    {crs : Crs} {samples : Int} {size : α × α}
    (hsame : g.crs.same crs = true → g.resolution = size)
    (hdiffer : g.crs.same crs = false → g.sampledResolution atlas crs samples = .ok size)
    (native : Option (α × α)) :
    g.readResolution atlas crs native samples =
      .ok (native.elim size fun n => (Scalar.max size.1 n.1, Scalar.max size.2 n.2)) := by
  have hsize : (if g.crs.same crs then pure g.resolution
      else g.sampledResolution atlas crs samples) = Except.ok size := by
    split
    next heq => rw [hsame heq]; rfl
    next heq => exact hdiffer (Bool.eq_false_iff.mpr heq)
  rw [readResolution, ← apply_ite (· >>= _), hsize]
  cases native <;> rfl

section Samples

variable {K : Type} [Field K] [LinearOrder K] [FloorRing K]

/-- Numbers at equal distances are numbers, even where there is only one of them. -/
theorem exists_of_mem_spread [IsStrictOrderedRing K] {first last : K} {count : Nat} {x : Extended K}
    (hx : x ∈ spread (.finite first) (.finite last) count) : ∃ y : K, x = .finite y := by
  rw [spread] at hx
  obtain ⟨i, hi, rfl⟩ := List.mem_map.mp hx
  rw [List.mem_range] at hi
  split
  next => exact ⟨i * (last - first) + first, by simp⟩
  next hsingle =>
    -- at least two, they are some gaps apart
    have hgaps : (((count - 1 : Nat) : Int) : K) ≠ 0 := by
      rw [Int.cast_natCast, Nat.cast_ne_zero]
      omega
    rw [Extended.finite_sub, Extended.ofInt_eq, Extended.ofInt_eq, Extended.finite_div _ hgaps,
      Extended.finite_div _ hgaps, Extended.finite_mul, Extended.finite_mul, Extended.finite_add,
      Extended.finite_add]
    split
    · exact ⟨last, rfl⟩
    · split
      · exact ⟨_, rfl⟩
      · exact ⟨_, rfl⟩

theorem exists_of_mem_sampleCentres [IsStrictOrderedRing K] {start size samples : Int}
    {x : Extended K} (hx : x ∈ sampleCentres start size samples) : ∃ y : K, x = .finite y := by
  obtain ⟨z, hz, rfl⟩ := List.mem_map.mp hx
  rw [Extended.ofInt_eq, Extended.ofInt_eq] at hz
  obtain ⟨y, rfl⟩ := exists_of_mem_spread hz
  exact ⟨_, by rw [Extended.ofScientific_eq, Extended.finite_add]⟩

/-- Some pixels are looked at, whatever number of them is asked for. -/
theorem sampleCentres_ne_nil (start size samples : Int) :
    (sampleCentres start size samples : List (Extended K)) ≠ [] := by
  rw [← List.length_pos_iff, sampleCentres, List.length_map, spread, List.length_map,
    List.length_range]
  omega

variable [PlanarLength (Extended K)]

/-- The sizes of the images of all pixels that are looked at. -/
def sampledSizes (g : Grid (Extended K)) (chart : Transform (Extended K)) (samples : Int) :
    List (Extended K × Extended K) :=
  (sampleCentres g.row g.height samples).flatMap fun row =>
    (sampleCentres g.column g.width samples).map fun column => imageSteps g chart column row

variable [IsStrictOrderedRing K] {atlas : Atlas (Extended K)} {g : Grid (Extended K)} {crs : Crs}
  {chart : Transform (Extended K)} {width height : K}

theorem sampledSizes_eq_replicate
    (heven : ∀ column row : K, imageSteps g chart (.finite column) (.finite row) =
      (.finite width, .finite height)) (samples : Int) :
    ∃ n : Nat, g.sampledSizes chart samples =
      List.replicate (n + 1) (.finite width, .finite height) := by
  have hall : ∀ size ∈ g.sampledSizes chart samples, size = (.finite width, .finite height) := by
    intro size hsize
    obtain ⟨row, hrow, hsize⟩ := List.mem_flatMap.mp hsize
    obtain ⟨column, hcolumn, rfl⟩ := List.mem_map.mp hsize
    obtain ⟨y, rfl⟩ := exists_of_mem_sampleCentres hrow
    obtain ⟨x, rfl⟩ := exists_of_mem_sampleCentres hcolumn
    exact heven x y
  have hne : g.sampledSizes chart samples ≠ [] := by
    obtain ⟨row, hrow⟩ := List.exists_mem_of_ne_nil _
      (sampleCentres_ne_nil (K := K) g.row g.height samples)
    obtain ⟨column, hcolumn⟩ := List.exists_mem_of_ne_nil _
      (sampleCentres_ne_nil (K := K) g.column g.width samples)
    exact List.ne_nil_of_mem (List.mem_flatMap.mpr ⟨row, hrow, List.mem_map_of_mem hcolumn⟩)
  obtain ⟨n, hn⟩ := Nat.exists_eq_succ_of_ne_zero (List.length_pos_iff.mpr hne).ne'
  exact ⟨n, by rw [List.eq_replicate_of_mem hall, hn]⟩

/-- Where all pixels have images of one size, this is the resolution that is found. -/
theorem sampledResolution_of_even (hchart : atlas.find g.crs crs = .ok chart) (hwidth : 0 < width)
    (hheight : 0 < height)
    (heven : ∀ column row : K, imageSteps g chart (.finite column) (.finite row) =
      (.finite width, .finite height)) (samples : Int) :
    g.sampledResolution atlas crs samples = .ok (.finite width, .finite height) := by
  obtain ⟨n, hsizes⟩ := sampledSizes_eq_replicate heven samples
  have hvalid : (Scalar.isFinite (Extended.finite width) &&
      Scalar.isFinite (Extended.finite height) && 0 < Extended.finite width &&
      0 < Extended.finite height) = true := by
    simp [hwidth, hheight]
  rw [sampledSizes] at hsizes
  simp only [sampledResolution, hchart, bind, Except.bind, hsizes, List.filter_replicate, hvalid,
    if_true]
  simp only [List.replicate_succ, List.map_replicate, Scalar.minimum_replicate, pure, Except.pure]

end Samples

/-! ## Even charts -/

section Even

variable {g : Grid (Extended ℝ)} {chart : Transform (Extended ℝ)} {a c e f s t u v : ℝ}

/-- A chart that stretches the axes evenly, stretches all pixels along them alike. -/
theorem imageSteps_of_even (htransform : g.transform = (⟨a, 0, c, 0, e, f⟩ : Affine ℝ).finite)
    (himage : ∀ x y : ℝ, chart.image (.finite x) (.finite y) =
      (.finite (s * x + t), .finite (u * y + v))) (column row : ℝ) :
    imageSteps g chart (.finite column) (.finite row) = (.finite |s * a|, .finite |u * e|) := by
  simp only [imageSteps, htransform, Affine.apply_finite, himage, Extended.one_eq,
    Extended.finite_add, Extended.finite_sub]
  have hright : s * (a * (column + 1) + 0 * row + c) + t - (s * (a * column + 0 * row + c) + t) =
      s * a := by ring
  have hright' : u * (0 * (column + 1) + e * row + f) + v - (u * (0 * column + e * row + f) + v) =
      0 := by ring
  have hdown : s * (a * column + 0 * (row + 1) + c) + t - (s * (a * column + 0 * row + c) + t) =
      0 := by ring
  have hdown' : u * (0 * column + e * (row + 1) + f) + v - (u * (0 * column + e * row + f) + v) =
      u * e := by ring
  rw [hright, hright', hdown, hdown', Extended.length_along_x, Extended.length_along_y]

/-- Between equal systems a chart leaves the axes as they are. -/
theorem even_of_same {atlas : Atlas (Extended ℝ)} {source target : Crs}
    (hsame : source.same target = true) (hchart : atlas.find source target = .ok chart)
    (himage : ∀ x y : ℝ, chart.image (.finite x) (.finite y) =
      (.finite (s * x + t), .finite (u * y + v))) : s = 1 ∧ u = 1 := by
  have hidentity (x y : ℝ) : chart.image (.finite x) (.finite y) = (.finite x, .finite y) := by
    rw [Atlas.find] at hchart
    split at hchart
    · contradiction
    · cases hchart
      rw [Transform.image, Crs.same_horizontal_left, Crs.same_horizontal_right, hsame, if_pos rfl]
  have hstart := (himage 0 0).symm.trans (hidentity 0 0)
  have hend := (himage 1 1).symm.trans (hidentity 1 1)
  simp only [Prod.mk.injEq, Extended.finite.injEq] at hstart hend
  constructor <;> linarith [hstart.1, hstart.2, hend.1, hend.2]

/-- Where a chart stretches the axes evenly, sampling finds the size of a pixel stretched by as
much, however many samples are asked for, and the size of a pixel itself where the axes stay as they
are. Data are read in this resolution, or their own where that is coarser. -/
theorem sampled_resolution_is_stretched {atlas : Atlas (Extended ℝ)} {crs : Crs}
    (htransform : g.transform = (⟨a, 0, c, 0, e, f⟩ : Affine ℝ).finite) (ha : a ≠ 0) (he : e ≠ 0)
    (hchart : atlas.find g.crs crs = .ok chart) (hs : s ≠ 0) (hu : u ≠ 0)
    (himage : ∀ x y : ℝ, chart.image (.finite x) (.finite y) =
      (.finite (s * x + t), .finite (u * y + v))) (samples : Int) :
    g.sampledResolution atlas crs samples = .ok (.finite |s * a|, .finite |u * e|) ∧
      (s = 1 → u = 1 → g.sampledResolution atlas crs samples = .ok g.resolution) ∧
      g.readResolution atlas crs none samples = .ok (.finite |s * a|, .finite |u * e|) ∧
      ∀ nativeX nativeY : ℝ,
        g.readResolution atlas crs (some (.finite nativeX, .finite nativeY)) samples =
          .ok (.finite (max |s * a| nativeX), .finite (max |u * e| nativeY)) := by
  have hsampled := sampledResolution_of_even hchart (abs_pos.mpr (mul_ne_zero hs ha))
    (abs_pos.mpr (mul_ne_zero hu he)) (imageSteps_of_even htransform himage) samples
  have hresolution : g.resolution = (.finite |a|, .finite |e|) := by
    rw [resolution, htransform, Affine.finite, Extended.abs_finite, Extended.abs_finite]
  have hsame : g.crs.same crs = true → g.resolution = (.finite |s * a|, .finite |u * e|) := by
    intro hsame
    obtain ⟨hs, hu⟩ := even_of_same hsame hchart himage
    rw [hresolution, hs, hu, one_mul, one_mul]
  have hread := readResolution_eq hsame fun _ => hsampled
  refine ⟨hsampled, ?_, hread none, ?_⟩
  · intro hs hu
    rw [hsampled, hresolution, hs, hu, one_mul, one_mul]
  · intro nativeX nativeY
    rw [hread, Option.elim_some, Extended.max_finite, Extended.max_finite]

/-- Pixels that run to the east and to the south, on a chart that runs to the west: no sample is
asked for, and the data are coarser than the pixels along one axis. -/
theorem westward_chart_stretches_pixels :
    let crs := Crs.Registry.projected "EPSG:3395" "WGS 84 / World Mercator" Crs.Registry.wgs84
      .mercatorA [(.naturalLatitude, 0), (.naturalLongitude, 0), (.naturalScale, 1),
        (.falseEasting, 0), (.falseNorthing, 0)]
    let westward : Mapping (Extended ℝ) :=
      ⟨fun lon lat => (.finite (-2) * lon + .finite 10, .finite 3 * lat + .finite 5),
        fun _ _ => false, false⟩
    let atlas : Atlas (Extended ℝ) := ⟨fun _ _ => some westward⟩
    let grid : Grid (Extended ℝ) :=
      ⟨-3, 4, 7, 2, (⟨1 / 4, 0, 170, 0, -1 / 2, 60⟩ : Affine ℝ).finite, Crs.wgs84, by decide,
        by decide⟩
    grid.readResolution atlas crs (some (.finite 1, .finite 1)) (-5) =
      .ok (.finite 1, .finite (3 / 2)) := by
  intro crs westward atlas grid
  have hdiffer : Crs.wgs84.same crs = false := by decide +kernel
  have hchart : atlas.find Crs.wgs84 crs = .ok (.direct Crs.wgs84 crs false westward) := by
    rw [← hdiffer]
    rfl
  obtain ⟨-, -, -, hread⟩ := sampled_resolution_is_stretched (g := grid) (s := -2) (t := 10)
    (u := 3) (v := 5) rfl (by norm_num) (by norm_num) hchart (by norm_num) (by norm_num)
    (fun _ _ => rfl) (-5)
  rw [hread]
  norm_num [abs_of_neg, abs_of_pos]

end Even

end Grid

end Antimeridian
