import Antimeridian.Proofs.Envelope.Unfolding

/-!
# Outlines bounded in longitude and latitude

Whatever a chart makes of the outline of an envelope, its image in longitude and latitude holds, at
some turns, every image of the outline that is a number, and goes around the poles that the envelope
holds. Where the images are those of an outline narrower than a turn, folded in any way, its bounds
are those of that outline.
-/

namespace Antimeridian.Envelope

variable {K : Type} [Field K] [LinearOrder K] [FloorRing K]

theorem mem_of_filter_isFinitePoint {images : List (Extended K × Extended K)}
    {places : List (K × K)} (hplaces : images.filter isFinitePoint =
      places.map fun p => (Extended.finite p.1, Extended.finite p.2)) {p : K × K} :
    p ∈ places ↔ (.finite p.1, .finite p.2) ∈ images := by
  have hinj : Function.Injective fun p : K × K => (Extended.finite p.1, Extended.finite p.2) :=
    Extended.finite_injective.prodMap Extended.finite_injective
  rw [← List.mem_map_of_injective hinj, ← hplaces, List.mem_filter]
  exact and_iff_left rfl

variable [IsStrictOrderedRing K]

omit [FloorRing K] in
theorem abs_middle_le {low high : K} (hcentred : |low + high| ≤ 360) :
    |(low + high) / 2| ≤ 180 := by
  rw [abs_div, abs_two]
  linarith

/-- From a projected system into longitude and latitude, which are never the same system, an
envelope with points is bounded as soon as one point of its outline has an image. The bounds are no
wider than a turn, have their middle in the period around zero, hold every image at some turns, and
go around a pole that the envelope holds. -/
theorem sampledTransform_frames_outline {atlas : Atlas (Extended K)} {e : Envelope K}
    {own target : Crs} {chart toOwn : Transform (Extended K)} {density : Int}
    (hcrs : e.crs = some own) (hocc : e.Occupied) (hdiffer : own.same target = false)
    (hown : own.isGeographic = false) (htarget : target.isGeographic = true)
    (hchart : atlas.find own target = .ok chart) (htoOwn : atlas.find target own = .ok toOwn)
    (hshown : ∃ p ∈ e.finite.outline density, isFinitePoint (chart.image p.1 p.2) = true) :
    ∃ f : Envelope K, e.finite.sampledTransform atlas target density = .ok f.finite ∧
      f.crs = some target.horizontal ∧
      (∀ p ∈ e.finite.outline density, ∀ lon lat : K,
        chart.image p.1 p.2 = (.finite lon, .finite lat) →
          ∃ k : Int, (lon + 360 * k, lat) ∈ f.region) ∧
      (f.maxx - f.minx ≤ 360 ∧ |(f.minx + f.maxx) / 2| ≤ 180) ∧
      ∀ pole ∈ ([90, -90] : List K), ∀ x y : K,
        toOwn.image 0 (.finite pole) = (.finite x, .finite y) → (x, y) ∈ e.region →
          f.ReachesPole pole := by
  obtain ⟨points, hpoints⟩ := exists_filter_isFinitePoint
    ((e.finite.outline density).map fun p => chart.image p.1 p.2)
  cases points with
  | nil =>
      obtain ⟨p, hp, hfinite⟩ := hshown
      rw [List.map_nil, List.filter_eq_nil_iff] at hpoints
      exact absurd hfinite (hpoints _ (List.mem_map_of_mem hp))
  | cons first rest =>
      rw [← Atlas.find_horizontal_left] at htoOwn
      obtain ⟨f, hf, hfcrs, hframes, hpoles⟩ := exists_boundGeographic (e := e.finite) htoOwn first
        rest (((e.finite.outline density).map fun p => chart.image p.1 p.2).all isFinitePoint)
      refine ⟨f, ?_, hfcrs, ?_, ⟨hframes.narrow, abs_middle_le hframes.centred⟩, ?_⟩
      · rw [← hf]
        exact sampledTransform_of_projected hcrs (isEmpty_finite hocc) hdiffer hown htarget hchart
          hpoints
      · intro p hp lon lat himage
        refine hframes.holds (lon, lat) ((mem_of_filter_isFinitePoint hpoints).mpr ?_)
        rw [← himage]
        exact List.mem_map_of_mem (f := fun p => chart.image p.1 p.2) hp
      · intro pole hpole x y himage hregion
        exact hpoles pole hpole ⟨(x, y), himage, holds_finite_iff.mpr hregion⟩

/-- A chart that shows the quadrants around the south pole, each at its middle, but nothing between
them, and a view over the pole. -/
theorem view_over_pole_is_framed :
    let crs := Crs.Registry.projected "EPSG:3031" "WGS 84 / Antarctic Polar Stereographic"
      Crs.Registry.wgs84 .polarStereographicB [(.standardLatitude, -71), (.originLongitude, 0),
        (.falseEasting, 0), (.falseNorthing, 0)]
    let geographic : Mapping (Extended ℚ) :=
      ⟨fun x y =>
        (if 0 < x then .finite (if 0 < y then 45 else 135)
          else if x < 0 then .finite (if 0 < y then -45 else -135) else .missing, .finite (-89)),
        fun x _ => x == 0, false⟩
    let planar : Mapping (Extended ℚ) :=
      ⟨fun _ lat => (0, lat + .finite 90), fun _ _ => false, false⟩
    let atlas : Atlas (Extended ℚ) :=
      ⟨fun own _ => some (if own.isGeographic then planar else geographic)⟩
    let view : Envelope ℚ := ⟨-1, -1, 1, 1, some crs⟩
    ∃ f : Envelope ℚ, view.finite.sampledTransform atlas Crs.wgs84 2 = .ok f.finite ∧
      f.ReachesPole (-90) ∧ ∃ k : Int, (-135 + 360 * (k : ℚ), -89) ∈ f.region := by
  intro crs geographic planar atlas view
  have hdiffer : crs.same Crs.wgs84 = false := by decide +kernel
  have hchart : atlas.find crs Crs.wgs84 = .ok (.direct crs Crs.wgs84 false geographic) := by
    rw [← hdiffer]
    rfl
  have htoOwn : atlas.find Crs.wgs84 crs = .ok (.direct Crs.wgs84 crs false planar) := by
    rw [← hdiffer, Crs.same_comm]
    rfl
  have hcorner : (Extended.finite (-1), Extended.finite (-1)) ∈ view.finite.outline 2 := by
    simp [outline, view]
  have hshown : Transform.image (.direct crs Crs.wgs84 false geographic) (.finite (-1))
      (.finite (-1)) = (.finite (-135), .finite (-89)) := by
    simp [Transform.image, geographic, not_lt.mpr (zero_le_one' ℚ)]
  have hpole : Transform.image (.direct Crs.wgs84 crs false planar) 0 (.finite (-90)) =
      (.finite 0, .finite 0) := by
    simp [Transform.image, planar]
  have hocc : view.Occupied := by norm_num [Occupied, view]
  obtain ⟨f, hf, -, hplaces, -, hpoles⟩ := sampledTransform_frames_outline (e := view) rfl hocc
    hdiffer rfl rfl hchart htoOwn ⟨_, hcorner, by rw [hshown]; rfl⟩
  refine ⟨f, hf, hpoles (-90) (by simp) 0 0 hpole ?_, hplaces _ hcorner _ _ hshown⟩
  norm_num [mem_region, view]

/-! ## Folded outlines -/

/-- A place on an outline: its longitude, counted on through the turns, its latitude, and the whole
turns by which a chart shows it elsewhere. -/
structure Sighting (K : Type) where
  longitude : K
  turns : Int
  latitude : K

namespace Sighting

/-- The longitude of a place with the turns by which it is shown elsewhere. -/
def folded (s : Sighting K) : K × Int := (s.longitude, s.turns)

/-- Where a chart shows a place. -/
def image (s : Sighting K) : Extended K × Extended K :=
  (.finite (Longitude.shown s.folded), .finite s.latitude)

end Sighting

/-- An outline that closes, takes no step of half a turn and is narrower than a turn is bounded
exactly, however its longitudes were folded, at the turns that put its middle in the period around
zero. -/
theorem boundGeographic_unfolds {atlas : Atlas (Extended K)} {e : Envelope (Extended K)}
    {own target : Crs} {toOwn : Transform (Extended K)} (htoOwn : atlas.find target own = .ok toOwn)
    (hpoles : ∀ pole ∈ ([90, -90] : List K), ¬e.HoldsPole toOwn pole) (first : Sighting K)
    (rest : List (Sighting K))
    (hsteps : (first :: rest).IsChain fun s t => |t.longitude - s.longitude| < 180)
    (hclosed : ((first :: rest).getLastD first).longitude = first.longitude)
    (hnarrow : greatest ((first :: rest).map (·.longitude)) -
      least ((first :: rest).map (·.longitude)) < 360) :
    ∃ n : Int,
      |(least ((first :: rest).map (·.longitude)) + 360 * n +
        (greatest ((first :: rest).map (·.longitude)) + 360 * n)) / 2| ≤ 180 ∧
      boundGeographic atlas e own target first.image (rest.map Sighting.image) true =
        .ok (⟨least ((first :: rest).map (·.longitude)) + 360 * n,
          least ((first :: rest).map (·.latitude)),
          greatest ((first :: rest).map (·.longitude)) + 360 * n,
          greatest ((first :: rest).map (·.latitude)), some target⟩ : Envelope K).finite := by
  have hsteps' : (first.folded :: rest.map Sighting.folded).IsChain
      fun p q => |q.1 - p.1| < 180 := by
    rwa [← List.map_cons, List.isChain_map]
  obtain ⟨n, hrange⟩ := longitudeRange_of_short hsteps'
    (by rwa [← List.map_cons, List.getLastD_map])
    (by rwa [← List.map_cons, List.map_map]) true
  have hlongitude : Prod.fst ∘ Sighting.folded = fun s : Sighting K => s.longitude := rfl
  rw [← List.map_cons, List.map_map, List.map_map, hlongitude] at hrange
  -- any range has its middle in the period around zero
  obtain ⟨low, high, hrange', ⟨-, hcentred⟩, -⟩ := exists_longitudeRange
    (Longitude.shown first.folded) (rest.map (Longitude.shown ∘ Sighting.folded)) true
  rw [List.map_map] at hrange'
  obtain ⟨hlow, hhigh⟩ := Prod.mk.inj (hrange.symm.trans hrange')
  have hbound := boundGeographic_of_not_holdsPole htoOwn hpoles
    (Longitude.shown first.folded, first.latitude)
    (rest.map fun s => (Longitude.shown s.folded, s.latitude)) (by rw [List.map_map]; exact hrange)
  refine ⟨n, ?_, ?_⟩
  · rw [← Extended.finite_injective hlow, ← Extended.finite_injective hhigh] at hcentred
    exact abs_middle_le hcentred
  · simp only [List.map_map] at hbound
    exact hbound

/-- A view of 160 to 190 degrees of longitude, on a chart that folds what lies beyond 180. -/
theorem view_over_antimeridian_unfolds :
    let crs := Crs.Registry.projected "EPSG:3832" "WGS 84 / PDC Mercator" Crs.Registry.wgs84
      .mercatorA [(.naturalLatitude, 0), (.naturalLongitude, 150), (.naturalScale, 1),
        (.falseEasting, 0), (.falseNorthing, 0)]
    let planar : Mapping (Extended ℚ) :=
      ⟨fun lon lat => (lon - .finite 150, lat), fun _ _ => false, false⟩
    let atlas : Atlas (Extended ℚ) := ⟨fun _ _ => some planar⟩
    let view : Envelope ℚ := ⟨10, -5, 40, 5, some crs⟩
    boundGeographic atlas view.finite crs Crs.wgs84 (.finite 160, .finite (-5))
        [(.finite (-170), .finite (-5)), (.finite (-170), .finite 5), (.finite 160, .finite 5),
          (.finite 160, .finite (-5))] true =
      .ok (⟨160, -5, 190, 5, some Crs.wgs84⟩ : Envelope ℚ).finite := by
  intro crs planar atlas view
  have hdiffer : Crs.wgs84.same crs = false := by decide +kernel
  have htoOwn : atlas.find Crs.wgs84 crs = .ok (.direct Crs.wgs84 crs false planar) := by
    rw [← hdiffer]
    rfl
  have hpoles : ∀ pole ∈ ([90, -90] : List ℚ),
      ¬view.finite.HoldsPole (.direct Crs.wgs84 crs false planar) pole := by
    rintro pole hpole ⟨p, himage, hholds⟩
    obtain rfl : pole = p.2 := Extended.finite_injective (congrArg Prod.snd himage)
    obtain ⟨-, hsouth, hnorth⟩ := mem_region.mp (holds_finite_iff.mp hholds)
    simp only [view] at hsouth hnorth
    simp only [List.mem_cons, List.not_mem_nil, or_false] at hpole
    rcases hpole with hpole | hpole <;> linarith
  let first : Sighting ℚ := ⟨160, 0, -5⟩
  let rest : List (Sighting ℚ) := [⟨190, -1, -5⟩, ⟨190, -1, 5⟩, ⟨160, 0, 5⟩, ⟨160, 0, -5⟩]
  have hlongitudes : least ((first :: rest).map (·.longitude)) = 160 ∧
      greatest ((first :: rest).map (·.longitude)) = 190 := by decide +kernel
  have hlatitudes : least ((first :: rest).map (·.latitude)) = -5 ∧
      greatest ((first :: rest).map (·.latitude)) = 5 := by decide +kernel
  have himages : first.image = (.finite 160, .finite (-5)) ∧ rest.map Sighting.image =
      [(.finite (-170), .finite (-5)), (.finite (-170), .finite 5), (.finite 160, .finite 5),
        (.finite 160, .finite (-5))] := by
    norm_num [first, rest, Sighting.image, Sighting.folded, Longitude.shown]
  obtain ⟨n, hcentred, hbound⟩ := boundGeographic_unfolds htoOwn hpoles first rest
    (by decide +kernel) rfl (by decide +kernel)
  rw [hlongitudes.1, hlongitudes.2] at hcentred hbound
  rw [hlatitudes.1, hlatitudes.2, himages.1, himages.2] at hbound
  -- the middle is at 175 degrees as it is
  obtain rfl : n = 0 := by
    obtain ⟨hlow, hhigh⟩ := abs_le.mp hcentred
    have hbelow : (-1 : ℚ) < n := by linarith
    have habove : (n : ℚ) < 1 := by linarith
    norm_cast at hbelow habove
    omega
  rw [hbound]
  norm_num

end Antimeridian.Envelope
