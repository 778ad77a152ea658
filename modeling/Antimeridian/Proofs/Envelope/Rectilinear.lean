import Antimeridian.Proofs.Envelope.Turning
import Antimeridian.Proofs.Envelope.Unfolding

/-!
# Charts along the axes

A chart that places longitudes by one function and latitudes by another, neither of which turns
back, shows an envelope as the rectangle between the images of its corners. The outline reaches all
four of them however few points are taken along it, and no other point of it goes further.
-/

namespace Antimeridian

variable {K : Type} [LinearOrder K]

/-- Whether a function keeps the order of a range, or reverses it. -/
def Turnless (f : K → K) (low high : K) : Prop :=
  MonotoneOn f (Set.Icc low high) ∨ AntitoneOn f (Set.Icc low high)

theorem Turnless.between {f : K → K} {low high x : K} (hf : Turnless f low high)
    (hx : x ∈ Set.Icc low high) : min (f low) (f high) ≤ f x ∧ f x ≤ max (f low) (f high) := by
  have hle : low ≤ high := hx.1.trans hx.2
  have hlow : low ∈ Set.Icc low high := Set.left_mem_Icc.mpr hle
  have hhigh : high ∈ Set.Icc low high := Set.right_mem_Icc.mpr hle
  rcases hf with hmono | hanti
  · exact ⟨min_le_of_left_le (hmono hlow hx hx.1), le_max_of_le_right (hmono hx hhigh hx.2)⟩
  · exact ⟨min_le_of_right_le (hanti hx hhigh hx.2), le_max_of_le_left (hanti hlow hx hx.1)⟩

variable [Field K]

/-- A list that reaches both ends of a range, and goes no further, is bounded by the images of the
ends. -/
theorem Turnless.extremes {β : Type} {f : K → K} {low high : K} (hf : Turnless f low high)
    {bs : List β} {x : β → K} (hwithin : ∀ b ∈ bs, x b ∈ Set.Icc low high)
    (hlow : ∃ b ∈ bs, x b = low) (hhigh : ∃ b ∈ bs, x b = high) :
    least (bs.map fun b => f (x b)) = min (f low) (f high) ∧
      greatest (bs.map fun b => f (x b)) = max (f low) (f high) := by
  obtain ⟨first, hfirst, rfl⟩ := hlow
  obtain ⟨last, hlast, rfl⟩ := hhigh
  have hne : (bs.map fun b => f (x b)) ≠ [] := by
    simpa using List.ne_nil_of_mem hfirst
  obtain ⟨hleast, hle⟩ := least_spec hne
  obtain ⟨hgreatest, hge⟩ := greatest_spec hne
  obtain ⟨b, hb, hb'⟩ := List.mem_map.mp hleast
  obtain ⟨c, hc, hc'⟩ := List.mem_map.mp hgreatest
  constructor
  · apply le_antisymm
    · exact le_min (hle _ (List.mem_map_of_mem hfirst)) (hle _ (List.mem_map_of_mem hlast))
    · rw [← hb']
      exact (hf.between (hwithin b hb)).1
  · apply le_antisymm
    · rw [← hc']
      exact (hf.between (hwithin c hc)).2
    · exact max_le (hge _ (List.mem_map_of_mem hfirst)) (hge _ (List.mem_map_of_mem hlast))

namespace Envelope

variable [FloorRing K] [IsStrictOrderedRing K] {e : Envelope K}

/-- The envelope around the images of the points of an outline. -/
theorem hull_around (hocc : e.Occupied) {f g : K → K} (hf : Turnless f e.minx e.maxx)
    (hg : Turnless g e.miny e.maxy) {n : Nat} (hn : n ≠ 0) (crs : Crs) :
    hull ((e.around n).map fun p => (f p.1, g p.2)) crs =
      ⟨min (f e.minx) (f e.maxx), min (g e.miny) (g e.maxy), max (f e.minx) (f e.maxx),
        max (g e.miny) (g e.maxy), some crs⟩ := by
  obtain ⟨hfirst, hlast⟩ := e.corners_mem_around hn
  have hwithin (p : K × K) (hp : p ∈ e.around n) := mem_region.mp (region_of_mem_around hocc hp)
  obtain ⟨hwest, heast⟩ := hf.extremes (fun p hp => (hwithin p hp).1) ⟨_, hfirst, rfl⟩
    ⟨_, hlast, rfl⟩
  obtain ⟨hsouth, hnorth⟩ := hg.extremes (fun p hp => (hwithin p hp).2) ⟨_, hfirst, rfl⟩
    ⟨_, hlast, rfl⟩
  rw [hull, List.map_map, List.map_map, ← hwest, ← heast, ← hsouth, ← hnorth]
  rfl

/-- In a projected system that a chart leads to along the axes, an envelope with points has the
rectangle between the images of its corners as its image, however many points are asked for along
its edges. -/
theorem sampledTransform_of_rectilinear {atlas : Atlas (Extended K)} {own target : Crs}
    {chart : Transform (Extended K)} {f g : K → K} (hcrs : e.crs = some own) (hocc : e.Occupied)
    (hdiffer : own.same target = false) (htarget : target.isGeographic = false)
    (hchart : atlas.find own target = .ok chart)
    (himage : ∀ x ∈ Set.Icc e.minx e.maxx, ∀ y ∈ Set.Icc e.miny e.maxy,
      chart.image (.finite x) (.finite y) = (.finite (f x), .finite (g y)))
    (hf : Turnless f e.minx e.maxx) (hg : Turnless g e.miny e.maxy) (density : Int) :
    e.finite.sampledTransform atlas target density =
      .ok (⟨min (f e.minx) (f e.maxx), min (g e.miny) (g e.maxy), max (f e.minx) (f e.maxx),
        max (g e.miny) (g e.maxy), some target.horizontal⟩ : Envelope K).finite := by
  have hn : (max density 2).toNat ≠ 0 := by omega
  have himages : ((e.finite.outline density).map fun p => chart.image p.1 p.2) =
      ((e.around (max density 2).toNat).map fun p => (f p.1, g p.2)).map fun p =>
        (Extended.finite p.1, Extended.finite p.2) := by
    rw [outline_finite, List.map_map, List.map_map]
    refine List.map_congr_left fun p hp => ?_
    obtain ⟨hx, hy⟩ := mem_region.mp (region_of_mem_around hocc hp)
    exact himage p.1 hx p.2 hy
  have hplaces : ((e.around (max density 2).toNat).map fun p => (f p.1, g p.2)) ≠ [] := by
    simpa using List.ne_nil_of_mem (e.corners_mem_around hn).1
  have hfinite : ∀ image ∈ (e.finite.outline density).map fun p => chart.image p.1 p.2,
      isFinitePoint image = true := by
    intro image hmem
    rw [himages] at hmem
    obtain ⟨p, -, rfl⟩ := List.mem_map.mp hmem
    rfl
  rw [sampledTransform_of_places (e := e.finite) hcrs hdiffer (isEmpty_finite hocc)
    (by rw [htarget, Bool.false_and]) hchart
    (by rw [htarget, Bool.and_false, if_neg Bool.false_ne_true, List.filter_eq_self.mpr hfinite,
      himages]), if_neg hplaces, hull_around hocc hf hg hn]

/-- A chart on which longitudes run to the west, and latitudes to the north in cubes, asked for a
negative number of points. -/
theorem westward_chart_shows_rectangle :
    let crs := Crs.Registry.projected "EPSG:3395" "WGS 84 / World Mercator" Crs.Registry.wgs84
      .mercatorA [(.naturalLatitude, 0), (.naturalLongitude, 0), (.naturalScale, 1),
        (.falseEasting, 0), (.falseNorthing, 0)]
    let westward : Mapping (Extended ℚ) :=
      ⟨fun lon lat => (.finite (-2) * lon, lat * lat * lat), fun _ _ => false, false⟩
    let atlas : Atlas (Extended ℚ) := ⟨fun _ _ => some westward⟩
    let view : Envelope ℚ := ⟨170, -5, 190, 3, some Crs.wgs84⟩
    view.finite.sampledTransform atlas crs (-7) =
      .ok (⟨-380, -125, -340, 27, some crs⟩ : Envelope ℚ).finite := by
  intro crs westward atlas view
  have hdiffer : Crs.wgs84.same crs = false := by decide +kernel
  have hchart : atlas.find Crs.wgs84 crs = .ok (.direct Crs.wgs84 crs false westward) := by
    rw [← hdiffer]
    rfl
  have hcubes : Monotone fun y : ℚ => y * y * y := by
    intro y z hle
    have hcube := (show Odd 3 by decide).strictMono_pow.monotone hle
    simpa only [pow_succ, pow_zero, one_mul] using hcube
  have hwest : Turnless (fun x : ℚ => -2 * x) view.minx view.maxx :=
    .inr fun x _ z _ hle => by linarith
  rw [sampledTransform_of_rectilinear (e := view) (f := fun x => -2 * x) (g := fun y => y * y * y)
    rfl (by norm_num [Occupied, view]) hdiffer rfl hchart (fun _ _ _ _ => rfl) hwest
    (.inl (hcubes.monotoneOn _))]
  norm_num [view]
  rfl

end Envelope

end Antimeridian
