import Antimeridian.Proofs.Envelope.PointSets
import Antimeridian.Proofs.Rendering.Skipping
import Antimeridian.Proofs.Rendering.Visibility

/-!
# Cutting twice

What cutting leaves of a geometry in the geographic base of a projection lies in the valid area, so
that the valid area has no part in cutting it again: the rectangles are those of the queries alone.
Every point that is left lies in one of them, and nothing more is cut away.
-/

namespace Antimeridian

open Antimeridian.Geometry

variable {K : Type} [Field K] [LinearOrder K] [FloorRing K]

/-- Clipping gives exactly what sound geometries share with some rectangles, and gives sound
geometries. In a sound geometry no shell runs inside a hole: it paints the vertices that bound
it. -/
structure Overlay.ClipsAmong (overlay : Overlay (Extended K)) (sound : Geometry K → Prop) :
    Prop where
  exactly : ∀ g, sound g → overlay.ClipsExactly g
  stays : ∀ g, sound g → ∀ (rects : List (Envelope K)) (h : Geometry K),
    (∀ rect ∈ rects, rect.HasArea) →
    overlay.clip g.finite (rects.map Envelope.finite) = h.finite → sound h
  drawn : ∀ g, sound g → ∀ v ∈ g.outline, v.place ∈ g.painted

/-- Whether a geometry consists of places without heights. -/
def Geometry.IsPlaces (g : Geometry K) : Prop :=
  ∃ vs : List (Vertex K), g = .points (vs.map some) ∧ ∀ v ∈ vs, v.z = none

omit [Field K] [LinearOrder K] [FloorRing K] in
theorem Geometry.outline_places (vs : List (Vertex K)) :
    (Geometry.points (vs.map some)).outline = vs := by
  simp [Geometry.outline]

/-- Clipping places among places leaves out those outside of all rectangles. -/
theorem clipsAmong_places {overlay : Overlay (Extended K)} (hclip : overlay.clip = clipPlaces) :
    overlay.ClipsAmong Geometry.IsPlaces where
  exactly := by
    rintro g ⟨vs, rfl, hflat⟩
    exact clipsExactly_of_places hclip (by simp [painted, Geometry.outline])
      (by rwa [outline_places])
  stays := by
    rintro g ⟨vs, rfl, hflat⟩ rects h - heq
    rw [hclip, clipPlaces_finite] at heq
    refine ⟨_, (Geometry.finite_injective heq).symm, fun v hv => ?_⟩
    rw [outline_places] at hv
    exact hflat v (List.mem_filter.mp hv).1
  drawn := by
    rintro g ⟨vs, rfl, -⟩ v hv
    rw [outline_places] at hv
    exact ⟨some v, List.mem_map_of_mem hv, v, rfl, rfl⟩

namespace Envelope

variable {e : Envelope K} {f : Envelope (Extended K)} {p : K × K}

theorem holds_iff : f.Holds p ↔
    Between f.minx f.maxx (.finite p.1) ∧ Between f.miny f.maxy (.finite p.2) :=
  mem_points (p := (Extended.finite p.1, Extended.finite p.2))

theorem Encloses.holds (hencloses : f.Encloses e) (hp : p ∈ e.region) : f.Holds p := by
  obtain ⟨⟨hwest, heast⟩, hsouth, hnorth⟩ := hencloses
  obtain ⟨⟨hpwest, hpeast⟩, hpsouth, hpnorth⟩ := mem_region.mp hp
  rw [holds_iff]
  exact ⟨⟨Extended.le_finite_trans hwest hpwest, Extended.finite_le_trans hpeast heast⟩,
    Extended.le_finite_trans hsouth hpsouth, Extended.finite_le_trans hpnorth hnorth⟩

/-- An envelope that holds the vertices that bound a geometry contains its bounds. -/
theorem contains_envelope {g : Geometry K} (hne : g.isEmpty = false)
    (hholds : ∀ v ∈ g.outline, f.Holds v.place) (crs : Crs) :
    f.contains (g.envelope crs).finite = true := by
  have hbetween (v : Vertex K) (hv : v ∈ g.outline) := holds_iff.mp (hholds v hv)
  obtain ⟨west, hwest, hwest_eq⟩ := exists_west hne
  obtain ⟨south, hsouth, hsouth_eq⟩ := exists_south hne
  obtain ⟨east, heast, heast_eq⟩ := exists_east hne
  obtain ⟨north, hnorth, hnorth_eq⟩ := exists_north hne
  have hpoint : (Extended.finite west.x, Extended.finite west.y) ∈ f.points := hholds west hwest
  have hencloses : f.Encloses (g.envelope crs) := by
    simp only [Encloses, envelope, ← hwest_eq, ← hsouth_eq, ← heast_eq, ← hnorth_eq]
    exact ⟨⟨(hbetween west hwest).1.1, (hbetween east heast).1.2⟩, (hbetween south hsouth).2.1,
      (hbetween north hnorth).2.2⟩
  exact contains_iff.mpr ⟨⟨isEmpty_of_mem_points hpoint,
    isEmpty_finite (envelope_occupied hne crs)⟩, hencloses⟩

end Envelope

namespace Rendering

open Envelope

variable [IsStrictOrderedRing K] {setting : Setting (Extended K)} {g cut : Geometry K} {crs : Crs}
  {valid : Envelope (Extended K)} {mask : List (Envelope K)}

omit [IsStrictOrderedRing K] in
/-- A point of an envelope that lies in a rectangle it is cut to lies in the valid area and in the
mask. -/
theorem holds_of_mem_trimmed {e rect : Envelope K} (hrect : rect ∈ trimmed valid mask e)
    (harea : rect.HasArea) {p : K × K} (hp : p ∈ e.region) (hin : p ∈ rect.region) :
    valid.Holds p ∧ ∃ other ∈ mask, other.HasArea ∧ p ∈ other.region := by
  rw [trimmed] at hrect
  split at hrect
  next hcontains =>
    have hencloses : valid.Encloses e := (contains_iff.mp hcontains).2
    exact ⟨hencloses.holds hp, rect, hrect, harea, hin⟩
  next =>
    split at hrect
    next hmeets =>
      obtain ⟨other, hother, -, rfl⟩ := mem_clipMask.mp hrect
      obtain ⟨hin, hclamp⟩ := mem_region_meet.mp hin
      refine ⟨(encloses_clamp hmeets).holds hclamp, other, hother, ⟨?_, ?_⟩, hin⟩
      · exact (le_max_left _ _).trans_lt (harea.1.trans_le (min_le_left _ _))
      · exact (le_max_left _ _).trans_lt (harea.2.trans_le (min_le_left _ _))
    next => cases hrect

/-- What cutting to the parts of a mask in the valid area leaves: points of the geometry, all of
them in the valid area. It is the geometry itself, or a result of clipping in the mask. -/
theorem exists_cutTo_trimmed (hclips : setting.overlay.ClipsExactly g) (hne : g.isEmpty = false)
    (crs : Crs) (valid : Envelope (Extended K)) (mask : List (Envelope K)) :
    ∃ cut : Geometry K,
      (cutTo setting ((trimmed valid mask (g.envelope crs)).map Envelope.finite) g.finite
        (g.envelope crs).finite).applyTo g.finite = cut.finite ∧
      cut.painted ⊆ g.painted ∧ (∀ p ∈ cut.painted, valid.Holds p) ∧
      (cut = g ∨
        (∀ p ∈ cut.painted, ∃ rect ∈ mask, rect.HasArea ∧ p ∈ rect.region) ∧
        (cut.isEmpty = false → ∃ cutting : List (Envelope K), (∀ rect ∈ cutting, rect.HasArea) ∧
          setting.overlay.clip g.finite (cutting.map Envelope.finite) = cut.finite)) := by
  have hbounds (p : K × K) (hp : p ∈ g.painted) : p ∈ (g.envelope crs).region :=
    mem_region.mpr (mem_bounds_of_mem_painted hp)
  rcases cutTo_cases hclips hne crs (trimmed valid mask (g.envelope crs)) with
    ⟨heq, rect, hrect, hcontains⟩ | ⟨cut, heq, hpainted, -, -, hclip⟩
  · have hholds := contains_of_mem_trimmed (envelope_occupied hne crs) hrect hcontains
    have hencloses : valid.Encloses (g.envelope crs) := (contains_iff.mp hholds).2
    exact ⟨g, congrArg (·.applyTo g.finite) heq, subset_rfl,
      fun p hp => hencloses.holds (hbounds p hp), .inl rfl⟩
  · have hplace (p : K × K) (hp : p ∈ cut.painted) :
        valid.Holds p ∧ ∃ other ∈ mask, other.HasArea ∧ p ∈ other.region := by
      obtain ⟨hg, rect, hrect, harea, hin⟩ := (hpainted p).mp hp
      exact holds_of_mem_trimmed hrect harea (hbounds p hg) hin
    exact ⟨cut, congrArg (·.applyTo g.finite) heq, fun p hp => ((hpainted p).mp hp).1,
      fun p hp => (hplace p hp).1, .inr ⟨fun p hp => (hplace p hp).2, hclip⟩⟩

/-- A geometry in the valid area whose points all lie in the mask loses none of them. -/
theorem exists_settled (hclips : setting.overlay.ClipsExactly cut) (hne : cut.isEmpty = false)
    (hvalid : valid.contains (cut.envelope crs).finite = true)
    (hmask : ∀ p ∈ cut.painted, ∃ rect ∈ mask, rect.HasArea ∧ p ∈ rect.region) :
    ∃ settled : Geometry K,
      (cutTo setting ((trimmed valid mask (cut.envelope crs)).map Envelope.finite) cut.finite
        (cut.envelope crs).finite).applyTo cut.finite = settled.finite ∧
      settled.painted = cut.painted := by
  rw [trimmed, if_pos hvalid]
  obtain ⟨settled, heq, hcut, hkeeps⟩ := exists_cutTo hclips hne crs mask
  refine ⟨settled, heq, hcut.subset.antisymm fun p hp => ?_⟩
  obtain ⟨rect, hrect, harea, hin⟩ := hmask p hp
  exact hkeeps p hp rect hrect harea hin

variable {r : Rendering (Extended K)} {s s₀ : State (Extended K)} {area : Envelope K}
  {source : Crs}

/-- Whatever has been asked of a request before, cutting a sound geometry in the base of the target
fails only where the queries do. Otherwise it leaves points of the geometry in the valid area, and
cutting what it leaves, if anything, leaves the same points. -/
theorem preProcess_confines {wrap : Bool} {cap : Int}
    (hfind : find setting (some area.finite) (.ok (some source)) wrap cap = .ok (some (r, s₀)))
    (hvalid : r.validArea = some valid) (hsame : source.same r.base = true)
    (hdiffer : source.same r.target = false) {sound : Geometry K → Prop}
    (hclips : setting.overlay.ClipsAmong sound) (hsound : sound g) (hne : g.isEmpty = false)
    (calls : List (Call (Extended K))) (hs : s = (r.after setting ⟨s₀, []⟩ calls).state) :
    (∀ failure s', (r.queries setting).outcome s = (.error failure, s') →
      (r.preProcess setting (some g.finite)).outcome s = (.error failure, s')) ∧
    ∀ queries s', (r.queries setting).outcome s = (.ok queries, s') →
      ∃ rev, ∃ cut : Geometry K,
        (r.preProcess setting (some g.finite)).outcome s = (.ok rev, s') ∧
        rev.applyTo g.finite = cut.finite ∧ cut.painted ⊆ g.painted ∧
        (∀ p ∈ cut.painted, valid.Holds p) ∧
        (cut.isEmpty = false → ∃ rev', ∃ settled : Geometry K,
          (r.preProcess setting (some cut.finite)).outcome s' = (.ok rev', s') ∧
          rev'.applyTo cut.finite = settled.finite ∧ settled.painted = cut.painted) := by
  have hfound := found_of_find hfind
  rw [← Crs.same_horizontal_left, ← hfound.source_eq] at hsame hdiffer
  constructor
  · intro failure s' hqueries
    rw [outcome_preProcess_eq (by rwa [Geometry.isEmpty_finite]), hqueries]
  · intro queries s' hqueries
    obtain ⟨across, hplan⟩ : ∃ across, r.plan setting across = .ok queries := by
      have hplanned := exists_plan_after setting r (s := ⟨s₀, []⟩)
        (by simp [hfound.start_eq, start]) calls
      rcases (outcome_queries_eq_ok_iff.mp hqueries).1 with hkept | ⟨-, hplan⟩
      · exact hplanned queries (by rw [← hs, hkept]; rfl)
      · exact ⟨_, hplan⟩
    obtain ⟨found, rfl, hocc⟩ := exists_plan hfound hvalid hsame hplan
    obtain ⟨mask, hmask, -⟩ := exists_queryMask (r := r) hocc s'.acrossDateline
    have hpre := outcome_preProcess_of_base hfound hvalid hsame hdiffer hqueries hmask hne
    obtain ⟨cut, hcut, hsubset, hin, hcases⟩ :=
      exists_cutTo_trimmed (hclips.exactly g hsound) hne r.source valid mask
    refine ⟨_, cut, hpre, hcut, hsubset, hin, fun hleft => ?_⟩
    -- the queries are the same the second time
    have hagain := outcome_preProcess_of_base (g := cut) hfound hvalid hsame hdiffer
      (outcome_queries_again hqueries) hmask hleft
    rcases hcases with rfl | ⟨hplaces, hclip⟩
    · exact ⟨_, cut, hagain, hcut, rfl⟩
    · obtain ⟨cutting, harea, hclip⟩ := hclip hleft
      have hstays := hclips.stays g hsound cutting cut harea hclip
      have hcontains := contains_envelope hleft
        (fun v hv => hin _ (hclips.drawn cut hstays v hv)) r.source
      obtain ⟨settled, heq, hsettled⟩ :=
        exists_settled (hclips.exactly cut hstays) hleft hcontains hplaces
      exact ⟨_, settled, hagain, heq, hsettled⟩

/-- Of two places, one beyond the limit of the projection, the other one alone is left, and cutting
it again leaves it where it is. -/
theorem cuts_place_beyond_limit_once :
    let crs := Crs.Registry.projected "EPSG:32662" "WGS 84 / Plate Carree" Crs.Registry.wgs84
      .equidistantCylindricalSpherical
      [(.naturalLatitude, 0), (.naturalLongitude, 0), (.falseEasting, 0), (.falseNorthing, 0)]
    -- metres in a degree of the equator
    let degree : Extended ℚ := .finite 111319.49079327358
    let area : Envelope ℚ := ⟨0, 0, 2000000, 8000000, some crs⟩
    let geographic : Mapping (Extended ℚ) :=
      ⟨fun x y => (x / degree, y / degree), fun _ _ => false, false⟩
    let planar : Mapping (Extended ℚ) :=
      ⟨fun lon lat => (lon * degree, lat * degree), fun _ _ => false, false⟩
    let setting : Setting (Extended ℚ) :=
      ⟨⟨fun own _ => some (if own.isGeographic then planar else geographic)⟩,
        ⟨fun _ => true, clipPlaces, fun _ _ => true, fun _ _ => true⟩⟩
    let g : Geometry ℚ := .points [some ⟨10, 40, none⟩, some ⟨12, 89, none⟩]
    ∃ r s₀ s' rev rev', ∃ cut settled : Geometry ℚ,
      find setting (some area.finite) (.ok (some Crs.wgs84)) false 10 = .ok (some (r, s₀)) ∧
      (r.preProcess setting (some g.finite)).outcome s₀ = (.ok rev, s') ∧
      rev.applyTo g.finite = cut.finite ∧ cut.painted ⊆ {(10, 40)} ∧ cut.isEmpty = false ∧
      (r.preProcess setting (some cut.finite)).outcome s' = (.ok rev', s') ∧
      rev'.applyTo cut.finite = settled.finite ∧ settled.painted = cut.painted := by
  intro crs degree area geographic planar setting g
  have hne : area.finite.isEmpty = false :=
    Envelope.isEmpty_finite (by norm_num [area, Envelope.Occupied])
  have hdiffer : Crs.wgs84.same crs = false := by decide +kernel
  have hrelation : setting.atlas.find Crs.wgs84 crs = .ok (.direct Crs.wgs84 crs false planar) := by
    have hhorizontal : Crs.wgs84.horizontal = Crs.wgs84 ∧ crs.horizontal = crs := ⟨rfl, rfl⟩
    rw [Atlas.find, hhorizontal.1, hhorizontal.2, hdiffer]
    rfl
  let r : Rendering (Extended ℚ) := ⟨area.finite, Crs.wgs84, crs, Crs.wgs84,
    some (ValidArea.cylindrical Crs.wgs84), .cylindrical, defaultCap,
    .direct Crs.wgs84 crs false planar, none⟩
  let s₀ : State (Extended ℚ) := { r.start with acrossDateline := true }
  have hfind : find setting (some area.finite) (.ok (some Crs.wgs84)) false 10 =
      .ok (some (r, s₀)) :=
    @find_of_plain _ _ setting area.finite Crs.wgs84 false 10 _ _ _ _ rfl hne rfl rfl hrelation rfl
  have hplaces : g.IsPlaces := ⟨[⟨10, 40, none⟩, ⟨12, 89, none⟩], rfl, by simp⟩
  have hleft : ((r.preProcess setting (some g.finite)).outcome s₀).1.toOption.any
      (fun rev => !(rev.applyTo g.finite).isEmpty) = true := by decide +kernel
  have hok : ((r.queries setting).outcome s₀).1.isOk = true := by decide +kernel
  rcases hqueries : (r.queries setting).outcome s₀ with ⟨failure | queries, s'⟩
  · rw [hqueries] at hok
    cases hok
  · obtain ⟨rev, cut, hpre, hcut, hsubset, hin, hagain⟩ :=
      (preProcess_confines (s := s₀) hfind rfl rfl hdiffer (clipsAmong_places rfl) hplaces rfl []
        rfl).2 queries s' hqueries
    have hkept : cut.isEmpty = false := by
      simpa [hpre, hcut, Except.toOption] using hleft
    obtain ⟨rev', settled, hpre', hsettled, hsame⟩ := hagain hkept
    refine ⟨r, s₀, s', rev, rev', cut, settled, hfind, hpre, hcut, fun p hp => ?_, hkept, hpre',
      hsettled, hsame⟩
    have hg : p = (10, 40) ∨ p = (12, 89) := by
      simpa [g, painted, Vertex.place] using hsubset hp
    rcases hg with rfl | rfl
    · rfl
    · -- the valid area ends at eighty-five degrees
      have hoff : ¬(ValidArea.cylindrical Crs.wgs84 : Envelope (Extended ℚ)).Holds (12, 89) := by
        change ¬(ValidArea.cylindrical Crs.wgs84 : Envelope (Extended ℚ)).containsPoint (.finite 12)
          (.finite 89) = true
        decide +kernel
      exact (hoff (hin _ hp)).elim

end Rendering

end Antimeridian
