import Antimeridian.Coverage.Plan
import Antimeridian.Proofs.Envelope.Depth
import Antimeridian.Proofs.Geometry.Outlines
import Antimeridian.Proofs.Rendering.Cutting

/-!
# Footprints of coverages

What a rendering request keeps of a coverage is found by cutting the outline of the coverage to the
queries, and cropping the coverage to every polygon that is left. A point that lies deep in a query,
in the coverage and in the pixels that were asked for lies as deep in what one piece is cropped to.
-/

namespace Antimeridian

variable {K : Type} [Field K] [LinearOrder K] [FloorRing K]

/-- Clipping is exact on outlines of envelopes, and makes valid areas, whose polygons share single
points at most: what an envelope shares with one rectangle is not divided among them. -/
structure Overlay.ClipsOutlines (overlay : Overlay (Extended K)) : Prop where
  exact : ∀ e : Envelope K, e.HasArea → overlay.ClipsExactly e.surrounded
  undivided : ∀ (e : Envelope K) (rects : List (Envelope K)) (h : Geometry K),
    (∀ rect ∈ rects, rect.HasArea) →
    overlay.clip e.surrounded.finite (rects.map Envelope.finite) = h.finite →
      ∀ rect ∈ rects, (e.meet rect).HasArea →
        ∃ rings ∈ h.extractPolygons, (e.meet rect).region ⊆ (Geometry.polygon rings).painted

/-- The outlines of what the bounds of a geometry share with some rectangles. -/
def clipOutlines {α : Type} [Scalar α] (g : Geometry α) (rects : List (Envelope α)) : Geometry α :=
  let e := Envelope.ofGeometry g none
  .polygons ((rects.filter e.intersects).map fun rect => [(e.intersection rect).corners])

variable [IsStrictOrderedRing K] {setting : Setting (Extended K)} {m : K} {p : K × K}

omit [IsStrictOrderedRing K] in
theorem clipOutlines_surrounded {e : Envelope K} (hocc : e.Occupied) (rects : List (Envelope K)) :
    clipOutlines e.surrounded.finite (rects.map Envelope.finite) =
      (Geometry.polygons ((rects.filter fun rect => e.finite.intersects rect.finite).map fun rect =>
        [(e.meet rect).corners])).finite := by
  obtain ⟨hwest, hsouth, heast, hnorth⟩ := Envelope.bounds_surrounded hocc
  have hbounds : Envelope.ofGeometry e.surrounded.finite none =
      ({ e with crs := none } : Envelope K).finite := by
    rw [Envelope.ofGeometry, Geometry.bounds?_finite rfl, hwest, hsouth, heast, hnorth]
    rfl
  rw [clipOutlines, hbounds, Geometry.finite_eq_map, Geometry.map, List.filter_map, List.map_map,
    List.map_map]
  congr 1
  apply List.map_congr_left
  intro rect hrect
  have hmeets : ({ e with crs := none } : Envelope K).finite.intersects rect.finite = true :=
    (List.mem_filter.mp hrect).2
  rw [Function.comp_apply, Envelope.intersection_finite, if_pos hmeets]
  rfl

/-- Outlines are clipped exactly by giving what they share with each rectangle. -/
theorem clipsOutlines_of_outlines {overlay : Overlay (Extended K)}
    (hclip : overlay.clip = clipOutlines) : overlay.ClipsOutlines := by
  constructor
  · intro e harea rects _
    refine ⟨_, hclip ▸ clipOutlines_surrounded harea.occupied rects, ?_, ?_, ?_⟩
    · intro p
      have hpart {rect : Envelope K} (hmeets : e.Meets rect) :
          p ∈ Geometry.surface ([(e.meet rect).corners].map (·.map Vertex.place)) ↔
            p ∈ e.region ∧ p ∈ rect.region := by
        rw [← Envelope.mem_region_meet, ← Envelope.painted_surrounded hmeets.occupied_meet]
        rfl
      rw [Envelope.painted_surrounded harea.occupied]
      simp only [Geometry.painted, Set.mem_ofPred_eq, List.mem_map, List.mem_filter,
        Envelope.intersects_finite_iff, exists_exists_and_eq_and]
      constructor
      · rintro ⟨rect, ⟨hrect, hmeets⟩, hp⟩
        obtain ⟨he, hregion⟩ := (hpart hmeets).mp hp
        exact ⟨he, rect, hrect, hregion⟩
      · rintro ⟨he, rect, hrect, hregion⟩
        have hmeets : e.Meets rect := ⟨p, he, hregion⟩
        exact ⟨rect, ⟨hrect, hmeets⟩, (hpart hmeets).mpr ⟨he, hregion⟩⟩
    · intro _
      left
      intro v hv
      simp only [Geometry.vertices, List.mem_flatMap, List.mem_map] at hv
      obtain ⟨_, ⟨rect, -, rfl⟩, hv⟩ := hv
      rw [List.flatten_singleton] at hv
      exact Envelope.flat_of_mem_corners hv
    · intro _ part hpart
      simp only [Geometry.parts, List.map_map, List.mem_map] at hpart
      obtain ⟨rect, -, rfl⟩ := hpart
      rfl
  · intro e rects h _ hresult rect hrect harea
    have hmeets := Envelope.meets_of_occupied_meet harea.occupied
    have hocc : e.Occupied := (Envelope.meets_iff.mp hmeets).1.1
    rw [hclip, clipOutlines_surrounded hocc] at hresult
    obtain rfl := Geometry.finite_injective hresult
    refine ⟨[(e.meet rect).corners], ?_, ?_⟩
    · simp only [Geometry.extractPolygons, List.mem_filter, List.mem_map]
      exact ⟨⟨rect, ⟨hrect, Envelope.intersects_finite_iff.mpr hmeets⟩, rfl⟩, rfl⟩
    · exact (Envelope.painted_surrounded hmeets.occupied_meet).ge

omit [FloorRing K] in
/-- What lies deep in an envelope that a geometry paints lies as deep between its bounds. -/
theorem Envelope.Deep.envelope {e : Envelope K} (hdeep : e.Deep m p) (hm : 0 ≤ m) {g : Geometry K}
    (hpainted : e.region ⊆ g.painted) (crs : Crs) : (g.envelope crs).Deep m p := by
  obtain ⟨⟨hwest, heast⟩, hsouth, hnorth⟩ := hdeep
  have hfirst : (e.minx, e.miny) ∈ e.region := by
    rw [Envelope.mem_region]
    refine ⟨⟨?_, ?_⟩, ?_, ?_⟩ <;> linarith
  have hlast : (e.maxx, e.maxy) ∈ e.region := by
    rw [Envelope.mem_region]
    refine ⟨⟨?_, ?_⟩, ?_, ?_⟩ <;> linarith
  obtain ⟨⟨hlowx, -⟩, hlowy, -⟩ := Geometry.mem_bounds_of_mem_painted (hpainted hfirst)
  obtain ⟨⟨-, hhighx⟩, -, hhighy⟩ := Geometry.mem_bounds_of_mem_painted (hpainted hlast)
  refine ⟨⟨?_, ?_⟩, ?_, ?_⟩ <;> simp only [Geometry.envelope] <;> linarith

namespace Rendering

omit [FloorRing K] in
theorem deep_grown {query : Envelope K} (hocc : query.Occupied) (hdeep : query.Deep m p) :
    (grown query).Deep m p := by
  obtain ⟨⟨hwest, heast⟩, hsouth, hnorth⟩ := hdeep
  have hwidth := sub_nonneg.mpr hocc.1
  have hheight := sub_nonneg.mpr hocc.2
  refine ⟨⟨?_, ?_⟩, ?_, ?_⟩ <;> simp only [grown] <;> linarith

/-- Cutting the outline of an envelope to a mask leaves it as it is, or leaves a polygon around what
it shares with a rectangle of the mask. -/
theorem cutTo_surrounded (hclips : setting.overlay.ClipsOutlines) {mask : List (Envelope K)}
    {e rect : Envelope K} (hrect : rect ∈ mask) (he : e.Deep m p) (hdeep : rect.Deep m p)
    (hm : 0 < m) (crs : Crs) :
    let revision := cutTo setting (mask.map Envelope.finite) e.surrounded.finite
      (e.surrounded.envelope crs).finite
    revision = .kept ∨ ∃ h : Geometry K, revision = .replaced h.finite ∧
      ∃ rings ∈ h.extractPolygons, (e.meet rect).region ⊆ (Geometry.polygon rings).painted := by
  intro revision
  have harea := he.hasArea hm
  obtain ⟨hwest, hsouth, heast, hnorth⟩ := Envelope.bounds_surrounded harea.occupied
  have hbounds : (e.surrounded.envelope crs).Occupied := by
    rw [Geometry.envelope, hwest, hsouth, heast, hnorth]
    exact harea.occupied
  have hcuts : Cuts (e.surrounded.envelope crs) rect := by
    obtain ⟨⟨hleft, hright⟩, hbottom, htop⟩ := he.mem_region hm.le |> Envelope.mem_region.mp
    obtain ⟨⟨hrleft, hrright⟩, hrbottom, hrtop⟩ := hdeep.mem_region hm.le |> Envelope.mem_region.mp
    rw [Geometry.envelope, hwest, hsouth, heast, hnorth]
    exact ⟨hdeep.hasArea hm, ⟨hrleft.trans hright, hleft.trans hrright⟩, hrbottom.trans htop,
      hbottom.trans hrtop⟩
  simp only [revision, cutTo]
  split
  next => exact .inl rfl
  next =>
    obtain ⟨cutting, hcutting, hmem⟩ := exists_cuttingMask hbounds mask
    have htaken : rect ∈ cutting := (hmem rect).mpr ⟨hrect, hcuts⟩
    have hareas : ∀ rect ∈ cutting, rect.HasArea := fun rect hrect => ((hmem rect).mp hrect).2.1
    obtain ⟨h, hclip, -⟩ := hclips.exact e harea cutting hareas
    obtain ⟨rings, hrings, hsubset⟩ :=
      hclips.undivided e cutting h hareas hclip rect htaken ((he.meet hdeep).hasArea hm)
    refine .inr ⟨h, ?_, rings, hrings, hsubset⟩
    have hne := (Geometry.isEmptyPolygon_of_mem hrings).2
    rw [hcutting]
    cases cutting with
    | nil => contradiction
    | cons first rest =>
        simp only [List.map_cons] at hclip ⊢
        simp only [hclip, Geometry.isEmpty_finite, hne]
        rfl

/-- Of the outline of an envelope all is kept, or a polygon around what lies deep in a query. -/
theorem exists_of_preProcess {area : Envelope K} {source target : Crs} {cap : Int}
    {relation : Transform (Extended K)} {r : Rendering (Extended K)}
    (hr : r = geographic area.finite source.horizontal target.horizontal cap relation)
    (hgeographic : source.isGeographic = true) {queries : List (Envelope K)}
    (hqueries : r.plan setting true = .ok (queries.map Envelope.finite))
    (hocc : ∀ query ∈ queries, query.Occupied) (hclips : setting.overlay.ClipsOutlines)
    {query : Envelope K} (hquery : query ∈ queries) (hdeep : query.Deep m p) {e : Envelope K}
    (he : e.Deep m p) (hm : 0 < m) (crs : Crs) {s s' : State (Extended K)}
    (hs : Planned setting r s) {revision : Revision (Extended K)}
    (hok : (r.preProcess setting (some e.finite.toPolygon)).outcome s = (.ok revision, s')) :
    revision = .kept ∨ ∃ h : Geometry K, revision = .replaced h.finite ∧
      ∃ rings ∈ h.extractPolygons, ((Geometry.polygon rings).envelope crs).Deep m p := by
  have hgrown := deep_grown (hocc query hquery) hdeep
  have hleft := cutTo_surrounded hclips (grown_mem_maskOf hquery) he hgrown hm source.horizontal
  rw [Envelope.toPolygon_finite (he.hasArea hm),
    outcome_preProcess hr hgeographic hqueries hocc rfl hs] at hok
  simp only [Except.ok.inj (Prod.mk.inj hok).1] at hleft
  refine hleft.imp_right ?_
  rintro ⟨h, hreplaced, rings, hrings, hsubset⟩
  exact ⟨h, hreplaced, rings, hrings, (he.meet hgrown).envelope hm.le hsubset crs⟩

end Rendering

namespace CoveragePlan

variable {coverage : Raster (Extended K)} {e reading f : Envelope K}

theorem exists_of_cropTo (hf : f.Deep m p) (hm : 0 < m) {parts : List (Raster (Extended K))}
    (hok : cropTo coverage f.finite = .ok parts) :
    ∃ part, parts = [part] ∧ coverage.crop f.finite = .ok part := by
  rw [cropTo, if_pos (Envelope.hasArea_finite_iff.mpr (hf.hasArea hm))] at hok
  cases hcrop : coverage.crop f.finite with
  | error failure =>
      rw [hcrop] at hok
      contradiction
  | ok part =>
      rw [hcrop] at hok
      cases hok
      exact ⟨part, rfl, rfl⟩

/-- Of a coverage all is kept, or a piece that is cropped to an envelope around a point that lies
deep in what is left of its outline. -/
theorem exists_of_keptParts (hcoverage : coverage.envelope = e.finite) {crs : Crs}
    (hcrs : e.crs = some crs) (he : e.Deep m p) (hreading : reading.Deep m p) (hm : 0 < m)
    {outline processed : Geometry (Extended K)} {kept : Bool}
    (hprocessed : kept = true ∨ ∃ h : Geometry K, processed = h.finite ∧
      ∃ rings ∈ h.extractPolygons, ((Geometry.polygon rings).envelope crs).Deep m p)
    {parts : List (Raster (Extended K))}
    (hok : keptParts setting reading.finite coverage outline processed kept = .ok parts) :
    ∃ part ∈ parts, part = coverage ∨
      ∃ f : Envelope K, f.Deep m p ∧ coverage.crop f.finite = .ok part := by
  have hmem := he.mem_region hm.le
  have hreads := hreading.mem_region hm.le
  rw [keptParts, hcoverage] at hok
  split at hok
  next =>
    split at hok
    next =>
      cases hok
      exact ⟨coverage, List.mem_singleton_self _, .inl rfl⟩
    next =>
      rw [Envelope.intersection_of_mem_region hreads hmem] at hok
      obtain ⟨part, rfl, hcrop⟩ := exists_of_cropTo (hreading.meet he) hm hok
      exact ⟨part, List.mem_singleton_self _, .inr ⟨_, hreading.meet he, hcrop⟩⟩
  next hcut =>
    obtain ⟨h, rfl, rings, hrings, hdeep⟩ := hprocessed.resolve_left (by simp_all)
    obtain ⟨pieces, hpieces, hok⟩ := bind_eq_ok_iff.mp hok
    cases hok
    have hmapped : rings.map (·.map Vertex.finite) ∈ h.finite.extractPolygons := by
      rw [Geometry.finite_eq_map, Geometry.extractPolygons_map]
      exact List.mem_map_of_mem hrings
    obtain ⟨found, hfound, hpiece⟩ :=
      Rendering.exists_mem_of_mapM hpieces _ hmapped
    have hbounds : Envelope.ofGeometry (.polygon (rings.map (·.map Vertex.finite))) e.crs =
        ((Geometry.polygon rings).envelope crs).finite := by
      rw [hcrs]
      exact Geometry.ofGeometry_finite (g := .polygon rings)
        (Geometry.isEmptyPolygon_of_mem hrings).1 crs
    have hshared := (hdeep.meet he).mem_region hm.le
    rw [Envelope.finite_crs, hbounds,
      Envelope.intersection_of_mem_region (hdeep.mem_region hm.le) hmem,
      Envelope.intersection_of_mem_region hshared hreads] at hpiece
    have hdeeper := (hdeep.meet he).meet hreading
    obtain ⟨part, rfl, hcrop⟩ := exists_of_cropTo hdeeper hm hpiece
    exact ⟨part, List.mem_flatten.mpr ⟨_, hfound, List.mem_singleton_self _⟩,
      .inr ⟨_, hdeeper, hcrop⟩⟩

end CoveragePlan

end Antimeridian
