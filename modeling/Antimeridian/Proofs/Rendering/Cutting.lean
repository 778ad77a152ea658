import Antimeridian.Proofs.Geometry.Painted
import Antimeridian.Proofs.Rendering.Invariant
import Antimeridian.Proofs.Rendering.Planning
import Antimeridian.Proofs.Rendering.Replication

/-!
# Cutting to the queries

Cutting a geometry to a mask loses nothing that lies in one of its rectangles, provided that
clipping gives exactly what a geometry shares with some rectangles.
-/

namespace Antimeridian

open Antimeridian.Geometry

variable {K : Type} [Field K] [LinearOrder K] [FloorRing K]

/-- Clipping a geometry to rectangles gives the points it shares with one of them, in parts that are
not empty. It invents no heights among vertices without one, and leaves none out among others. -/
def Overlay.ClipsExactly (overlay : Overlay (Extended K)) (g : Geometry K) : Prop :=
  ∀ rects : List (Envelope K), (∀ rect ∈ rects, rect.HasArea) →
    ∃ h : Geometry K, overlay.clip g.finite (rects.map Envelope.finite) = h.finite ∧
      (∀ p, p ∈ h.painted ↔ p ∈ g.painted ∧ ∃ rect ∈ rects, p ∈ rect.region) ∧
      (g.HasEvenHeights → h.HasEvenHeights) ∧
      (h.isEmpty = false → ∀ part ∈ h.parts, part.isEmpty = false)

/-- The places of a geometry that lie in some rectangles. -/
def clipPlaces {α : Type} [Scalar α] (g : Geometry α) (rects : List (Envelope α)) : Geometry α :=
  .points ((g.outline.filter fun v => rects.any fun rect => rect.covers v.x v.y).map some)

theorem clipPlaces_finite (g : Geometry K) (rects : List (Envelope K)) :
    clipPlaces g.finite (rects.map Envelope.finite) =
      (Geometry.points ((g.outline.filter fun v =>
        (rects.map Envelope.finite).any fun rect => rect.covers (.finite v.x) (.finite v.y)).map
          some)).finite := by
  rw [clipPlaces, outline_finite, List.filter_map, List.map_map]
  change Geometry.points _ = Geometry.points _
  rw [List.map_map]
  rfl

/-- Places are clipped exactly by leaving out those outside of all rectangles. -/
theorem clipsExactly_of_places {overlay : Overlay (Extended K)} (hclip : overlay.clip = clipPlaces)
    {g : Geometry K} (hplaces : ∀ p, p ∈ g.painted ↔ ∃ v ∈ g.outline, p = v.place)
    (hflat : ∀ v ∈ g.outline, v.z = none) : overlay.ClipsExactly g := by
  intro rects _
  let inside (v : Vertex K) : Bool :=
    (rects.map Envelope.finite).any fun rect => rect.covers (.finite v.x) (.finite v.y)
  have hinside (v : Vertex K) : inside v = true ↔ ∃ rect ∈ rects, v.place ∈ rect.region := by
    simp [inside, Envelope.covers, Envelope.mem_region, Vertex.place, and_assoc]
  refine ⟨.points ((g.outline.filter inside).map some), ?_, ?_, ?_, ?_⟩
  · rw [hclip]
    exact clipPlaces_finite g rects
  · intro p
    have hpainted : p ∈ (Geometry.points ((g.outline.filter inside).map some)).painted ↔
        ∃ v ∈ g.outline, inside v = true ∧ p = v.place := by
      simp [painted, and_assoc]
    rw [hpainted, hplaces]
    constructor
    · rintro ⟨v, hv, hin, rfl⟩
      exact ⟨⟨v, hv, rfl⟩, (hinside v).mp hin⟩
    · rintro ⟨⟨v, hv, rfl⟩, hin⟩
      exact ⟨v, hv, (hinside v).mpr hin, rfl⟩
  · intro _
    left
    intro v hv
    simp only [vertices, List.filterMap_map, List.mem_filterMap, List.mem_filter] at hv
    obtain ⟨w, ⟨hw, -⟩, heq⟩ := hv
    rw [← Option.some.inj heq]
    exact hflat w hw
  · intro _ part hpart
    simp only [parts, List.mem_map] at hpart
    obtain ⟨_, ⟨v, -, rfl⟩, rfl⟩ := hpart
    rfl

/-- The bounds of a geometry in some system. -/
def Geometry.envelope (g : Geometry K) (crs : Crs) : Envelope K :=
  ⟨g.west, g.south, g.east, g.north, some crs⟩

namespace Geometry

theorem ofGeometry_finite {g : Geometry K} (hne : g.isEmpty = false) (crs : Crs) :
    Envelope.ofGeometry g.finite (some crs) = (g.envelope crs).finite := by
  rw [Envelope.ofGeometry, bounds?_finite hne]
  rfl

omit [FloorRing K] in
theorem south_le_north {g : Geometry K} (hne : g.isEmpty = false) : g.south ≤ g.north := by
  obtain ⟨v, hv, -⟩ := exists_west hne
  exact (south_le hv).trans (le_north hv)

omit [FloorRing K] in
theorem envelope_occupied {g : Geometry K} (hne : g.isEmpty = false) (crs : Crs) :
    (g.envelope crs).Occupied := ⟨west_le_east hne, south_le_north hne⟩

end Geometry

namespace Rendering

variable [IsStrictOrderedRing K] {setting : Setting (Extended K)} {g : Geometry K} {crs : Crs}

/-- What cutting may leave of a geometry: all of it, or parts that are not empty. -/
structure Cut (g cut : Geometry K) : Prop where
  subset : cut.painted ⊆ g.painted
  whole_or_parts : cut = g ∨
    (g.HasEvenHeights → cut.HasEvenHeights) ∧ ∀ part ∈ cut.parts, part.isEmpty = false

/-- Whether a rectangle of a mask takes part in cutting. -/
def Cuts (e rect : Envelope K) : Prop :=
  rect.HasArea ∧ (rect.minx ≤ e.maxx ∧ e.minx ≤ rect.maxx) ∧ rect.miny ≤ e.maxy ∧ e.miny ≤ rect.maxy

theorem cuts_iff {e rect : Envelope K} (he : e.Occupied) :
    (rect.finite.intersects e.finite && decide (0 < rect.finite.width) &&
      decide (0 < rect.finite.height)) = true ↔ Cuts e rect := by
  by_cases hrect : rect.Occupied
  · simp only [Bool.and_eq_true, Envelope.intersects_finite hrect he, Envelope.width_finite hrect,
      Envelope.height_finite hrect, Extended.zero_eq, Extended.finite_lt_finite, decide_eq_true_eq,
      Cuts, Envelope.HasArea, sub_pos]
    tauto
  · have hempty : rect.finite.isEmpty = true := by
      rwa [← Bool.not_eq_false, Envelope.isEmpty_finite_iff]
    refine iff_of_false ?_ fun hcuts => hrect hcuts.1.occupied
    simp [Envelope.intersects, hempty]

/-- The rectangles of a mask that a geometry is cut with. -/
theorem exists_cuttingMask {e : Envelope K} (he : e.Occupied) (mask : List (Envelope K)) :
    ∃ cutting : List (Envelope K),
      cuttingMask (mask.map Envelope.finite) e.finite = cutting.map Envelope.finite ∧
      ∀ rect, rect ∈ cutting ↔ rect ∈ mask ∧ Cuts e rect := by
  rw [cuttingMask, List.filter_map]
  refine ⟨_, rfl, fun rect => ?_⟩
  rw [List.mem_filter]
  exact and_congr_right fun _ => cuts_iff he

/-- A geometry is kept as a whole if a rectangle of the mask contains its bounds. Otherwise cutting
leaves exactly the points in a rectangle of the mask that has an area, as clipping gives them. -/
theorem cutTo_cases (hclips : setting.overlay.ClipsExactly g) (hne : g.isEmpty = false)
    (crs : Crs) (mask : List (Envelope K)) :
    let e := g.envelope crs
    (cutTo setting (mask.map Envelope.finite) g.finite e.finite = .kept ∧
      ∃ rect ∈ mask, rect.finite.contains e.finite = true) ∨
    ∃ cut : Geometry K,
      cutTo setting (mask.map Envelope.finite) g.finite e.finite = .replaced cut.finite ∧
      (∀ p, p ∈ cut.painted ↔ p ∈ g.painted ∧ ∃ rect ∈ mask, rect.HasArea ∧ p ∈ rect.region) ∧
      (g.HasEvenHeights → cut.HasEvenHeights) ∧ (∀ part ∈ cut.parts, part.isEmpty = false) ∧
      (cut.isEmpty = false → ∃ cutting : List (Envelope K), (∀ rect ∈ cutting, rect.HasArea) ∧
        setting.overlay.clip g.finite (cutting.map Envelope.finite) = cut.finite) := by
  intro e
  have he : e.Occupied := envelope_occupied hne crs
  rw [cutTo]
  split
  next hcontains =>
    rw [List.any_map, List.any_eq_true] at hcontains
    exact .inl ⟨rfl, hcontains⟩
  next =>
    right
    obtain ⟨cutting, hcutting, hmem⟩ := exists_cuttingMask he mask
    -- a rectangle that holds a point of the geometry meets its bounds, and takes part in cutting
    have htaken (p : K × K) (hp : p ∈ g.painted) :
        (∃ rect ∈ cutting, p ∈ rect.region) ↔ ∃ rect ∈ mask, rect.HasArea ∧ p ∈ rect.region := by
      obtain ⟨⟨hwest, heast⟩, hsouth, hnorth⟩ := mem_bounds_of_mem_painted hp
      constructor
      · rintro ⟨rect, hrect, hregion⟩
        obtain ⟨hmask, hcuts⟩ := (hmem rect).mp hrect
        exact ⟨rect, hmask, hcuts.1, hregion⟩
      · rintro ⟨rect, hrect, harea, hregion⟩
        obtain ⟨⟨hrwest, hreast⟩, hrsouth, hrnorth⟩ := Envelope.mem_region.mp hregion
        exact ⟨rect, (hmem rect).mpr ⟨hrect, harea, ⟨hrwest.trans heast, hwest.trans hreast⟩,
          hrsouth.trans hnorth, hsouth.trans hrnorth⟩, hregion⟩
    -- where nothing is left, no point lies in a rectangle
    have hnothing (hnone : ∀ p, ¬(p ∈ g.painted ∧ ∃ rect ∈ cutting, p ∈ rect.region)) :
        ∀ p, p ∈ (nothing : Geometry K).painted ↔
          p ∈ g.painted ∧ ∃ rect ∈ mask, rect.HasArea ∧ p ∈ rect.region := by
      intro p
      rw [painted_of_isEmpty rfl]
      refine iff_of_false id fun hin => hnone p ⟨hin.1, (htaken p hin.1).mpr hin.2⟩
    have heven : g.HasEvenHeights → (nothing : Geometry K).HasEvenHeights :=
      fun _ => .inl (by simp [nothing, vertices])
    rw [hcutting]
    cases cutting with
    | nil =>
        exact ⟨.nothing, rfl, hnothing (by simp), heven, by simp [nothing, parts],
          fun hleft => by cases hleft⟩
    | cons first rest =>
        have harea : ∀ rect ∈ first :: rest, rect.HasArea :=
          fun rect hrect => ((hmem rect).mp hrect).2.1
        obtain ⟨h, hclip, hpainted, hheights, hparts⟩ := hclips (first :: rest) harea
        simp only [List.map_cons] at hclip ⊢
        simp only [hclip, isEmpty_finite]
        cases hempty : h.isEmpty with
        | true =>
            refine ⟨.nothing, rfl, hnothing fun p hp => ?_, heven, by simp [nothing, parts],
              fun hleft => by cases hleft⟩
            have hmem := (hpainted p).mpr hp
            rw [painted_of_isEmpty hempty] at hmem
            exact hmem
        | false =>
            refine ⟨h, rfl, fun p => ?_, hheights, hparts hempty,
              fun _ => ⟨first :: rest, harea, hclip⟩⟩
            rw [hpainted]
            exact and_congr_right (htaken p)

/-- Cutting gives a finite geometry that keeps every point in a rectangle of the mask. -/
theorem exists_cutTo (hclips : setting.overlay.ClipsExactly g) (hne : g.isEmpty = false)
    (crs : Crs) (mask : List (Envelope K)) :
    ∃ cut : Geometry K,
      (cutTo setting (mask.map Envelope.finite) g.finite (g.envelope crs).finite).applyTo
        g.finite = cut.finite ∧
      Cut g cut ∧
      ∀ p ∈ g.painted, ∀ rect ∈ mask, rect.HasArea → p ∈ rect.region → p ∈ cut.painted := by
  rcases cutTo_cases hclips hne crs mask with
    ⟨heq, -⟩ | ⟨cut, heq, hpainted, heven, hparts, -⟩
  · exact ⟨g, by rw [heq]; rfl, ⟨subset_rfl, .inl rfl⟩, fun p hp _ _ _ _ => hp⟩
  · refine ⟨cut, by rw [heq]; rfl, ⟨fun p hp => ((hpainted p).mp hp).1, .inr ⟨heven, hparts⟩⟩, ?_⟩
    intro p hp rect hrect harea hregion
    exact (hpainted p).mpr ⟨hp, rect, hrect, harea, hregion⟩

/-! ## Masks -/

/-- The grown queries, and those a turn to the west and to the east. -/
def maskOf (queries : List (Envelope K)) : List (Envelope K) :=
  queries.flatMap fun query =>
    [(grown query).move (360 * (0 : Int)), (grown query).move (360 * (-1 : Int)),
      (grown query).move (360 * (1 : Int))]

omit [LinearOrder K] [FloorRing K] [IsStrictOrderedRing K] in
theorem grown_mem_maskOf {queries : List (Envelope K)} {query : Envelope K}
    (hquery : query ∈ queries) : grown query ∈ maskOf queries := by
  have hmoved : (grown query).move (360 * (0 : Int)) = grown query := by
    simp [Envelope.move]
  refine List.mem_flatMap.mpr ⟨query, hquery, ?_⟩
  rw [hmoved]
  exact List.mem_cons_self

omit [FloorRing K] in
theorem grown_hasArea {query : Envelope K} (harea : query.HasArea) : (grown query).HasArea := by
  have hwidth := sub_pos.mpr harea.1
  have hheight := sub_pos.mpr harea.2
  constructor <;> simp only [grown] <;> linarith [harea.1, harea.2]

omit [IsStrictOrderedRing K] in
theorem grow_finite {query : Envelope K} (hocc : query.Occupied) :
    grow query.finite = (grown query).finite := by
  rw [grow, Envelope.width_finite hocc, Envelope.height_finite hocc, margin,
    Extended.ofScientific_eq, Envelope.expandBy, Envelope.isEmpty_finite hocc]
  simp [grown, Envelope.finite, div_eq_mul_inv]

theorem grown_occupied {query : Envelope K} (hocc : query.Occupied) : (grown query).Occupied := by
  have hwidth := sub_nonneg.mpr hocc.1
  have hheight := sub_nonneg.mpr hocc.2
  constructor <;> simp only [grown] <;> linarith [hocc.1, hocc.2]

theorem queryMask_finite {r : Rendering (Extended K)} (hsource : r.source.isGeographic = true)
    {queries : List (Envelope K)} (hocc : ∀ query ∈ queries, query.Occupied) :
    r.queryMask true (queries.map Envelope.finite) = (maskOf queries).map Envelope.finite := by
  rw [queryMask, hsource, maskOf, List.map_flatMap, List.flatMap_map]
  refine List.flatMap_congr fun query hquery => ?_
  have hshift (k : Int) : (grow query.finite).shift (Scalar.ofInt k * Longitude.turn) =
      ((grown query).move (360 * k)).finite := by
    rw [grow_finite (hocc query hquery), Longitude.turn, Extended.ofInt_eq, Extended.ofNat_eq,
      Extended.finite_mul, Envelope.shift_finite (grown_occupied (hocc query hquery)), mul_comm]
  simp only [List.map_cons, List.map_nil, hshift]

/-! ## Preparing geometries -/

variable {area : Envelope K} {source target : Crs} {relation : Transform (Extended K)} {cap : Int}

/-- Preparing a geometry for a geographic area plans the queries, if that has not been done before,
and cuts the geometry to them. -/
theorem outcome_preProcess {r : Rendering (Extended K)}
    (hr : r = geographic area.finite source.horizontal target.horizontal cap relation)
    (hgeographic : source.isGeographic = true) {queries : List (Envelope K)}
    (hplan : r.plan setting true = .ok (queries.map Envelope.finite))
    (hocc : ∀ query ∈ queries, query.Occupied) (hne : g.isEmpty = false)
    {s : State (Extended K)} (hs : Planned setting r s) :
    (r.preProcess setting (some g.finite)).outcome s =
      (.ok (cutTo setting ((maskOf queries).map Envelope.finite) g.finite
        (g.envelope source.horizontal).finite),
        { s with queries := some (queries.map Envelope.finite) }) := by
  have hcopies : r.makesCopies = true := by rw [hr]; rfl
  have hqueries := hs.outcome_queries
  rw [hcopies, hplan] at hqueries
  have hvalid (e : Envelope (Extended K)) : r.validMask setting e = .ok none := by
    rw [hr]
    rfl
  have hsource : r.source = source.horizontal := by rw [hr]; rfl
  have hmask := queryMask_finite (r := r) (by rw [hsource]; simpa) hocc
  rw [outcome_preProcess_eq (by rwa [isEmpty_finite]), hqueries]
  simp only [cutToQueries, hvalid, hs.acrossDateline, hcopies, hmask, hsource,
    ofGeometry_finite hne]
  rfl

end Rendering

end Antimeridian
