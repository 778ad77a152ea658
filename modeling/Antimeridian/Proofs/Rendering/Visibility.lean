import Antimeridian.Proofs.Envelope.Clamping
import Antimeridian.Proofs.Rendering.Cutting
import Antimeridian.Proofs.Rendering.ValidArea

/-!
# What cutting to a valid area keeps

Geometries in the geographic base of a projection are cut to the queries and to the part of the
valid area around them. Of a geometry with an extent in both directions everything visible is kept.
One along a meridian, along a parallel, or in a single place has no such extent, so that the
rectangles it would be cut to have no area, and all of it is left out unless the valid area holds it
as a whole.
-/

namespace Antimeridian.Rendering

open Antimeridian.Geometry Envelope

variable {K : Type} [Field K] [LinearOrder K] [FloorRing K] [IsStrictOrderedRing K]
  {setting : Setting (Extended K)} {r : Rendering (Extended K)} {s s₀ s' : State (Extended K)}
  {area : Envelope K} {source : Crs} {across : Bool}

/-! ## Planned queries have numbers as bounds -/

theorem exists_measuredCycle {cycle : Cycle (Extended K)}
    (hok : measuredCycle setting r = .ok cycle) :
    ∃ radius origin meridian : K, 0 < radius ∧ cycle.radius = .finite radius ∧
      cycle.origin = .finite origin ∧ cycle.centralMeridian = .finite meridian := by
  obtain ⟨toTarget, -, hok⟩ := bind_eq_ok_iff.mp hok
  dsimp only at hok
  split at hok
  · cases hok
  next hradius =>
    simp only [Bool.or_eq_true, Bool.not_eq_true', decide_eq_true_eq, not_or,
      Bool.not_eq_false] at hradius
    obtain ⟨half, start, hhalf, hstart⟩ := Extended.exists_eq_finite_of_abs_sub hradius.1
    have hdistance : Scalar.abs ((toTarget.image (r.target.centralMeridian.toScalar + 180) 0).1 -
        (toTarget.image r.target.centralMeridian.toScalar 0).1) = .finite |half - start| := by
      rw [hhalf, hstart, Extended.finite_sub, Extended.abs_finite]
    rw [hdistance, Extended.zero_eq, Extended.finite_le_finite, not_le] at hradius
    cases hok
    exact ⟨|half - start|, start, _, hradius.2, hdistance, hstart, rfl⟩

theorem exists_geographicArea (hfound : Found setting area.finite source r s₀)
    (hprojected : r.target.isGeographic = false) {bound : Envelope (Extended K)}
    (hok : r.geographicArea setting = .ok bound) :
    ∃ f : Envelope K, bound = f.finite ∧ f.Occupied ∧ f.crs = some r.base.horizontal := by
  have hocc : area.Occupied := (isEmpty_finite_iff area).mp hfound.isEmpty_eq
  obtain ⟨crs, hcrs, -⟩ := hfound.crs_eq
  obtain ⟨image, himage, hok⟩ := bind_eq_ok_iff.mp hok
  rw [hfound.area_eq] at himage hok
  obtain ⟨f, rfl, hfocc, hfcrs⟩ := exists_image (e := area) hcrs hocc himage
  cases hcycle : r.cycle with
  | none =>
      rw [hcycle] at hok
      cases hok
      exact ⟨f, rfl, hfocc, hfcrs⟩
  | some cycle =>
      obtain ⟨radius, origin, meridian, hpos, hradius, horigin, hmeridian⟩ :=
        exists_measuredCycle (hfound.cycle_eq cycle hcycle hprojected)
      simp only [hcycle, hprojected, hradius, horigin, hmeridian, Extended.ofNat_eq,
        Extended.finite_div _ hpos.ne', Extended.finite_sub, Extended.finite_mul,
        Extended.finite_add, finite_minx, finite_maxx, Bool.false_eq_true, if_false] at hok
      cases hok
      refine ⟨⟨_, f.miny, _, f.maxy, f.crs⟩, rfl, ⟨?_, hfocc.2⟩, hfcrs⟩
      have hscale : 0 < 180 / radius := by positivity
      have hle := mul_le_mul_of_nonneg_right (sub_le_sub_right hocc.1 origin) hscale.le
      simp only
      linarith

/-- Where data are stored in the base of the target, queries have numbers as bounds. -/
theorem exists_plan (hfound : Found setting area.finite source r s₀)
    {valid : Envelope (Extended K)} (hvalid : r.validArea = some valid)
    (hsame : r.source.same r.base = true) {queries : List (Envelope (Extended K))}
    (hplan : r.plan setting across = .ok queries) :
    ∃ found : List (Envelope K), queries = found.map Envelope.finite ∧
      ∀ query ∈ found, query.Occupied := by
  have hocc : area.Occupied := (isEmpty_finite_iff area).mp hfound.isEmpty_eq
  obtain ⟨crs, hcrs, -⟩ := hfound.crs_eq
  obtain ⟨hprojected, -⟩ := hfound.projected (by rw [hvalid]; rfl)
  have hnone : (r.validArea.isNone && !across) = false := by
    rw [hvalid]
    rfl
  rw [plan, hnone] at hplan
  obtain ⟨bound, hbound, hplan⟩ := bind_eq_ok_iff.mp hplan
  obtain ⟨f, rfl, hfocc, hfcrs⟩ := exists_geographicArea hfound hprojected hbound
  simp only [planWithin, hvalid, Option.map_some, Option.getD_some, Option.isSome_some,
    Bool.true_and] at hplan
  split at hplan
  · cases hplan
    exact ⟨[], rfl, by simp⟩
  next hclipped =>
    have hmeets : f.finite.intersects valid = true := by
      by_contra hapart
      rw [Envelope.intersection, if_neg hapart] at hclipped
      exact hclipped rfl
    obtain ⟨hclamp, heq, -⟩ := intersection_of_intersects hmeets
    rw [heq] at hplan
    have hbase : r.base.horizontal.same r.source = true := by
      rw [Crs.same_horizontal_left, Crs.same_comm, hsame]
    split at hplan
    · obtain ⟨pieces, hpieces, hall⟩ := exists_pieces hclamp r.cap
      rw [hpieces] at hplan
      obtain ⟨found, hok, -, horigin, -⟩ := exists_projectPieces setting hbase
        (fun piece hpiece => (hall piece hpiece).2.trans hfcrs) []
      refine ⟨found, Except.ok.inj (hplan.symm.trans hok), ?_⟩
      intro query hquery
      obtain ⟨piece, hpiece, rfl⟩ := (horigin query hquery).resolve_left List.not_mem_nil
      exact (hall piece hpiece).1
    · split at hplan
      · obtain ⟨image, himage, hplan⟩ := bind_eq_ok_iff.mp hplan
        rw [hfound.area_eq] at himage
        obtain ⟨query, rfl, hquery, -⟩ := exists_image (e := area) hcrs hocc himage
        cases hplan
        exact ⟨[query], rfl, by simpa using hquery⟩
      · obtain ⟨image, himage, hplan⟩ := bind_eq_ok_iff.mp hplan
        obtain ⟨query, rfl, hquery, -⟩ := exists_image (e := f.clamp valid) hfcrs hclamp himage
        cases hplan
        exact ⟨[query], rfl, by simpa using hquery⟩

/-! ## What requests say about valid areas -/

omit [IsStrictOrderedRing K] in
theorem Found.isIdentity_eq {area : Envelope (Extended K)}
    (hfound : Found setting area source r s₀) : r.relation.isIdentity = r.source.same r.target := by
  have hrelation := hfound.relation_eq
  rw [Atlas.find] at hrelation
  cases hfind : setting.atlas.relation? r.source.horizontal r.target.horizontal with
  | none => simp [hfind] at hrelation
  | some mapping =>
      simp only [hfind, Except.ok.injEq] at hrelation
      rw [← hrelation, Transform.isIdentity, Crs.same_horizontal_left, Crs.same_horizontal_right]

omit [IsStrictOrderedRing K] in
/-- Valid areas are given in the base of the target. -/
theorem Found.crs_validArea {area : Envelope (Extended K)} (hfound : Found setting area source r s₀)
    {valid : Envelope (Extended K)} (hvalid : r.validArea = some valid) :
    valid.crs = some r.base := by
  have hof := hfound.validArea_eq
  have hbase := hfound.base_eq
  obtain ⟨crs, -, htarget⟩ := hfound.crs_eq
  have hhorizontal : r.target.horizontal = r.target := by
    rw [htarget, Crs.horizontal_horizontal]
  rw [hvalid] at hof
  simp only [ValidArea.of, hhorizontal, hbase] at hof
  cases hfamily : Family.of r.target with
  | geographic | generic => simp [hfamily] at hof
  | cylindrical =>
      simp only [hfamily, Except.ok.injEq, Option.some.injEq] at hof
      rw [← hof]
      rfl
  | conic =>
      simp only [hfamily, Except.ok.injEq, Option.some.injEq] at hof
      rw [← hof]
      simp only [ValidArea.conic]
      split_ifs <;> rfl
  | azimuthal =>
      simp only [hfamily, Except.ok.injEq, Option.some.injEq] at hof
      rw [← hof]
      simp only [ValidArea.azimuthal]
      split_ifs <;> rfl
  | transverse =>
      simp only [hfamily, Except.ok.injEq, Option.some.injEq] at hof
      rw [← hof]
      rfl

/-! ## Masks clipped to a valid area -/

theorem exists_queryMask {queries : List (Envelope K)} (hocc : ∀ query ∈ queries, query.Occupied)
    (across : Bool) :
    ∃ mask : List (Envelope K),
      r.queryMask across (queries.map Envelope.finite) = mask.map Envelope.finite ∧
      ∀ query ∈ queries, grown query ∈ mask := by
  cases hturns : across && r.source.isGeographic with
  | true =>
      obtain ⟨rfl, hsource⟩ := Bool.and_eq_true_iff.mp hturns
      exact ⟨maskOf queries, queryMask_finite hsource hocc, fun _ => grown_mem_maskOf⟩
  | false =>
      refine ⟨queries.map grown, ?_, fun _ => List.mem_map_of_mem⟩
      rw [queryMask, hturns, List.map_map]
      simp only [Bool.false_eq_true, if_false, List.map_map]
      apply List.map_congr_left
      intro query hquery
      exact grow_finite (hocc query hquery)

/-- The parts of a mask in an envelope. -/
def clipMask (mask : List (Envelope K)) (e : Envelope K) : List (Envelope K) :=
  (mask.filter fun rect => rect.finite.intersects e.finite).map (·.meet e)

omit [IsStrictOrderedRing K] in
/-- Rectangles without points take no part in cutting. -/
theorem cutTo_filter (mask : List (Envelope (Extended K))) (g : Geometry (Extended K))
    (e : Envelope (Extended K)) :
    cutTo setting (mask.filter fun rect => !rect.isEmpty) g e = cutTo setting mask g e := by
  have hany : (mask.filter fun rect => !rect.isEmpty).any (·.contains e) =
      mask.any (·.contains e) := by
    rw [List.any_filter]
    congr 1
    funext rect
    cases hempty : rect.isEmpty <;> simp [contains, hempty]
  have hcutting : cuttingMask (mask.filter fun rect => !rect.isEmpty) e = cuttingMask mask e := by
    rw [cuttingMask, cuttingMask, List.filter_filter]
    congr 1
    funext rect
    cases hempty : rect.isEmpty <;> simp [intersects, hempty]
  rw [cutTo, cutTo, hany, hcutting]

omit [IsStrictOrderedRing K] in
theorem filter_intersection (mask : List (Envelope K)) (e : Envelope K) :
    ((mask.map Envelope.finite).map (·.intersection e.finite)).filter (fun rect => !rect.isEmpty) =
      (clipMask mask e).map Envelope.finite := by
  induction mask with
  | nil => rfl
  | cons rect rest ih =>
      rw [clipMask] at ih ⊢
      rw [List.map_cons, List.map_cons, intersection_finite]
      cases hmeets : rect.finite.intersects e.finite with
      | true =>
          have hocc := (intersects_finite_iff.mp hmeets).occupied_meet
          have hkept : (!(rect.meet e).finite.isEmpty) = true := by
            rw [isEmpty_finite hocc]
            rfl
          rw [if_pos rfl, List.filter_cons, if_pos hkept, ih, List.filter_cons, if_pos hmeets,
            List.map_cons, List.map_cons]
      | false =>
          have hleft : ¬(!(empty rect.crs : Envelope (Extended K)).isEmpty) = true := by
            rw [isEmpty_empty]
            exact Bool.false_ne_true
          rw [if_neg Bool.false_ne_true, List.filter_cons, if_neg hleft, ih, List.filter_cons,
            if_neg (Bool.not_eq_true _ ▸ hmeets)]

omit [IsStrictOrderedRing K] in
theorem filter_intersection_empty (mask : List (Envelope (Extended K))) (crs : Option Crs) :
    (mask.map (·.intersection (empty crs))).filter (fun rect => !rect.isEmpty) = [] := by
  rw [List.filter_eq_nil_iff]
  intro rect hrect
  obtain ⟨other, -, rfl⟩ := List.mem_map.mp hrect
  simp [intersection, intersects, isEmpty_empty]

variable {g : Geometry K} {valid : Envelope (Extended K)}

omit [IsStrictOrderedRing K] in
/-- What cutting to the valid area needs of an envelope in the base of the target. -/
theorem validMask_of_base {area : Envelope (Extended K)} (hfound : Found setting area source r s₀)
    (hvalid : r.validArea = some valid) (hsame : r.source.same r.base = true)
    (hdiffer : r.source.same r.target = false) {e : Envelope K} (he : e.crs = some r.source) :
    r.validMask setting e.finite = .ok
      (if valid.contains e.finite then none
      else some (if e.finite.intersects valid then
        ((e.clamp valid).labelled r.source.horizontal).finite else empty (some r.source))) := by
  have hcrs := hfound.crs_validArea hvalid
  have himage : e.finite.transform setting.atlas r.base =
      .ok (e.labelled r.base.horizontal).finite :=
    transform_of_same (e := e.finite) he hsame
  have hidentity : r.relation.isIdentity = false := by
    rw [hfound.isIdentity_eq, hdiffer]
  have hcontains : valid.contains (e.labelled r.base.horizontal).finite = valid.contains e.finite :=
    rfl
  have hintersects : (e.labelled r.base.horizontal).finite.intersects valid =
      e.finite.intersects valid := rfl
  simp only [validMask, hvalid, hidentity, himage, hcontains, bind, Except.bind,
    Bool.false_eq_true, if_false]
  cases hholds : valid.contains e.finite with
  | true => rfl
  | false =>
      cases hmeets : e.finite.intersects valid with
      | true =>
          obtain ⟨hclamp, -, heq⟩ := intersection_of_intersects (hintersects.trans hmeets)
          have htransform : (valid.intersection (e.labelled r.base.horizontal).finite).transform
              setting.atlas r.source =
                .ok ((e.clamp valid).labelled r.source.horizontal).finite := by
            rw [heq]
            exact transform_of_same hcrs (by rw [Crs.same_comm, hsame])
          have hoccupied : (valid.intersection (e.labelled r.base.horizontal).finite).isEmpty =
              false := by
            rw [heq]
            exact isEmpty_finite hclamp
          simp only [hoccupied, htransform]
          rfl
      | false =>
          have hapart : ¬valid.intersects (e.labelled r.base.horizontal).finite = true := by
            rw [intersects_comm, hintersects, hmeets]
            exact Bool.false_ne_true
          rw [intersection, if_neg hapart]
          rfl

/-- What a geometry is cut to: the mask, if the valid area holds it, and otherwise the parts of the
mask in what the valid area shares with its bounds. -/
def trimmed (valid : Envelope (Extended K)) (mask : List (Envelope K)) (e : Envelope K) :
    List (Envelope K) :=
  if valid.contains e.finite then mask
  else if e.finite.intersects valid then clipMask mask (e.clamp valid)
  else []

omit [IsStrictOrderedRing K] in
theorem outcome_preProcess_of_base {area : Envelope (Extended K)}
    (hfound : Found setting area source r s₀)
    (hvalid : r.validArea = some valid) (hsame : r.source.same r.base = true)
    (hdiffer : r.source.same r.target = false) {queries : List (Envelope (Extended K))}
    (hqueries : (r.queries setting).outcome s = (.ok queries, s')) {mask : List (Envelope K)}
    (hmask : r.queryMask s'.acrossDateline queries = mask.map Envelope.finite)
    (hne : g.isEmpty = false) :
    (r.preProcess setting (some g.finite)).outcome s =
      (.ok (cutTo setting ((trimmed valid mask (g.envelope r.source)).map Envelope.finite) g.finite
        (g.envelope r.source).finite), s') := by
  have hvalidMask := validMask_of_base hfound hvalid hsame hdiffer (e := g.envelope r.source) rfl
  rw [← ofGeometry_finite hne] at hvalidMask
  rw [outcome_preProcess_of_queries (by rwa [Geometry.isEmpty_finite]) hqueries hvalidMask, hmask,
    ofGeometry_finite hne, trimmed]
  split
  · rfl
  · split
    · rw [clippedBy, ← cutTo_filter]
      exact congrArg (fun rects => (Except.ok (cutTo setting rects _ _), s'))
        (filter_intersection mask
          (((g.envelope r.source).clamp valid).labelled r.source.horizontal))
    · rw [clippedBy, ← cutTo_filter, filter_intersection_empty]
      rfl

/-! ## What is kept -/

omit [IsStrictOrderedRing K] in
theorem mem_clipMask {mask : List (Envelope K)} {e rect : Envelope K} :
    rect ∈ clipMask mask e ↔ ∃ other ∈ mask, other.Meets e ∧ rect = other.meet e := by
  simp only [clipMask, List.mem_map, List.mem_filter, intersects_finite_iff]
  constructor
  · rintro ⟨other, ⟨hother, hmeets⟩, rfl⟩
    exact ⟨other, hother, hmeets, rfl⟩
  · rintro ⟨other, hother, hmeets, rfl⟩
    exact ⟨other, ⟨hother, hmeets⟩, rfl⟩

/-- What is visible in a query lies in a rectangle with an area, unless there is none. -/
theorem exists_mem_trimmed {mask : List (Envelope K)} {e query : Envelope K} {p : K × K}
    (hquery : grown query ∈ mask) (hextent : valid.contains e.finite = true ∨ e.HasArea)
    (hp : p ∈ e.region) (hvalid : valid.Surrounds p) (hvisible : query.finite.Surrounds p) :
    ∃ rect ∈ trimmed valid mask e, rect.HasArea ∧ p ∈ rect.region := by
  rw [surrounds_finite_iff] at hvisible
  obtain ⟨⟨hwest, heast⟩, hsouth, hnorth⟩ := hvisible
  have harea : query.HasArea := ⟨hwest.trans heast, hsouth.trans hnorth⟩
  have hgrown := grown_hasArea harea
  -- the point lies strictly inside the grown query, so that any part around it has an area
  have hinner : ((grown query).minx < p.1 ∧ p.1 < (grown query).maxx) ∧
      (grown query).miny < p.2 ∧ p.2 < (grown query).maxy := by
    have hwidth := sub_pos.mpr harea.1
    have hheight := sub_pos.mpr harea.2
    simp only [grown]
    exact ⟨⟨by linarith, by linarith⟩, by linarith, by linarith⟩
  have hmem : p ∈ (grown query).region :=
    mem_region.mpr ⟨⟨hinner.1.1.le, hinner.1.2.le⟩, hinner.2.1.le, hinner.2.2.le⟩
  rw [trimmed]
  by_cases hholds : valid.contains e.finite = true
  · rw [if_pos hholds]
    exact ⟨_, hquery, hgrown, hmem⟩
  · rw [if_neg hholds, if_pos (hvalid.intersects hp)]
    have hclamp := hvalid.mem_clamp hp
    have hclampArea := hvalid.hasArea_clamp hp (hextent.resolve_left hholds)
    obtain ⟨⟨hcwest, hceast⟩, hcsouth, hcnorth⟩ := mem_region.mp hclamp
    refine ⟨_, mem_clipMask.mpr ⟨_, hquery, ⟨p, hmem, hclamp⟩, rfl⟩, ⟨?_, ?_⟩,
      mem_region_meet.mpr ⟨hmem, hclamp⟩⟩
    · exact max_lt (lt_min hgrown.1 (hinner.1.1.trans_le hceast))
        (lt_min (hcwest.trans_lt hinner.1.2) hclampArea.1)
    · exact max_lt (lt_min hgrown.2 (hinner.2.1.trans_le hcnorth))
        (lt_min (hcsouth.trans_lt hinner.2.2) hclampArea.2)

omit [IsStrictOrderedRing K] in
/-- A rectangle that an envelope is cut to contains it only if the valid area contains it, too. -/
theorem contains_of_mem_trimmed {mask : List (Envelope K)} {e rect : Envelope K} (hocc : e.Occupied)
    (hrect : rect ∈ trimmed valid mask e) (hcontains : rect.finite.contains e.finite = true) :
    valid.contains e.finite = true := by
  by_contra hholds
  rw [trimmed, if_neg hholds] at hrect
  split at hrect
  next hmeets =>
    obtain ⟨other, -, hother, rfl⟩ := mem_clipMask.mp hrect
    have hbounds := (contains_finite hother.occupied_meet hocc).mp hcontains
    apply hholds
    exact contains_of_clamp hmeets
      ⟨(le_max_right _ _).trans hbounds.1.1, hbounds.1.2.trans (min_le_right _ _)⟩
      ⟨(le_max_right _ _).trans hbounds.2.1, hbounds.2.2.trans (min_le_right _ _)⟩
  next => cases hrect

/-- Nothing is left of a geometry without an extent in some direction that the valid area does not
hold as a whole. -/
theorem cutTo_of_flat {mask : List (Envelope K)} {e : Envelope K} (hocc : e.Occupied)
    (hholds : ¬valid.contains e.finite = true) (hflat : ¬e.HasArea)
    (g : Geometry (Extended K)) :
    cutTo setting ((trimmed valid mask e).map Envelope.finite) g e.finite = .replaced .nothing := by
  have hany : ((trimmed valid mask e).map Envelope.finite).any (·.contains e.finite) = false := by
    rw [List.any_map, List.any_eq_false]
    exact fun rect hrect hcontains => hholds (contains_of_mem_trimmed hocc hrect hcontains)
  obtain ⟨cutting, hcutting, hmem⟩ := exists_cuttingMask hocc (trimmed valid mask e)
  have hnil : cutting = [] := by
    rw [List.eq_nil_iff_forall_not_mem]
    intro rect hrect
    obtain ⟨htrimmed, hcuts⟩ := (hmem rect).mp hrect
    rw [trimmed, if_neg hholds] at htrimmed
    split at htrimmed
    next =>
      obtain ⟨other, -, -, rfl⟩ := mem_clipMask.mp htrimmed
      apply hflat
      apply HasArea.of_clamp (f := valid)
      exact ⟨(le_max_right _ _).trans_lt (hcuts.1.1.trans_le (min_le_right _ _)),
        (le_max_right _ _).trans_lt (hcuts.1.2.trans_le (min_le_right _ _))⟩
    next => cases htrimmed
  rw [cutTo, hany, hcutting, hnil]
  rfl

/-- After any other renderings, cutting a geometry in the base of the target keeps every point that
lies strictly inside the valid area and a query, exactly if the valid area holds the geometry, the
geometry has an extent in both directions, or there is no such point. -/
theorem preProcess_keeps_visible_iff {wrap : Bool} {cap : Int}
    (hfind : find setting (some area.finite) (.ok (some source)) wrap cap = .ok (some (r, s₀)))
    (hvalid : r.validArea = some valid) (hsame : source.same r.base = true)
    (hdiffer : source.same r.target = false) (hne : g.isEmpty = false)
    (hclips : setting.overlay.ClipsExactly g)
    (earlier : List (Transform (Extended K) × Option (Geometry (Extended K))))
    (hs : s = r.stateAfter setting s₀ earlier) {queries : List (Envelope (Extended K))}
    (hqueries : (r.queries setting).outcome s = (.ok queries, s')) :
    (∃ rev s₁, ∃ cut : Geometry K,
      (r.preProcess setting (some g.finite)).outcome s = (.ok rev, s₁) ∧
      rev.applyTo g.finite = cut.finite ∧
      ∀ p ∈ g.painted, valid.Surrounds p → (∃ query ∈ queries, query.Surrounds p) →
        p ∈ cut.painted) ↔
    valid.contains (g.envelope r.source).finite = true ∨ (g.envelope r.source).HasArea ∨
      ∀ p ∈ g.painted, valid.Surrounds p → ¬∃ query ∈ queries, query.Surrounds p := by
  have hfound := found_of_find hfind
  rw [← Crs.same_horizontal_left, ← hfound.source_eq] at hsame hdiffer
  have hplanned : PlannedAs setting r (Family.of r.target).isPeriodic s := by
    rw [hs, hfound.start_eq]
    exact plannedAs_stateAfter setting r (plannedAs_start setting r _) earlier
  have hplan := hplanned.outcome_queries
  rw [hqueries] at hplan
  cases hok : r.plan setting (Family.of r.target).isPeriodic with
  | error failure => simp [hok] at hplan
  | ok planned =>
      simp only [hok, Prod.mk.injEq, Except.ok.injEq] at hplan
      obtain ⟨rfl, -⟩ := hplan
      obtain ⟨found, rfl, hocc⟩ := exists_plan hfound hvalid hsame hok
      obtain ⟨mask, hmask, hgrown⟩ := exists_queryMask (r := r) hocc s'.acrossDateline
      have hpre := outcome_preProcess_of_base hfound hvalid hsame hdiffer hqueries hmask hne
      have he := envelope_occupied hne r.source
      constructor
      · rintro ⟨rev, s₁, cut, hrev, hcut, hkeeps⟩
        by_contra hnone
        simp only [not_or] at hnone
        obtain ⟨hholds, hflat, hvisible⟩ := hnone
        -- nothing is left, though something is visible
        rw [cutTo_of_flat he hholds hflat, hrev] at hpre
        cases hpre
        have hnothing : cut = .nothing := Geometry.finite_injective hcut.symm
        apply hvisible
        intro p hp hsurrounds hquery
        have hmem := hkeeps p hp hsurrounds hquery
        rw [hnothing] at hmem
        simp [nothing, painted, paintedAll] at hmem
      · intro hextent
        obtain ⟨cut, hcut, -, hkeeps⟩ := exists_cutTo hclips hne r.source
          (trimmed valid mask (g.envelope r.source))
        refine ⟨_, _, cut, hpre, hcut, ?_⟩
        intro p hp hsurrounds hquery
        have hextent' : valid.contains (g.envelope r.source).finite = true ∨
            (g.envelope r.source).HasArea := by
          rcases hextent with hholds | harea | hinvisible
          · exact .inl hholds
          · exact .inr harea
          · exact (hinvisible p hp hsurrounds hquery).elim
        obtain ⟨_, hmem, hvisible⟩ := hquery
        obtain ⟨query, hquery, rfl⟩ := List.mem_map.mp hmem
        have hregion : p ∈ (g.envelope r.source).region :=
          mem_region.mpr (mem_bounds_of_mem_painted hp)
        obtain ⟨rect, hrect, harea, hin⟩ :=
          exists_mem_trimmed (hgrown query hquery) hextent' hregion hsurrounds hvisible
        exact hkeeps p hp rect hrect harea hin

/-- Of two places on one meridian, one beyond the limit of the projection, neither is kept, though
the other one lies in the middle of what is rendered. -/
theorem leaves_out_place_on_meridian :
    let crs := Crs.Registry.projected "EPSG:32662" "WGS 84 / Plate Carree" Crs.Registry.wgs84
      .equidistantCylindricalSpherical
      [(.naturalLatitude, 0), (.naturalLongitude, 0), (.falseEasting, 0), (.falseNorthing, 0)]
    -- metres in a degree of the equator
    let degree : Extended ℚ := .finite 111319.49079327358
    let area : Envelope ℚ := ⟨0, 0, 2000000, 8000000, some crs⟩
    let geographic : Mapping (Extended ℚ) :=
      ⟨fun x y => (x / degree, y / degree), fun _ _ => false, false⟩
    let planar : Mapping (Extended ℚ) :=
      ⟨fun lon lat => (lon * degree, lat * degree), fun _ _ => false, false⟩
    let setting : Setting (Extended ℚ) :=
      ⟨⟨fun own _ => some (if own.isGeographic then planar else geographic)⟩,
        ⟨fun _ => true, clipPlaces, fun _ _ => true, fun _ _ => true⟩⟩
    let g : Geometry ℚ := .points [some ⟨10, 40, none⟩, some ⟨10, 89, none⟩]
    ∃ r s₀ valid queries s', find setting (some area.finite) (.ok (some Crs.wgs84)) false 10 =
        .ok (some (r, s₀)) ∧
      r.validArea = some valid ∧ (r.queries setting).outcome s₀ = (.ok queries, s') ∧
      ¬∃ rev s₁, ∃ cut : Geometry ℚ,
        (r.preProcess setting (some g.finite)).outcome s₀ = (.ok rev, s₁) ∧
        rev.applyTo g.finite = cut.finite ∧
        ∀ p ∈ g.painted, valid.Surrounds p → (∃ query ∈ queries, query.Surrounds p) →
          p ∈ cut.painted := by
  intro crs degree area geographic planar setting g
  have hne : area.finite.isEmpty = false :=
    Envelope.isEmpty_finite (by norm_num [area, Envelope.Occupied])
  have hdiffer : Crs.wgs84.same crs = false := by decide +kernel
  have hrelation : setting.atlas.find Crs.wgs84 crs = .ok (.direct Crs.wgs84 crs false planar) := by
    have hhorizontal : Crs.wgs84.horizontal = Crs.wgs84 ∧ crs.horizontal = crs := ⟨rfl, rfl⟩
    rw [Atlas.find, hhorizontal.1, hhorizontal.2, hdiffer]
    rfl
  let r : Rendering (Extended ℚ) := ⟨area.finite, Crs.wgs84, crs, Crs.wgs84,
    some (ValidArea.cylindrical Crs.wgs84), .cylindrical, defaultCap,
    .direct Crs.wgs84 crs false planar, none⟩
  let s₀ : State (Extended ℚ) := { r.start with acrossDateline := true }
  have hfind : find setting (some area.finite) (.ok (some Crs.wgs84)) false 10 =
      .ok (some (r, s₀)) :=
    @find_of_plain _ _ setting area.finite Crs.wgs84 false 10 _ _ _ _ rfl hne rfl rfl hrelation rfl
  have hclips : setting.overlay.ClipsExactly g :=
    clipsExactly_of_places rfl (by simp [g, painted, Geometry.outline])
      (by simp [g, Geometry.outline])
  -- the place at forty degrees is visible
  have hquery : ((r.plan setting true).toOption.any fun queries => queries.any fun query =>
      query.minx < .finite 10 && .finite 10 < query.maxx &&
        query.miny < .finite 40 && .finite 40 < query.maxy) = true := by
    decide +kernel
  cases hplan : r.plan setting true with
  | error failure => simp [hplan, Except.toOption] at hquery
  | ok queries =>
      have hqueries : (r.queries setting).outcome s₀ =
          (.ok queries, { s₀ with queries := some queries }) := by
        rw [(plannedAs_start setting r true).outcome_queries, hplan]
      refine ⟨r, s₀, _, queries, _, hfind, rfl, hqueries, ?_⟩
      have hiff := preProcess_keeps_visible_iff (s := s₀) hfind rfl rfl hdiffer rfl hclips [] rfl
        hqueries
      have hbounds : g.west = 10 ∧ g.east = 10 ∧ g.south = 40 ∧ g.north = 89 := by decide +kernel
      rw [hiff, Geometry.envelope, hbounds.1, hbounds.2.1, hbounds.2.2.1, hbounds.2.2.2]
      simp only [not_or]
      refine ⟨?_, ?_, ?_⟩
      · decide +kernel
      · simp [HasArea]
      · intro hnone
        simp only [hplan, Except.toOption, Option.any_some, List.any_eq_true, Bool.and_eq_true,
          decide_eq_true_eq] at hquery
        obtain ⟨query, hquery, ⟨⟨hwest, heast⟩, hsouth⟩, hnorth⟩ := hquery
        refine hnone (10, 40) ?_ ?_ ⟨query, hquery, ⟨hwest, heast⟩, hsouth, hnorth⟩
        · simp [g, painted, Vertex.place]
        · have hlimit : (ValidArea.mercatorLimit : Extended ℚ) = .finite 85 := Extended.ofNat_eq 85
          refine ⟨⟨trivial, trivial⟩, ?_, ?_⟩
          · norm_num [ValidArea.cylindrical, hlimit]
          · norm_num [ValidArea.cylindrical, hlimit]

end Antimeridian.Rendering
