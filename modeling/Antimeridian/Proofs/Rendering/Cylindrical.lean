import Antimeridian.Proofs.Envelope.Unfolding
import Antimeridian.Proofs.Rendering.Visibility

/-!
# Cylindrical projections with and without copies

Where copies are wanted, the longitudes of a rendering area are computed from the measured cycle of
its axis; otherwise they are those of the image of its outline. The two differ by whole turns, so
that in the stored range they reach the same places, and either way the same places are queried.
-/

namespace Antimeridian

namespace Envelope

variable {K : Type} [Field K] [LinearOrder K]

/-- The points that some turns move an envelope to. -/
def turned (e : Envelope K) : Set (K × K) := {p | ∃ k : Int, p ∈ (e.move (360 * k)).region}

theorem turned_move (e : Envelope K) (n : Int) : (e.move (360 * n)).turned = e.turned := by
  have htwice (j k : Int) : (e.move (360 * j)).move (360 * k) = e.move (360 * (j + k : Int)) := by
    simp only [move, add_assoc]
    push_cast
    rw [mul_add]
  ext p
  constructor
  · rintro ⟨k, hp⟩
    exact ⟨n + k, by rwa [← htwice]⟩
  · rintro ⟨k, hp⟩
    exact ⟨k - n, by rwa [htwice, add_sub_cancel]⟩

end Envelope

namespace Rendering

open Envelope

variable {K : Type} [Field K] [LinearOrder K] [FloorRing K]
  {setting : Setting (Extended K)} {r : Rendering (Extended K)} {s : State (Extended K)}
  {area e : Envelope K} {source own base : Crs} {cap : Int} {queries : List (Envelope K)}

/-- Queries that cover, of the inner part of the stored range, what some turns move into an
envelope. -/
def CoversTurned (e : Envelope K) (queries : List (Envelope K)) : Prop :=
  ∀ p : K × K, -180 < p.1 → p.1 < 180 → ((∃ query ∈ queries, p ∈ query.region) ↔ p ∈ e.turned)

section Turned

variable [IsStrictOrderedRing K]

theorem Narrow.coversTurned (hqueries : Narrow e cap queries) (hocc : e.Occupied)
    (hheight : e.maxy - e.miny ≤ 180) (hgap : e.maxx - e.minx ≤ 359) (hwide : e.minx < e.maxx)
    (hcap : ∀ k, e.Reaches k → |k| ≤ cap) : CoversTurned e queries := by
  intro p hlow hhigh
  constructor
  · rintro ⟨query, hquery, hp⟩
    obtain ⟨k, ⟨rfl, rfl⟩ | ⟨rfl, -⟩⟩ := hqueries.exists_turns hquery
    · exact ⟨0, by simpa [move] using hp⟩
    · refine ⟨k, ?_⟩
      rw [mem_region] at hp ⊢
      simp only [storedPart, max_le_iff, le_min_iff] at hp
      exact ⟨⟨hp.1.1.1, hp.1.2.1⟩, hp.2⟩
  · rintro ⟨k, hp⟩
    obtain ⟨⟨hwest, heast⟩, hlevel⟩ := mem_region.mp hp
    by_cases hzero : k = 0
    · exact ⟨e, hqueries.whole, by simpa [hzero, move] using hp⟩
    · have hreach : e.Reaches k := ⟨hwide, hlow.trans_le heast, hwest.trans_lt hhigh⟩
      refine ⟨_, hqueries.part_mem hocc hheight hgap hzero (hcap k hreach) hreach, ?_⟩
      exact mem_region.mpr ⟨⟨max_le hwest hlow.le, le_min heast hhigh.le⟩, hlevel⟩

end Turned

/-! ## The valid area of cylindrical projections -/

theorem Found.validArea_cylindrical {area : Envelope (Extended K)}
    (hfound : Found setting area source r s) (hfamily : Family.of r.target = .cylindrical) :
    r.validArea = some (ValidArea.cylindrical r.base) := by
  have hof := hfound.validArea_eq
  obtain ⟨crs, -, htarget⟩ := hfound.crs_eq
  have hhorizontal : r.target.horizontal = r.target := by
    rw [htarget, Crs.horizontal_horizontal]
  simp only [ValidArea.of, hfamily, hhorizontal, hfound.base_eq, Except.ok.injEq] at hof
  exact hof.symm

/-- The part of an envelope in the latitudes that cylindrical projections render. -/
def rendered (e : Envelope K) : Envelope K :=
  { e with miny := max (-85) e.miny, maxy := min 85 e.maxy }

theorem cylindrical_eq (base : Crs) :
    (ValidArea.cylindrical base : Envelope (Extended K)) =
      ⟨.below, .finite (-85), .above, .finite 85, some base⟩ := by
  have hlimit : (ValidArea.mercatorLimit : Extended K) = .finite 85 := Extended.ofNat_eq 85
  rw [ValidArea.cylindrical, hlimit, Extended.finite_neg]
  rfl

theorem clamp_cylindrical (e : Envelope K) (base : Crs) :
    e.clamp (ValidArea.cylindrical base) = rendered e := by
  rw [cylindrical_eq]
  rfl

variable [IsStrictOrderedRing K]

theorem intersection_cylindrical (hocc : e.Occupied) (base : Crs) :
    (rendered e).Occupied ∧
        e.finite.intersection (ValidArea.cylindrical base) = (rendered e).finite ∨
      ¬(rendered e).Occupied ∧
        (e.finite.intersection (ValidArea.cylindrical base)).isEmpty = true := by
  by_cases hmeets : e.finite.intersects (ValidArea.cylindrical base) = true
  · obtain ⟨hclamp, heq, -⟩ := intersection_of_intersects hmeets
    rw [clamp_cylindrical] at hclamp heq
    exact .inl ⟨hclamp, heq⟩
  · refine .inr ⟨fun hrendered => hmeets ?_, ?_⟩
    · -- the bounds to the west and to the east exclude nothing
      have hsouth : e.miny ≤ 85 := (le_max_right _ _).trans (hrendered.2.trans (min_le_left _ _))
      have hnorth : -85 ≤ e.maxy := (le_max_left _ _).trans (hrendered.2.trans (min_le_right _ _))
      have habove (x : K) : Extended.finite x ≤ .above := trivial
      have hbelow (x : K) : Extended.below ≤ .finite x := trivial
      have hspan : (Extended.below : Extended K) ≤ .above := trivial
      have hlimits : (-85 : K) ≤ 85 := by norm_num
      rw [cylindrical_eq]
      simp [intersects, isEmpty, habove, hbelow, hspan, hlimits, hsouth, hnorth, hocc.1, hocc.2]
    · rw [intersection, if_neg hmeets]
      exact isEmpty_empty _

variable (setting) in
/-- Planning within the latitudes that are rendered covers what some turns move there. -/
theorem exists_planWithin (hvalid : r.validArea = some (ValidArea.cylindrical base))
    (hcrs : e.crs = some own) (hsame : own.same r.source = true) (hocc : e.Occupied)
    (hwide : e.minx < e.maxx) (hgap : e.maxx - e.minx ≤ 359)
    (hcap : ∀ k, e.Reaches k → |k| ≤ r.cap) :
    ∃ queries : List (Envelope K),
      r.planWithin setting true e.finite = .ok (queries.map Envelope.finite) ∧
        CoversTurned (rendered e) queries := by
  simp only [planWithin, hvalid, Option.map_some, Option.getD_some, Option.isSome_some,
    Bool.true_and]
  rcases intersection_cylindrical hocc base with ⟨hrendered, heq⟩ | ⟨hrendered, hempty⟩
  · rw [heq, isEmpty_finite hrendered]
    have hheight : (rendered e).maxy - (rendered e).miny ≤ 180 := by
      have hsouth := le_max_left (-85) e.miny
      have hnorth := min_le_left 85 e.maxy
      simp only [rendered]
      linarith
    obtain ⟨queries, hok, hqueries⟩ := exists_narrow_split setting hsame (e := rendered e) hcrs
      hrendered (hgap.trans_lt (by norm_num)) r.cap
    exact ⟨queries, hok, hqueries.coversTurned hrendered hheight hgap hwide hcap⟩
  · rw [hempty]
    refine ⟨[], rfl, fun p _ _ => ?_⟩
    have hnone : p ∉ (rendered e).turned := by
      rintro ⟨k, hp⟩
      obtain ⟨-, hsouth, hnorth⟩ := mem_region.mp hp
      exact hrendered ⟨hwide.le, hsouth.trans hnorth⟩
    simp [hnone]

theorem exists_queries_cylindrical (hfound : Found setting area.finite source r s)
    (hfamily : Family.of r.target = .cylindrical) (hsame : source.same r.base = true)
    (hbound : r.geographicArea setting = .ok e.finite) (hcrs : e.crs = some r.base.horizontal)
    (hocc : e.Occupied) (hwide : e.minx < e.maxx) (hgap : e.maxx - e.minx ≤ 359)
    (hcap : ∀ k, e.Reaches k → |k| ≤ r.cap)
    (earlier : List (Transform (Extended K) × Option (Geometry (Extended K)))) :
    ∃ queries : List (Envelope K),
      ((r.queries setting).outcome (r.stateAfter setting s earlier)).1 =
        .ok (queries.map Envelope.finite) ∧ CoversTurned (rendered e) queries := by
  have hvalid := hfound.validArea_cylindrical hfamily
  have hsource : r.base.horizontal.same r.source = true := by
    rw [hfound.source_eq, Crs.same_horizontal_left, Crs.same_horizontal_right, Crs.same_comm, hsame]
  obtain ⟨queries, hplan, hcovers⟩ :=
    exists_planWithin setting hvalid hcrs hsource hocc hwide hgap hcap
  have hplanned : PlannedAs setting r true (r.stateAfter setting s earlier) := by
    rw [hfound.start_eq, hfamily]
    exact plannedAs_stateAfter setting r (plannedAs_start setting r _) earlier
  refine ⟨queries, ?_, hcovers⟩
  rw [hplanned.outcome_queries, plan, hvalid, hbound]
  simp only [bind, Except.bind, Option.isNone_some, Bool.false_and, Bool.false_eq_true, if_false,
    hplan]

/-! ## With and without copies -/

/-- The cycle of a target along whose horizontal axis longitudes are linear. -/
def cycleOf (axis : Longitude.Axis K) (south north : Extended K) : Cycle (Extended K) :=
  ⟨.finite axis.radius, .finite axis.meridian, .finite axis.origin, south, north⟩

omit [FloorRing K] in
/-- An image with its middle in the period around zero is at most one turn away from the stored
range. -/
theorem abs_le_one_of_reaches (hcentred : e.Centred) (hgap : e.maxx - e.minx ≤ 359) {k : Int}
    (hreach : e.Reaches k) : |k| ≤ 1 := by
  obtain ⟨-, heast, hwest⟩ := hreach
  obtain ⟨hlow, hhigh⟩ := abs_le.mp hcentred
  have hbelow : (-2 : K) < k := by linarith
  have habove : (k : K) < 2 := by linarith
  have hbelow' : -2 < k := by exact_mod_cast hbelow
  have habove' : k < 2 := by exact_mod_cast habove
  rw [abs_le]
  omega

omit [IsStrictOrderedRing K] in
theorem geographicArea_of_cycle {axis : Longitude.Axis K} {south north : Extended K}
    (harea : r.area = area.finite) (hcycle : r.cycle = some (cycleOf axis south north))
    (hprojected : r.target.isGeographic = false) {bound : Envelope (Extended K)}
    (htransform : area.finite.transform setting.atlas r.base = .ok bound) :
    r.geographicArea setting = .ok { bound with
      minx := .finite (axis.longitude area.minx)
      maxx := .finite (axis.longitude area.maxx) } := by
  rw [geographicArea, harea, htransform]
  simp only [bind, Except.bind, hcycle, hprojected, cycleOf, Extended.ofNat_eq, finite_minx,
    finite_maxx, Extended.finite_div _ axis.radius_pos.ne', Extended.finite_sub,
    Extended.finite_mul, Extended.finite_add, Bool.false_eq_true, if_false]
  rfl

/-- Where longitudes are projected to the abscissas of an axis, it is this axis that is measured. -/
theorem measuredCycle_of_axis {axis : Longitude.Axis K} (ordinate : K → K)
    {forth : Transform (Extended K)} (hforth : setting.atlas.find r.base r.target = .ok forth)
    (hvalid : r.validArea = some (ValidArea.cylindrical base))
    (hmeridian : (r.target.centralMeridian.toScalar : Extended K) = .finite axis.meridian)
    (himage : ∀ x lat : K, forth.image (.finite (axis.longitude x)) (.finite lat) =
      (.finite x, .finite (ordinate lat))) :
    measuredCycle setting r =
      .ok (cycleOf axis (.finite (ordinate (-85))) (.finite (ordinate 85))) := by
  have hstart (lat : K) := himage axis.origin lat
  have hhalf (lat : K) := himage (axis.origin + axis.radius) lat
  rw [axis.longitude_origin] at hstart
  rw [axis.longitude_half] at hhalf
  have hradius : |axis.origin + axis.radius - axis.origin| = axis.radius := by
    rw [add_sub_cancel_left, abs_of_pos axis.radius_pos]
  rw [measuredCycle, hforth]
  simp only [bind, Except.bind, hmeridian, poleOrdinates, hvalid, cylindrical_eq, hstart, hhalf,
    Extended.ofNat_eq, Extended.zero_eq, Extended.finite_add, Extended.finite_sub,
    Extended.abs_finite, Extended.isFinite_finite, Extended.finite_le_finite, hradius,
    not_le.mpr axis.radius_pos, decide_false, Bool.not_true, Bool.or_self, Bool.and_self,
    Bool.false_eq_true, if_false, if_true]
  rfl

omit [IsStrictOrderedRing K] in
/-- The same area is rendered without copies where they are not wanted. -/
theorem Found.exists_plain {area : Envelope (Extended K)} (hfound : Found setting area source r s)
    (cap : Int) :
    ∃ plain s', find setting (some area) (.ok (some source)) false cap = .ok (some (plain, s')) ∧
      plain.target = r.target ∧ plain.base = r.base ∧ plain.cycle = none ∧
      plain.cap = defaultCap := by
  obtain ⟨crs, hcrs, htarget⟩ := hfound.crs_eq
  have hvalid := hfound.validArea_eq
  have hbase := hfound.base_eq
  have hrelation := hfound.relation_eq
  rw [htarget] at hvalid hbase hrelation
  rw [hfound.source_eq] at hrelation
  exact ⟨_, _, find_of_plain hcrs hfound.isEmpty_eq hbase hvalid hrelation (by simp),
    htarget.symm, rfl, rfl, rfl⟩

/-- The longitudes of a rendering area with copies and without differ by whole turns, and where data
are stored in the base of the target and the cap leaves out no part, the same places strictly inside
the stored range are queried either way, after any other renderings. -/
theorem wrapping_queries_as_plain (plainCap : Int)
    (hfind : find setting (some area.finite) (.ok (some source)) true cap = .ok (some (r, s)))
    (hfamily : Family.of r.target = .cylindrical) (hdiffer : r.target.same r.base = false)
    {axis : Longitude.Axis K} {south north : Extended K}
    (hcycle : r.cycle = some (cycleOf axis south north)) (harea : area.HasArea)
    (hnarrow : axis.longitude area.maxx - axis.longitude area.minx ≤ 359)
    (hunrolls : area.Unrolls setting.atlas r.target r.base axis) :
    ∃ plain s', find setting (some area.finite) (.ok (some source)) false plainCap =
        .ok (some (plain, s')) ∧ plain.makesCopies = false ∧
      ∃ (e : Envelope K) (n : Int), e.minx = axis.longitude area.minx ∧
        e.maxx = axis.longitude area.maxx ∧ r.geographicArea setting = .ok e.finite ∧
        plain.geographicArea setting = .ok (e.move (360 * n)).finite ∧
        (source.same r.base = true → (∀ k, e.Reaches k → |k| ≤ r.cap) →
          ∀ earlier earlier', ∃ queries queries' : List (Envelope K),
            ((r.queries setting).outcome (r.stateAfter setting s earlier)).1 =
              .ok (queries.map Envelope.finite) ∧
            ((plain.queries setting).outcome (plain.stateAfter setting s' earlier')).1 =
              .ok (queries'.map Envelope.finite) ∧
            ∀ p : K × K, -180 < p.1 → p.1 < 180 →
              ((∃ query ∈ queries, p ∈ query.region) ↔ ∃ query ∈ queries', p ∈ query.region)) := by
  have hfound := found_of_find hfind
  obtain ⟨crs, hcrs, htarget⟩ := hfound.crs_eq
  obtain ⟨hprojected, hbase⟩ := hfound.projected (by rw [hfound.validArea_cylindrical hfamily]; rfl)
  obtain ⟨plain, s', hplain, hplainTarget, hplainBase, hplainCycle, hplainCap⟩ :=
    hfound.exists_plain plainCap
  have hfound' := found_of_find hplain
  have hunrolls' : area.Unrolls setting.atlas crs r.base axis := by
    rw [htarget] at hunrolls
    exact hunrolls.of_horizontal
  have hdiffer' : crs.same r.base = false := by
    rwa [htarget, Crs.same_horizontal_left] at hdiffer
  have hcrsProjected : crs.isGeographic = false := by
    rwa [htarget, Crs.isGeographic_horizontal] at hprojected
  obtain ⟨n, e, hocc, hwest, heast, hecrs, htransform⟩ := hunrolls'.exists_transform hcrs
    harea.occupied hdiffer' hcrsProjected hbase hnarrow
  have hbound : r.geographicArea setting = .ok e.finite := by
    rw [geographicArea_of_cycle hfound.area_eq hcycle hprojected htransform, ← hwest, ← heast]
    rfl
  have hbound' : plain.geographicArea setting = .ok (e.move (360 * n)).finite := by
    rw [geographicArea, hfound'.area_eq, hplainBase, htransform, hplainCycle]
    rfl
  have hcopies : plain.makesCopies = false := by rw [makesCopies, hplainCycle]; rfl
  refine ⟨plain, s', hplain, hcopies, e, n, hwest, heast, hbound, hbound', ?_⟩
  intro hsame hcap earlier earlier'
  have hwide : e.minx < e.maxx := by
    rw [hwest, heast]
    exact axis.longitude_strictMono harea.1
  have hgap : e.maxx - e.minx ≤ 359 := by rwa [hwest, heast]
  have hgap' : (e.move (360 * n)).maxx - (e.move (360 * n)).minx ≤ 359 := by
    simpa [move] using hgap
  obtain ⟨queries, hqueries, hcovers⟩ :=
    exists_queries_cylindrical hfound hfamily hsame hbound hecrs hocc hwide hgap hcap earlier
  have hcap' (k : Int) (hreach : (e.move (360 * n)).Reaches k) : |k| ≤ plain.cap := by
    obtain ⟨f, hf, -, -, hcentred⟩ := exists_eq_finite_of_transform hcrs hdiffer'
      (isEmpty_finite harea.occupied) htransform
    rw [← Envelope.finite_injective hf] at hcentred
    rw [hplainCap]
    exact (abs_le_one_of_reaches (hcentred hcrsProjected hbase) hgap' hreach).trans (by decide)
  obtain ⟨queries', hqueries', hcovers'⟩ := exists_queries_cylindrical hfound'
    (by rwa [hplainTarget]) (by rwa [hplainBase]) hbound' (hecrs.trans (by rw [hplainBase]))
    ⟨add_le_add_left hocc.1 _, hocc.2⟩ (add_lt_add_left hwide _) hgap' hcap' earlier'
  refine ⟨queries, queries', hqueries, hqueries', fun p hlow hhigh => ?_⟩
  rw [hcovers p hlow hhigh, hcovers' p hlow hhigh, ← turned_move (rendered e) n]
  rfl

/-- A view of 170 to 200 degrees of longitude, which the chart shows at 170 degrees east to 160
degrees west. -/
theorem view_beyond_antimeridian_queried_as_plain :
    let crs := Crs.Registry.projected "EPSG:32662" "WGS 84 / Plate Carree" Crs.Registry.wgs84
      .equidistantCylindricalSpherical
      [(.naturalLatitude, 0), (.naturalLongitude, 0), (.falseEasting, 0), (.falseNorthing, 0)]
    -- metres in a degree of the equator
    let degree : ℚ := 111319.49079327358
    let area : Envelope ℚ := ⟨170 * degree, 0, 200 * degree, 10 * degree, some crs⟩
    let geographic : Mapping (Extended ℚ) :=
      ⟨fun x y => (Longitude.normalize (x / .finite degree) Longitude.turn, y / .finite degree),
        fun _ _ => false, false⟩
    let planar : Mapping (Extended ℚ) :=
      ⟨fun lon lat => (lon * .finite degree, lat * .finite degree), fun _ _ => false, false⟩
    let setting : Setting (Extended ℚ) :=
      ⟨⟨fun own _ => some (if own.isGeographic then planar else geographic)⟩,
        ⟨fun _ => true, fun g _ => g, fun _ _ => true, fun _ _ => true⟩⟩
    ∃ r s plain s', find setting (some area.finite) (.ok (some Crs.wgs84)) true 10 =
        .ok (some (r, s)) ∧
      find setting (some area.finite) (.ok (some Crs.wgs84)) false 10 = .ok (some (plain, s')) ∧
      ∃ (e : Envelope ℚ) (n : Int), e.minx = 170 ∧ e.maxx = 200 ∧
        r.geographicArea setting = .ok e.finite ∧
        plain.geographicArea setting = .ok (e.move (360 * n)).finite ∧
        ∃ queries queries' : List (Envelope ℚ),
          ((r.queries setting).outcome s).1 = .ok (queries.map Envelope.finite) ∧
          ((plain.queries setting).outcome s').1 = .ok (queries'.map Envelope.finite) ∧
          ∀ p : ℚ × ℚ, -180 < p.1 → p.1 < 180 →
            ((∃ query ∈ queries, p ∈ query.region) ↔ ∃ query ∈ queries', p ∈ query.region) := by
  intro crs degree area geographic planar setting
  have hpos : 0 < degree := by norm_num [degree]
  let axis : Longitude.Axis ℚ := ⟨180 * degree, by positivity, 0, 0⟩
  have hdegrees (x : ℚ) : axis.longitude x = x / degree := by
    simp only [Longitude.Axis.longitude, axis]
    field_simp
    ring
  have hlongitude (x : ℚ) : axis.longitude (x * degree) = x := by
    rw [hdegrees, mul_div_cancel_right₀ _ hpos.ne']
  have harea : area.HasArea := by
    constructor <;> simp only [area] <;> linarith
  have hne : area.finite.isEmpty = false := isEmpty_finite harea.occupied
  have hhorizontal : Crs.wgs84.horizontal = Crs.wgs84 ∧ crs.horizontal = crs := ⟨rfl, rfl⟩
  have hdiffer : Crs.wgs84.same crs = false := by decide +kernel
  have hforth : setting.atlas.find Crs.wgs84 crs = .ok (.direct Crs.wgs84 crs false planar) := by
    rw [Atlas.find, hhorizontal.1, hhorizontal.2, hdiffer]
    rfl
  have hback : setting.atlas.find crs Crs.wgs84 = .ok (.direct crs Crs.wgs84 false geographic) := by
    rw [Atlas.find, hhorizontal.1, hhorizontal.2, Crs.same_comm, hdiffer]
    rfl
  let plain : Rendering (Extended ℚ) := ⟨area.finite, Crs.wgs84, crs, Crs.wgs84,
    some (ValidArea.cylindrical Crs.wgs84), .cylindrical, defaultCap,
    .direct Crs.wgs84 crs false planar, none⟩
  have hmeridian : (crs.centralMeridian.toScalar : Extended ℚ) = .finite 0 := by
    change Extended.finite ((0 : Int) / 10 ^ 0 : ℚ) = _
    norm_num
  have hmeasured : measuredCycle setting plain =
      .ok (cycleOf axis (.finite (-85 * degree)) (.finite (85 * degree))) :=
    measuredCycle_of_axis (· * degree) hforth rfl hmeridian fun x lat => by
      simp [Transform.image, planar, hdegrees, hpos.ne']
  have hfind : find setting (some area.finite) (.ok (some Crs.wgs84)) true 10 =
      .ok (some (_, _)) :=
    find_of_wrapping rfl hne rfl rfl hforth rfl (by norm_num) rfl hmeasured
  have hunrolls : area.Unrolls setting.atlas crs Crs.wgs84 axis := by
    refine ⟨⟨_, hback, fun x y _ => ?_⟩, _, hforth, fun pole hpole x y heq hmem => ?_⟩
    · obtain ⟨k, hk⟩ := Longitude.exists_normalize (axis.longitude x)
      refine ⟨k, y / degree, ?_⟩
      rw [← hk, hdegrees]
      simp [Transform.image, geographic, Extended.finite_div _ hpos.ne']
    · have hy : pole * degree = y := by
        simpa [Transform.image, planar] using congrArg Prod.snd heq
      obtain ⟨-, hsouth, hnorth⟩ := mem_region.mp hmem
      simp only [area] at hsouth hnorth
      simp only [List.mem_cons, List.not_mem_nil, or_false] at hpole
      rcases hpole with rfl | rfl <;> linarith
  obtain ⟨plain, s', hplain, -, e, n, hwest, heast, hbound, hbound', hqueries⟩ :=
    wrapping_queries_as_plain 10 hfind rfl (by rw [Crs.same_comm]; exact hdiffer) rfl
      harea (by rw [hlongitude, hlongitude]; norm_num) hunrolls
  rw [hlongitude] at hwest heast
  have hcap (k : Int) (hreach : e.Reaches k) : |k| ≤ 10 := by
    obtain ⟨-, hreachEast, hreachWest⟩ := hreach
    rw [heast] at hreachEast
    rw [hwest] at hreachWest
    have hbelow : (-10 : ℚ) ≤ k := by linarith
    have habove : (k : ℚ) ≤ 10 := by linarith
    rw [abs_le]
    exact ⟨by exact_mod_cast hbelow, by exact_mod_cast habove⟩
  obtain ⟨queries, queries', hok, hok', hsame⟩ := hqueries (by decide) hcap [] []
  exact ⟨_, _, plain, s', hfind, hplain, e, n, hwest, heast, hbound, hbound', queries, queries',
    hok, hok', hsame⟩

end Rendering

end Antimeridian
