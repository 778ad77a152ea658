import Antimeridian.Proofs.Envelope.Image
import Antimeridian.Proofs.Rendering.Invariant
import Antimeridian.Proofs.Rendering.Request

/-!
# Valid areas and turns

The valid area of a projection lies around the meridian the projection is centred on, wherever that
is. Images in longitude and latitude have their middle in the period around zero, and stored data
their longitudes. Planning and cutting compare the two as they are, without looking for the turns at
which they face each other. That is right where the two meet as they are, or at no turns at all.
-/

namespace Antimeridian

namespace Envelope

section Facing

variable {K : Type} [Field K] [LinearOrder K] [IsStrictOrderedRing K] {e f : Envelope K}

/-- Turns that bring the middles of two envelopes nearer to each other keep them together. -/
theorem meets_move_of_nearer {j k : Int}
    (hnearer : |f.minx + f.maxx - (e.minx + e.maxx) - 720 * j| ≤
      |f.minx + f.maxx - (e.minx + e.maxx) - 720 * k|)
    (hmeets : (e.move (360 * k)).Meets f) : (e.move (360 * j)).Meets f := by
  rw [meets_iff] at hmeets ⊢
  obtain ⟨⟨hocc, hfocc⟩, ⟨hwest, heast⟩, hlatitudes⟩ := hmeets
  have hown : e.Occupied := ⟨le_of_add_le_add_right hocc.1, hocc.2⟩
  simp only [move] at hwest heast
  -- how far apart the middles may be, both widths added
  have hwithin : |f.minx + f.maxx - (e.minx + e.maxx) - 720 * k| ≤
      f.maxx - f.minx + (e.maxx - e.minx) := by
    rw [abs_le]
    constructor <;> linarith
  obtain ⟨hlow, hhigh⟩ := abs_le.mp (hnearer.trans hwithin)
  refine ⟨⟨⟨add_le_add_left hown.1 _, hown.2⟩, hfocc⟩, ⟨?_, ?_⟩, hlatitudes⟩
  · simp only [move]
    linarith
  · simp only [move]
    linarith

variable [FloorRing K]

/-- The number of turns that brings the middle of an envelope nearest to that of another one. -/
def facing (e f : Envelope K) : Int := round ((f.minx + f.maxx - (e.minx + e.maxx)) / 720)

theorem exists_meets_iff :
    (∃ k : Int, (e.move (360 * k)).Meets f) ↔ (e.move (360 * e.facing f)).Meets f := by
  constructor
  · rintro ⟨k, hmeets⟩
    apply meets_move_of_nearer _ hmeets
    have hround := round_le ((f.minx + f.maxx - (e.minx + e.maxx)) / 720) k
    have hscale (j : Int) : |f.minx + f.maxx - (e.minx + e.maxx) - 720 * j| =
        720 * |(f.minx + f.maxx - (e.minx + e.maxx)) / 720 - j| := by
      rw [← abs_of_pos (show (0 : K) < 720 by norm_num), ← abs_mul,
        abs_of_pos (show (0 : K) < 720 by norm_num)]
      congr 1
      field_simp
    rw [hscale, hscale]
    exact mul_le_mul_of_nonneg_left hround (by norm_num)
  · intro hmeets
    exact ⟨_, hmeets⟩

/-- Whether two envelopes meet as they are if they do at some turns. -/
def Aligned (e f : Envelope K) : Prop := (e.move (360 * e.facing f)).Meets f → e.Meets f

theorem aligned_iff : e.Aligned f ↔ (¬e.Meets f → ∀ k : Int, ¬(e.move (360 * k)).Meets f) := by
  rw [← not_exists, exists_meets_iff, not_imp_not]
  rfl

/-- Envelopes whose middles are at most half a turn apart are aligned. -/
theorem aligned_of_abs_le (hclose : |f.minx + f.maxx - (e.minx + e.maxx)| ≤ 360) : e.Aligned f := by
  intro hmeets
  have hstay : (e.move (360 * (0 : Int))).Meets f := by
    apply meets_move_of_nearer _ hmeets
    by_cases hzero : e.facing f = 0
    · rw [hzero]
    · have hturn : (1 : K) ≤ |(e.facing f : K)| := by
        exact_mod_cast Int.one_le_abs hzero
      have hfar := abs_sub_abs_le_abs_sub (720 * (e.facing f : K))
        (f.minx + f.maxx - (e.minx + e.maxx))
      rw [abs_mul, abs_of_pos (show (0 : K) < 720 by norm_num),
        abs_sub_comm (720 * _)] at hfar
      rw [Int.cast_zero, mul_zero, sub_zero]
      linarith
  simpa [move] using hstay

end Facing

section Sharing

variable {K : Type} [Field K] [LinearOrder K] [FloorRing K] {e f : Envelope K}

theorem isEmpty_intersection_iff :
    (e.finite.intersection f.finite).isEmpty = true ↔ ¬e.Meets f := by
  rw [intersection_finite]
  split
  next hmeets =>
    rw [intersects_finite_iff] at hmeets
    simp [isEmpty_finite hmeets.occupied_meet, hmeets]
  next hapart =>
    rw [intersects_finite_iff] at hapart
    exact iff_of_true (isEmpty_empty _) hapart

theorem meets_of_contains (hcontains : e.finite.contains f.finite = true) : e.Meets f := by
  simp only [contains, Bool.and_eq_true, Bool.not_eq_true', isEmpty_finite_iff,
    decide_eq_true_eq, finite_minx, finite_miny, finite_maxx, finite_maxy,
    Extended.finite_le_finite] at hcontains
  obtain ⟨⟨⟨⟨⟨hocc, hfocc⟩, hwest⟩, heast⟩, hsouth⟩, hnorth⟩ := hcontains
  apply meets_iff.mpr
  exact ⟨⟨hocc, hfocc⟩, ⟨hwest.trans (hfocc.1.trans le_rfl), hfocc.1.trans heast⟩,
    hsouth.trans hfocc.2, hfocc.2.trans hnorth⟩

end Sharing

end Envelope

namespace Rendering

open Envelope

variable {K : Type} [Field K] [LinearOrder K] [FloorRing K]
  {setting : Setting (Extended K)} {r : Rendering (Extended K)} {s s' : State (Extended K)}
  {area : Envelope (Extended K)} {source : Crs} {valid own image : Envelope K}

/-! ## Requests with a valid area -/

/-- Where the valid area has western and eastern bounds, the axis does not repeat. -/
theorem Found.aperiodic (hfound : Found setting area source r s)
    (hvalid : r.validArea = some valid.finite) : (Family.of r.target).isPeriodic = false := by
  have hof := hfound.validArea_eq
  rw [hvalid] at hof
  cases hfamily : Family.of r.target with
  | geographic =>
      rw [hfamily] at hof
      cases hof
  | cylindrical =>
      rw [hfamily] at hof
      cases hbase : r.target.horizontal.base? with
      | none => simp [ValidArea.of, hbase] at hof
      | some base => simp [ValidArea.of, hbase, ValidArea.cylindrical, finite] at hof
  | conic => rfl
  | azimuthal => rfl
  | transverse => rfl
  | generic => rfl

/-- A system with a valid area is projected, and its base is geographic. -/
theorem Found.projected (hfound : Found setting area source r s)
    (hvalid : r.validArea.isSome = true) :
    r.target.isGeographic = false ∧ r.base.isGeographic = true := by
  have hof := hfound.validArea_eq
  have hbase := hfound.base_eq
  cases hgeographic : r.target.isGeographic with
  | true =>
      rw [Family.of, if_pos hgeographic] at hof
      rw [← Except.ok.inj hof] at hvalid
      contradiction
  | false =>
      rw [Crs.base?, hgeographic] at hbase
      obtain ⟨frame, -, hframe⟩ := Option.map_eq_some_iff.mp hbase
      rw [← hframe]
      exact ⟨rfl, rfl⟩

theorem plan_eq_nil_iff (hcycle : r.cycle = none) (hvalid : r.validArea = some valid.finite)
    (himage : r.area.transform setting.atlas r.base = .ok image.finite) :
    r.plan setting false = .ok [] ↔ ¬image.Meets valid := by
  have hgeographic : r.geographicArea setting = .ok image.finite := by
    rw [geographicArea, himage, hcycle]
    rfl
  rw [plan, hgeographic, ← isEmpty_intersection_iff]
  simp only [planWithin, hvalid, Option.isNone_some, Option.isSome_some, Option.map_some,
    Option.getD_some, Bool.false_and, Bool.true_and, bind, Except.bind, pure, Except.pure]
  cases hempty : (image.finite.intersection valid.finite).isEmpty with
  | true => simp
  | false =>
      -- a single envelope is queried, unless it has no image in the system of the data
      simp only [Bool.false_eq_true, if_false, iff_false]
      split
      · cases r.area.transform setting.atlas r.source <;> simp
      · cases (image.finite.intersection valid.finite).transform setting.atlas r.source <;> simp

theorem outcome_queries_nil_iff (hs : PlannedAs setting r false s) (hcycle : r.cycle = none)
    (hvalid : r.validArea = some valid.finite)
    (himage : r.area.transform setting.atlas r.base = .ok image.finite) :
    (∃ s', (r.queries setting).outcome s = (.ok [], s')) ↔ ¬image.Meets valid := by
  rw [← plan_eq_nil_iff hcycle hvalid himage, hs.outcome_queries]
  cases r.plan setting false <;> simp

/-! ## Cutting to a valid area -/

/-- Whether cutting to the valid area leaves nothing of what lies in an envelope. -/
def CutsAway (setting : Setting (Extended K)) (r : Rendering (Extended K))
    (e : Envelope (Extended K)) : Prop :=
  ∃ mask, r.validMask setting e = .ok (some mask) ∧ mask.isEmpty = true

variable {e mask : Envelope (Extended K)} {g : Geometry (Extended K)}

/-- A mask without or with a valid area to clip it to. -/
def clippedBy (mask : List (Envelope (Extended K))) :
    Option (Envelope (Extended K)) → List (Envelope (Extended K))
  | none => mask
  | some valid => mask.map (·.intersection valid)

theorem outcome_preProcess_of_queries (hne : g.isEmpty = false)
    {queries : List (Envelope (Extended K))}
    (hqueries : (r.queries setting).outcome s = (.ok queries, s'))
    {mask : Option (Envelope (Extended K))}
    (hmask : r.validMask setting (ofGeometry g (some r.source)) = .ok mask) :
    (r.preProcess setting (some g)).outcome s =
      (.ok (cutTo setting (clippedBy (r.queryMask s'.acrossDateline queries) mask) g
        (ofGeometry g (some r.source))), s') := by
  rw [outcome_preProcess_eq hne, hqueries]
  simp only [cutToQueries, hmask]
  cases mask <;> rfl

/-- What is cut away by the valid area is left out, whatever the queries are. -/
theorem CutsAway.outcome_preProcess (hne : g.isEmpty = false)
    (hcuts : CutsAway setting r (ofGeometry g (some r.source)))
    {queries : List (Envelope (Extended K))}
    (hqueries : (r.queries setting).outcome s = (.ok queries, s')) :
    (r.preProcess setting (some g)).outcome s = (.ok (.replaced .nothing), s') := by
  obtain ⟨mask, hmask, hempty⟩ := hcuts
  rw [outcome_preProcess_of_queries hne hqueries hmask]
  -- no rectangle shares a point with the mask
  generalize r.queryMask s'.acrossDateline queries = rects
  have hrects : clippedBy rects (some mask) = rects.map fun rect => empty rect.crs := by
    simp [clippedBy, intersection, intersects, hempty]
  have hany : (rects.map fun rect => (empty rect.crs : Envelope (Extended K))).any
      (·.contains (ofGeometry g (some r.source))) = false := by
    simp [contains, isEmpty_empty]
  have hcutting : cuttingMask (rects.map fun rect => (empty rect.crs : Envelope (Extended K)))
      (ofGeometry g (some r.source)) = [] := by
    simp [cuttingMask, intersects, isEmpty_empty]
  rw [hrects, cutTo, hany, hcutting]
  rfl

variable [IsStrictOrderedRing K]

theorem cutsAway_iff (hvalid : r.validArea = some valid.finite)
    (hown : e.transform setting.atlas r.base = .ok own.finite) :
    CutsAway setting r e ↔ r.relation.isIdentity = false ∧ ¬own.Meets valid := by
  rw [CutsAway, validMask, hvalid, hown]
  cases r.relation.isIdentity with
  | true => simp [pure, Except.pure]
  | false =>
      simp only [bind, Except.bind, pure, Except.pure, Bool.false_eq_true, if_false, true_and]
      split
      next hcontains => simp [(meets_of_contains hcontains).symm]
      next =>
        cases hempty : (valid.finite.intersection own.finite).isEmpty with
        | true =>
            rw [isEmpty_intersection_iff] at hempty
            refine iff_of_true ⟨_, rfl, isEmpty_empty _⟩ ?_
            intro hmeets
            exact hempty hmeets.symm
        | false =>
            rw [← Bool.not_eq_true, isEmpty_intersection_iff, not_not] at hempty
            refine iff_of_false ?_ (not_not_intro hempty.symm)
            rintro ⟨mask, hmask, hnothing⟩
            cases hclipped : (valid.finite.intersection own.finite).transform setting.atlas
                r.source with
            | error failure => simp [hclipped] at hmask
            | ok image =>
                have hne : (valid.finite.intersection own.finite).isEmpty = false := by
                  rw [← Bool.not_eq_true, isEmpty_intersection_iff, not_not]
                  exact hempty
                have hkept := isEmpty_of_transform hne hclipped
                simp [hclipped] at hmask
                rw [← hmask, hkept] at hnothing
                contradiction

/-! ## Turns -/

/-- After any other renderings, planning and cutting find nothing in the valid area only where there
is nothing at any turns exactly if the rendering area, or what is cut, is aligned with the valid
area. The rendering area always is where the valid area is centred on longitude zero. -/
theorem validArea_respects_turns_iff {wrap : Bool} {cap : Int} {s₀ : State (Extended K)}
    (hfind : find setting (some area) (.ok (some source)) wrap cap = .ok (some (r, s₀)))
    (hvalid : r.validArea = some valid.finite)
    (himage : area.transform setting.atlas r.base = .ok image.finite)
    (hne : g.isEmpty = false)
    (hown : (ofGeometry g (some r.source)).transform setting.atlas r.base = .ok own.finite)
    (earlier : List (Transform (Extended K) × Option (Geometry (Extended K))))
    (hs : s = r.stateAfter setting s₀ earlier) :
    (((∃ s', (r.queries setting).outcome s = (.ok [], s')) →
        ∀ k : Int, ¬(image.move (360 * k)).Meets valid) ↔ image.Aligned valid) ∧
    ((CutsAway setting r (ofGeometry g (some r.source)) →
        ∀ k : Int, ¬(own.move (360 * k)).Meets valid) ↔
      (r.relation.isIdentity = false → own.Aligned valid)) ∧
    (CutsAway setting r (ofGeometry g (some r.source)) → ∀ queries s',
      (r.queries setting).outcome s = (.ok queries, s') →
        (r.preProcess setting (some g)).outcome s = (.ok (.replaced .nothing), s')) ∧
    (valid.minx + valid.maxx = 0 → r.target.same r.base = false → image.Aligned valid) := by
  have hfound := found_of_find hfind
  have haperiodic := hfound.aperiodic hvalid
  have hcycle := hfound.cycle_of_aperiodic haperiodic
  have hplanned : PlannedAs setting r false s := by
    rw [hs, hfound.start_eq, haperiodic]
    exact plannedAs_stateAfter setting r (plannedAs_start setting r false) earlier
  refine ⟨?_, ?_, ?_, ?_⟩
  · rw [outcome_queries_nil_iff hplanned hcycle hvalid (by rwa [hfound.area_eq])]
    exact aligned_iff.symm
  · rw [cutsAway_iff hvalid hown, aligned_iff]
    tauto
  · intro hcuts queries s' hqueries
    exact hcuts.outcome_preProcess hne hqueries
  · intro hcentre hdiffer
    obtain ⟨crs, hcrs, htarget⟩ := hfound.crs_eq
    obtain ⟨hprojected, hbase⟩ := hfound.projected (by rw [hvalid]; rfl)
    rw [htarget, Crs.same_horizontal_left] at hdiffer
    rw [htarget, Crs.isGeographic_horizontal] at hprojected
    obtain ⟨f, hf, -, -, hcentred⟩ :=
      exists_eq_finite_of_transform hcrs hdiffer hfound.isEmpty_eq himage
    have hmiddle := hcentred hprojected hbase
    apply aligned_of_abs_le
    rw [hcentre, zero_sub, abs_neg]
    rw [Envelope.finite_injective hf]
    exact hmiddle

/-- Around a central meridian of 177 degrees west, a stored point at 175 degrees east is cut away,
though it lies only eight degrees to the west of the meridian. -/
theorem cuts_away_beyond_antimeridian :
    let crs := Crs.Registry.projected "EPSG:32601" "WGS 84 / UTM zone 1N" Crs.Registry.wgs84
      .transverseMercator [(.naturalLatitude, 0), (.naturalLongitude, -177),
        (.naturalScale, 0.9996), (.falseEasting, 500000), (.falseNorthing, 0)]
    -- the origin of the projection, where the chart takes it, and where it takes the poles
    let area : Envelope ℚ := ⟨500000, 0, 500000, 0, some crs⟩
    let geographic : Mapping (Extended ℚ) := ⟨fun _ _ => (-177, 0), fun _ _ => false, false⟩
    let planar : Mapping (Extended ℚ) :=
      ⟨fun _ lat => (500000, lat * (.finite (9997964.943 / 90))), fun _ _ => false, false⟩
    let setting : Setting (Extended ℚ) :=
      ⟨⟨fun own _ => some (if own.isGeographic then planar else geographic)⟩,
        ⟨fun _ => true, fun g _ => g, fun _ _ => true, fun _ _ => true⟩⟩
    let g : Geometry (Extended ℚ) := .point (some ⟨.finite 175, .finite 10, none⟩)
    let own : Envelope ℚ := ⟨175, 10, 175, 10, some Crs.wgs84⟩
    let valid : Envelope ℚ := ⟨-222, -90, -132, 90, some Crs.wgs84⟩
    ∃ r s₀, find setting (some area.finite) (.ok (some Crs.wgs84)) true 10 = .ok (some (r, s₀)) ∧
      r.validArea = some valid.finite ∧
      ¬(CutsAway setting r (ofGeometry g (some r.source)) →
        ∀ k : Int, ¬(own.move (360 * k)).Meets valid) := by
  intro crs area geographic planar setting g own valid
  have hne : area.finite.isEmpty = false := Envelope.isEmpty_finite ⟨le_rfl, le_rfl⟩
  have hdiffer : crs.same Crs.wgs84 = false := by decide +kernel
  have hdiffer' : Crs.wgs84.same crs = false := by decide +kernel
  have hvalid : ValidArea.of crs.horizontal (Family.of crs.horizontal) =
      .ok (some valid.finite) := by
    have hmeridian : crs.centralMeridian = -177 := rfl
    have hcentre : (crs.centralMeridian.toScalar : Extended ℚ) = .finite (-177) := by
      rw [hmeridian]
      change Extended.finite ((-177 : Int) / 10 ^ 0 : ℚ) = _
      norm_num
    change Except.ok (some (ValidArea.transverse crs Crs.wgs84)) = _
    simp [ValidArea.transverse, ValidArea.transverseSpan, hcentre, Envelope.finite, valid]
    norm_num
  have hrelation : setting.atlas.find Crs.wgs84 crs = .ok (.direct Crs.wgs84 crs false planar) := by
    have hhorizontal : Crs.wgs84.horizontal = Crs.wgs84 ∧ crs.horizontal = crs := ⟨rfl, rfl⟩
    rw [Atlas.find, hhorizontal.1, hhorizontal.2, hdiffer']
    rfl
  have hfind := @find_of_plain _ _ setting area.finite Crs.wgs84 true 10 _ _ _ _ rfl hne rfl hvalid
    hrelation rfl
  have hok : (area.finite.transform setting.atlas Crs.wgs84).isOk = true := by
    decide +kernel
  cases hbound : area.finite.transform setting.atlas Crs.wgs84 with
  | error failure => simp [hbound, Except.isOk, Except.toBool] at hok
  | ok bound =>
      obtain ⟨image, rfl, -⟩ := exists_eq_finite_of_transform rfl hdiffer hne hbound
      have hown : (ofGeometry g (some Crs.wgs84)).transform setting.atlas Crs.wgs84 =
          .ok own.finite := by
        rw [transform_of_same rfl (by decide)]
        rfl
      obtain ⟨-, hcut, -⟩ := validArea_respects_turns_iff hfind rfl hbound rfl hown [] rfl
      refine ⟨_, _, hfind, rfl, ?_⟩
      -- a turn to the west the point lies in the valid area, where it is it does not
      have hmeets : (own.move (360 * (-1 : Int))).Meets valid := by
        norm_num [meets_iff, own, valid, move, Occupied]
      have hapart : ¬own.Meets valid := by
        norm_num [meets_iff, own, valid, Occupied]
      rw [hcut, aligned_iff]
      intro haligned
      exact haligned rfl hapart _ hmeets

end Rendering

end Antimeridian
