import Antimeridian.Proofs.Crs.Horizontal
import Antimeridian.Proofs.Envelope.Exact
import Antimeridian.Proofs.Geometry.Gathering
import Antimeridian.Rendering.Basic

/-!
# Requests that are found

What a request consists of is settled when it is found. It makes copies around a finite area when
its horizontal axis repeats with a period that is a positive number. Those of geographic systems do,
by whole turns.
-/

namespace Antimeridian

namespace Rendering

/-- A request to render in a finite area of a system that repeats. -/
structure Repeats {K : Type} [Zero K] [LT K] (r : Rendering (Extended K))
    (cycle : Cycle (Extended K)) (area : Envelope K) (radius : K) : Prop where
  area_eq : r.area = area.finite
  cycle_eq : r.cycle = some cycle
  radius_eq : cycle.radius = .finite radius
  radius_pos : 0 < radius
  cap_nonneg : 0 ≤ r.cap

section Geographic

variable {α : Type} [Scalar α]

/-- The request to render data of a geographic system in an area of another one, or of the same. -/
def geographic (area : Envelope α) (source target : Crs) (cap : Int) (relation : Transform α) :
    Rendering α where
  area := area
  source := source
  target := target
  base := target.horizontal
  validArea := none
  family := .geographic
  cap := cap
  relation := relation
  cycle := some geographicCycle

/-- The request that makes copies around an area of a geographic system. -/
theorem wrapping_geographic {setting : Setting α} {area : Envelope α} {source crs : Crs} {cap : Int}
    (hcrs : area.crs = some crs) (hgeographic : crs.isGeographic = true)
    (hne : area.isEmpty = false) (hcap : 0 ≤ cap) :
    wrapping setting (.ok source) none (some area) .geographic cap = do
      let relation ← setting.atlas.find source.horizontal crs.horizontal
      return geographic area source.horizontal crs.horizontal cap relation := by
  have htarget : crs.horizontal.isGeographic = true := by
    rwa [Crs.isGeographic_horizontal]
  have hcheck : checkArea (some area) = .ok (area, crs) := by
    simp [checkArea, hcrs, hne]
  -- a geographic system is its own base
  have hbase : crs.horizontal.base? = some crs.horizontal.horizontal := if_pos htarget
  have hnonneg : ¬cap < 0 := by omega
  have hplain : plain setting (.ok source) none (some area) .geographic = do
      let relation ← setting.atlas.find source.horizontal crs.horizontal
      let r := geographic area source.horizontal crs.horizontal defaultCap relation
      return { r with cycle := none } := by
    rw [plain, hcheck]
    simp only [bind, Except.bind, pure, Except.pure, hbase]
    rfl
  rw [wrapping, hplain]
  cases setting.atlas.find source.horizontal crs.horizontal with
  | error failure => rfl
  | ok relation =>
      simp only [bind, Except.bind, pure, Except.pure, geographic, htarget, if_neg hnonneg]
      rfl

/-- The request that is found for a geographic system when copies are wanted. -/
theorem find_geographic {setting : Setting α} {area : Envelope α} {source crs : Crs} {cap : Int}
    (hcrs : area.crs = some crs) (hgeographic : crs.isGeographic = true)
    (hne : area.isEmpty = false) (hcap : 0 < cap) :
    find setting (some area) (.ok (some source)) true cap = do
      let relation ← setting.atlas.find source.horizontal crs.horizontal
      let r := geographic area source.horizontal crs.horizontal cap relation
      return some (r, r.start) := by
  have htarget : crs.horizontal.isGeographic = true := by
    rwa [Crs.isGeographic_horizontal]
  -- a geographic system has no valid area
  have hfamily : Family.of crs.horizontal = .geographic := if_pos htarget
  unfold find
  simp only [hcrs, Option.bind_some, hfamily, ValidArea.of, Family.isPeriodic, hcap,
    decide_true, Bool.and_self]
  change (do
    let r ← wrapping setting (.ok source) none (some area) .geographic cap
    return some (r, r.start)) = _
  rw [wrapping_geographic hcrs hgeographic hne hcap.le]
  cases setting.atlas.find source.horizontal crs.horizontal <;> rfl

end Geographic

section Found

variable {α : Type} [Scalar α] {setting : Setting α} {area : Envelope α} {source : Crs}
  {wrap : Bool} {cap : Int} {r : Rendering α} {s : State α}

/-- What a request that is found consists of, and the state its work starts in. -/
structure Found (setting : Setting α) (area : Envelope α) (source : Crs) (r : Rendering α)
    (s : State α) : Prop where
  area_eq : r.area = area
  isEmpty_eq : area.isEmpty = false
  crs_eq : ∃ crs, area.crs = some crs ∧ r.target = crs.horizontal
  source_eq : r.source = source.horizontal
  base_eq : r.target.base? = some r.base
  validArea_eq : ValidArea.of r.target (Family.of r.target) = .ok r.validArea
  relation_eq : setting.atlas.find r.source r.target = .ok r.relation
  start_eq : s = { r.start with acrossDateline := (Family.of r.target).isPeriodic }
  cycle_of_aperiodic : (Family.of r.target).isPeriodic = false → r.cycle = none
  cycle_eq : ∀ cycle ∈ r.cycle, r.target.isGeographic = false →
    measuredCycle setting { r with cap := defaultCap, cycle := none } = .ok cycle

/-- What a request without copies consists of. -/
theorem plain_eq {validArea : Option (Envelope α)} {family : Family}
    (hok : plain setting (.ok source) validArea (some area) family = .ok r) :
    ∃ crs base relation, area.crs = some crs ∧ area.isEmpty = false ∧
      crs.horizontal.base? = some base ∧
      setting.atlas.find source.horizontal crs.horizontal = .ok relation ∧
      r = ⟨area, source.horizontal, crs.horizontal, base, validArea, family, defaultCap, relation,
        none⟩ := by
  obtain ⟨⟨area', crs⟩, hcheck, hok⟩ := bind_eq_ok_iff.mp hok
  cases hcrs : area.crs with
  | none => simp [checkArea, hcrs] at hcheck
  | some own =>
      cases hempty : area.isEmpty with
      | true => simp [checkArea, hcrs, hempty] at hcheck
      | false =>
          simp only [checkArea, hcrs, hempty, Bool.false_eq_true, if_false, Except.ok.injEq,
            Prod.mk.injEq] at hcheck
          obtain ⟨rfl, rfl⟩ := hcheck
          cases hbase : own.horizontal.base? with
          | none => simp [hbase, bind, Except.bind] at hok
          | some base =>
              simp only [bind, Except.bind, hbase] at hok
              obtain ⟨relation, hrelation, hok⟩ := bind_eq_ok_iff.mp hok
              cases hok
              exact ⟨own, base, relation, rfl, rfl, hbase, hrelation, rfl⟩

/-- A request with copies is one without them and a cycle. -/
theorem wrapping_eq {source : Except (Failure α) Crs} {validArea : Option (Envelope α)}
    {area : Option (Envelope α)} {family : Family}
    (hok : wrapping setting source validArea area family cap = .ok r) :
    ∃ plainly cycle, plain setting source validArea area family = .ok plainly ∧ 0 ≤ cap ∧
      (if plainly.target.isGeographic then cycle = geographicCycle
        else measuredCycle setting plainly = .ok cycle) ∧
      r = { plainly with cap, cycle := some cycle } := by
  obtain ⟨plainly, hplain, hok⟩ := bind_eq_ok_iff.mp hok
  by_cases hcap : cap < 0
  · rw [if_pos hcap] at hok
    cases hok
  · rw [if_neg hcap] at hok
    have hnonneg := not_lt.mp hcap
    by_cases hgeographic : plainly.target.isGeographic = true
    · rw [if_pos hgeographic] at hok
      cases hok
      exact ⟨plainly, geographicCycle, hplain, hnonneg, by rw [if_pos hgeographic], rfl⟩
    · rw [if_neg hgeographic] at hok
      obtain ⟨cycle, hcycle, hok⟩ := bind_eq_ok_iff.mp hok
      cases hok
      exact ⟨plainly, cycle, hplain, hnonneg, by rwa [if_neg hgeographic], rfl⟩

theorem found_of_find (hfind : find setting (some area) (.ok (some source)) wrap cap =
    .ok (some (r, s))) : Found setting area source r s := by
  cases hcrs : area.crs with
  | none => simp [find, hcrs] at hfind
  | some crs =>
      have hcrs' : (some area).bind (·.crs) = some crs := hcrs
      unfold find at hfind
      simp only [hcrs', Except.bind, Crs.required] at hfind
      obtain ⟨validArea, hvalid, hfind⟩ := bind_eq_ok_iff.mp hfind
      split at hfind
      next hwrap =>
        simp only [Bool.and_eq_true, decide_eq_true_eq] at hwrap
        obtain ⟨wrapped, hwrapped, hfind⟩ := bind_eq_ok_iff.mp hfind
        cases hfind
        obtain ⟨plainly, cycle, hplain, -, hcycle, rfl⟩ := wrapping_eq hwrapped
        obtain ⟨own, base, relation, hown, hne, hbase, hrelation, rfl⟩ := plain_eq hplain
        obtain rfl := Option.some.inj (hcrs.symm.trans hown)
        refine ⟨rfl, hne, ⟨crs, hcrs, rfl⟩, rfl, hbase, hvalid, hrelation, ?_, ?_, ?_⟩
        · simp [start, makesCopies, hwrap.1.1]
        · intro haperiodic
          simp [hwrap.1.1] at haperiodic
        · rintro _ ⟨⟩ hprojected
          rwa [if_neg (Bool.eq_false_iff.mp hprojected)] at hcycle
      next =>
        obtain ⟨plainly, hplain, hfind⟩ := bind_eq_ok_iff.mp hfind
        cases hfind
        obtain ⟨own, base, relation, hown, hne, hbase, hrelation, rfl⟩ := plain_eq hplain
        obtain rfl := Option.some.inj (hcrs.symm.trans hown)
        refine ⟨rfl, hne, ⟨crs, hcrs, rfl⟩, rfl, hbase, hvalid, hrelation, ?_, fun _ => rfl, ?_⟩
        · simp [start, makesCopies]
        · simp

theorem plain_eq_ok {crs base : Crs} {relation : Transform α} (hcrs : area.crs = some crs)
    (hne : area.isEmpty = false) (hbase : crs.horizontal.base? = some base)
    (hrelation : setting.atlas.find source.horizontal crs.horizontal = .ok relation)
    (validArea : Option (Envelope α)) (family : Family) :
    plain setting (.ok source) validArea (some area) family =
      .ok ⟨area, source.horizontal, crs.horizontal, base, validArea, family, defaultCap, relation,
        none⟩ := by
  have hcheck : checkArea (some area) = .ok (area, crs) := by
    simp [checkArea, hcrs, hne]
  rw [plain, hcheck]
  simp only [bind, Except.bind, hbase, hrelation]
  rfl

/-- Where no copies are wanted, or none can be made, a request is found without a cycle. -/
theorem find_of_plain {crs base : Crs} {validArea : Option (Envelope α)} {relation : Transform α}
    (hcrs : area.crs = some crs) (hne : area.isEmpty = false)
    (hbase : crs.horizontal.base? = some base)
    (hvalid : ValidArea.of crs.horizontal (Family.of crs.horizontal) = .ok validArea)
    (hrelation : setting.atlas.find source.horizontal crs.horizontal = .ok relation)
    (hplain : ((Family.of crs.horizontal).isPeriodic && wrap && decide (0 < cap)) = false) :
    let r : Rendering α := ⟨area, source.horizontal, crs.horizontal, base, validArea,
      Family.of crs.horizontal, defaultCap, relation, none⟩
    find setting (some area) (.ok (some source)) wrap cap =
      .ok (some (r, { r.start with acrossDateline := (Family.of crs.horizontal).isPeriodic })) := by
  intro r
  have hcrs' : (some area).bind (·.crs) = some crs := hcrs
  have hr : plain setting (.ok source) validArea (some area) (Family.of crs.horizontal) =
      .ok r := plain_eq_ok hcrs hne hbase hrelation _ _
  unfold find
  simp only [hcrs', Except.bind, Crs.required, hvalid, bind, hplain, hr]
  rfl

/-- Where copies are wanted along the axis of a projected system, a request is found with the cycle
that is measured for it. -/
theorem find_of_wrapping {crs base : Crs} {validArea : Option (Envelope α)}
    {relation : Transform α} {cycle : Cycle α} (hcrs : area.crs = some crs)
    (hne : area.isEmpty = false) (hbase : crs.horizontal.base? = some base)
    (hvalid : ValidArea.of crs.horizontal (Family.of crs.horizontal) = .ok validArea)
    (hrelation : setting.atlas.find source.horizontal crs.horizontal = .ok relation)
    (hperiodic : (Family.of crs.horizontal).isPeriodic = true) (hcap : 0 < cap)
    (hprojected : crs.isGeographic = false)
    (hcycle : measuredCycle setting ⟨area, source.horizontal, crs.horizontal, base, validArea,
      Family.of crs.horizontal, defaultCap, relation, none⟩ = .ok cycle) :
    let r : Rendering α := ⟨area, source.horizontal, crs.horizontal, base, validArea,
      Family.of crs.horizontal, cap, relation, some cycle⟩
    find setting (some area) (.ok (some source)) true cap = .ok (some (r, r.start)) := by
  intro r
  have hcrs' : (some area).bind (·.crs) = some crs := hcrs
  have hr : wrapping setting (.ok source) validArea (some area) (Family.of crs.horizontal) cap =
      .ok r := by
    rw [wrapping, plain_eq_ok hcrs hne hbase hrelation]
    simp only [bind, Except.bind, pure, Except.pure, Crs.isGeographic_horizontal, hprojected,
      hcycle, hcap.not_gt, Bool.false_eq_true, if_false]
    rfl
  unfold find
  simp only [hcrs', Except.bind, Crs.required, hvalid, bind, hperiodic, hcap, hr, decide_true,
    Bool.and_self]
  rfl

end Found

/-- No request is found for an area without points. -/
theorem occupied_of_find {K : Type} [Field K] [LinearOrder K] [FloorRing K]
    {setting : Setting (Extended K)} {area : Envelope K} {source : Crs} {cap : Int}
    {r : Rendering (Extended K)} {s : State (Extended K)} {wrap : Bool}
    (hfind : find setting (some area.finite) (.ok (some source)) wrap cap = .ok (some (r, s))) :
    area.Occupied :=
  (Envelope.isEmpty_finite_iff area).mp (found_of_find hfind).isEmpty_eq

theorem repeats_geographic {K : Type} [Field K] [LinearOrder K] [FloorRing K]
    [IsStrictOrderedRing K] {area : Envelope K} {source target : Crs} {cap : Int}
    {relation : Transform (Extended K)} (hcap : 0 ≤ cap) :
    Repeats (geographic area.finite source target cap relation) geographicCycle area 180 where
  area_eq := rfl
  cycle_eq := rfl
  radius_eq := Extended.ofNat_eq 180
  radius_pos := by norm_num
  cap_nonneg := hcap

end Rendering

end Antimeridian
