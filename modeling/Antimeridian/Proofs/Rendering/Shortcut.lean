import Antimeridian.Proofs.Rendering.Replication

/-!
# The shortcut for geometries in view

A geometry that lies in the rendering area, is narrower than half a period and is seen in no other
place is handed back at once. Nothing shows that this is a shortcut: a geometry as narrow is not
stitched, and the only place to which it could be copied is its own.
-/

namespace Antimeridian.Rendering

open Antimeridian.Geometry

section Placing

variable {α : Type} [Scalar α]

/-- A rendered geometry, stitched where reprojecting may have torn it, and the range of its
abscissas. -/
def placed (setting : Setting α) (cycle : Cycle α) (transform : Option (Transform α))
    (g : Geometry α) (minx maxx : α) : Except (Failure α) (Revision α × α × α) :=
  let width := maxx - minx
  let reprojected := (transform.map (!·.isIdentity)).getD false
  if reprojected && cycle.radius < width && width < 2 * cycle.radius then
    stitch setting cycle g minx maxx
  else .ok (.kept, minx, maxx)

/-- What becomes of a geometry in the rendering system where the shortcut is never taken. -/
def postProcessAtLength (setting : Setting α) (r : Rendering α) (transform : Option (Transform α))
    (g : Option (Geometry α)) : Action α (Revision α) := do
  let g ← checkGeometry g
  match r.cycle, g.bounds? with
  | some cycle, some (minx, _, maxx, _) =>
    let (current, west, east) ← placed setting cycle transform g minx maxx
    r.replicate cycle current g west east
  | _, _ => return .kept

variable {setting : Setting α} {r : Rendering α} {cycle : Cycle α}
  {transform : Option (Transform α)} {g : Geometry α} {minx miny maxx maxy : α} {s : State α}

theorem outcome_postProcessAtLength (hcycle : r.cycle = some cycle) (hne : g.isEmpty = false)
    (hbounds : g.bounds? = some (minx, miny, maxx, maxy)) :
    (r.postProcessAtLength setting transform (some g)).outcome s =
      match placed setting cycle transform g minx maxx with
      | .error failure => (.error failure, s)
      | .ok (current, west, east) => (r.replicate cycle current g west east).outcome s := by
  unfold postProcessAtLength
  simp only [Action.outcome_bind, Action.outcome_lift, checkGeometry_some hne, hcycle, hbounds]
  cases placed setting cycle transform g minx maxx <;> rfl

theorem outcome_postProcess_of_bounds (hcycle : r.cycle = some cycle) (hne : g.isEmpty = false)
    (hbounds : g.bounds? = some (minx, miny, maxx, maxy)) :
    (r.postProcess setting transform (some g)).outcome s =
      if visibleOnce r.area cycle.radius minx maxx then (.ok .kept, s)
      else (r.postProcessAtLength setting transform (some g)).outcome s := by
  rw [outcome_postProcessAtLength hcycle hne hbounds]
  unfold postProcess placed
  simp only [Action.outcome_bind, Action.outcome_lift, checkGeometry_some hne, hcycle, hbounds]
  split
  · rfl
  · split
    · rw [Action.outcome_bind, Action.outcome_lift]
      cases stitch setting cycle g minx maxx <;> rfl
    · rfl

end Placing

variable {K : Type} [Field K] [LinearOrder K] [FloorRing K] [IsStrictOrderedRing K]
  {setting : Setting (Extended K)} {r : Rendering (Extended K)} {cycle : Cycle (Extended K)}
  {radius west east : K} {transform : Option (Transform (Extended K))} {g : Geometry K}

omit [IsStrictOrderedRing K] in
/-- What fits the shortcut is too narrow to be stitched. -/
theorem placed_of_visibleOnce (hradius : cycle.radius = .finite radius)
    (honce : visibleOnce r.area cycle.radius (.finite west) (.finite east) = true) :
    placed setting cycle transform g.finite (.finite west) (.finite east) =
      .ok (.kept, .finite west, .finite east) := by
  simp only [visibleOnce, hradius, Extended.finite_sub, Extended.finite_lt_finite,
    Bool.and_eq_true, decide_eq_true_eq] at honce
  have hnarrow : ¬radius < east - west := honce.1.1.1.1.not_gt
  simp [placed, hradius, hnarrow]

/-- What fits the shortcut is copied to no other place. -/
theorem outcome_replicate_of_visibleOnce (hradius : cycle.radius = .finite radius)
    (hpos : 0 < radius)
    (honce : visibleOnce r.area cycle.radius (.finite west) (.finite east) = true)
    (g : Geometry (Extended K)) (s : State (Extended K)) :
    (r.replicate cycle .kept g (.finite west) (.finite east)).outcome s = (.ok .kept, s) := by
  rw [hradius] at honce
  obtain ⟨low, high, hlow, hhigh⟩ := exists_edges_of_visibleOnce honce
  let area : Envelope K := ⟨low, 0, high, 0, none⟩
  have honce' : visibleOnce area.finite (.finite radius) (.finite west) (.finite east) = true := by
    unfold visibleOnce at honce ⊢
    rwa [hlow, hhigh] at honce
  obtain ⟨ks, hoffsets, hshows⟩ : ∃ ks, visibleOffsets area.finite (.finite radius) r.cap
      (.finite west) (.finite east) = .ok ks ∧ Shows area radius r.cap west east ks :=
    exists_visibleOffsets hpos
  rw [visibleOffsets_congr hlow.symm hhigh.symm, ← hradius] at hoffsets
  have hstays := hshows.eq_nil_or_eq_zero (hshows.eq_zero_of_visibleOnce hpos honce')
  rw [outcome_replicate hoffsets, if_pos hstays]

theorem outcome_postProcessAtLength_of_visibleOnce (hcycle : r.cycle = some cycle)
    (hradius : cycle.radius = .finite radius) (hpos : 0 < radius) (hne : g.isEmpty = false)
    (honce : visibleOnce r.area cycle.radius (.finite g.west) (.finite g.east) = true)
    (s : State (Extended K)) :
    (r.postProcessAtLength setting transform (some g.finite)).outcome s = (.ok .kept, s) := by
  have hne' : g.finite.isEmpty = false := by rwa [isEmpty_finite]
  rw [outcome_postProcessAtLength hcycle hne' (bounds?_finite hne),
    placed_of_visibleOnce hradius honce]
  exact outcome_replicate_of_visibleOnce hradius hpos honce _ s

theorem outcome_postProcess_eq_atLength (hcycle : r.cycle = some cycle)
    (hradius : cycle.radius = .finite radius) (hpos : 0 < radius) (hne : g.isEmpty = false)
    (s : State (Extended K)) :
    (r.postProcess setting transform (some g.finite)).outcome s =
      (r.postProcessAtLength setting transform (some g.finite)).outcome s := by
  have hne' : g.finite.isEmpty = false := by rwa [isEmpty_finite]
  rw [outcome_postProcess_of_bounds hcycle hne' (bounds?_finite hne)]
  split
  next honce =>
    exact (outcome_postProcessAtLength_of_visibleOnce hcycle hradius hpos hne honce s).symm
  next => rfl

/-- The shortcut makes no difference to any geometry; where it is taken, the geometry itself comes
out at length, too, and nothing is counted. -/
theorem shortcut_unobservable (setting : Setting (Extended K))
    (transform : Option (Transform (Extended K))) (hcycle : r.cycle = some cycle)
    (hradius : cycle.radius = .finite radius) (hpos : 0 < radius) (hne : g.isEmpty = false)
    (s : State (Extended K)) :
    (r.postProcess setting transform (some g.finite)).outcome s =
        (r.postProcessAtLength setting transform (some g.finite)).outcome s ∧
      (visibleOnce r.area cycle.radius (.finite g.west) (.finite g.east) = true →
        (r.postProcessAtLength setting transform (some g.finite)).outcome s = (.ok .kept, s)) :=
  ⟨outcome_postProcess_eq_atLength hcycle hradius hpos hne s, fun honce =>
    outcome_postProcessAtLength_of_visibleOnce hcycle hradius hpos hne honce s⟩

/-- A line along the western edge of an area has no place at which it strictly overlaps the area,
and stays itself all the same. -/
theorem line_on_edge_kept :
    let area : Envelope ℚ := ⟨-10, -20, 340, 20, none⟩
    let crs := Crs.ofFrame Crs.Registry.wgs84
    let t : Transform (Extended ℚ) := .direct (Crs.ofFrame Crs.Registry.europe1989) crs false
      ⟨fun x y => (x, y), fun _ _ => false, true⟩
    let setting : Setting (Extended ℚ) :=
      ⟨⟨fun _ _ => none⟩, ⟨fun _ => true, fun g _ => g, fun _ _ => true, fun _ _ => true⟩⟩
    let r := geographic area.finite (Crs.ofFrame Crs.Registry.europe1989) crs 10 t
    let g : Geometry ℚ := .line [⟨-10, 0, none⟩, ⟨-10, 5, none⟩]
    visibleOffsets r.area (.finite 180) 10 (.finite g.west) (.finite g.east) = .ok [] ∧
      (r.postProcessAtLength setting (some t) (some g.finite)).outcome r.start =
        (.ok .kept, r.start) ∧
      (r.postProcess setting (some t) (some g.finite)).outcome r.start = (.ok .kept, r.start) := by
  intro area crs t setting r g
  have hwest : g.west = -10 := by decide +kernel
  have heast : g.east = -10 := by decide +kernel
  have hr : Repeats r geographicCycle area 180 := repeats_geographic (by norm_num)
  have honce : visibleOnce r.area geographicCycle.radius (.finite g.west) (.finite g.east) =
      true := by
    rw [hr.radius_eq, hwest, heast]
    simp only [visibleOnce, r, area, geographic, Envelope.finite_minx, Envelope.finite_maxx,
      Extended.ofNat_eq, Extended.finite_sub, Extended.finite_mul, Extended.finite_add]
    norm_num
  obtain ⟨hsame, hkept⟩ := shortcut_unobservable (g := g) setting (some t) hr.cycle_eq hr.radius_eq
    hr.radius_pos rfl r.start
  refine ⟨?_, hkept honce, hsame.trans (hkept honce)⟩
  obtain ⟨ks, hoffsets, hshows⟩ := hr.exists_visibleOffsets g.west g.east
  have hnone : ks = [] := by
    refine List.eq_nil_iff_forall_not_mem.mpr fun k hk => ?_
    obtain ⟨-, hlow, hhigh⟩ := (hshows.mem_iff k).mp hk
    simp only [area, hwest, heast] at hlow hhigh
    have hlow' : (0 : ℚ) < k := by linarith
    have hhigh' : (k : ℚ) < 1 := by linarith
    norm_cast at hlow' hhigh'
    omega
  rwa [hnone, hr.radius_eq] at hoffsets

end Antimeridian.Rendering
