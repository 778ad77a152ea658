import Antimeridian.Proofs.Geometry.Retracing
import Antimeridian.Proofs.Rendering.Shortcut

/-!
# Where the vertices of a rendered geometry come from

What is stitched goes over the vertices of the rendered geometry, up to whole periods and to
closures along the poles, and so does every copy of it. Only a geometry that is moved with heights
on some of its vertices, and not on all, comes out with vertices that are nowhere.
-/

namespace Antimeridian

open Antimeridian.Geometry

namespace Rendering

variable {K : Type} [Field K] [LinearOrder K] [FloorRing K] {radius : K} {south north : Extended K}
  {g : Geometry K} {whole : Geometry (Extended K)}

/-! ## Copies -/

/-- A geometry made of the parts of copies, one for each of some whole periods, all of which go over
the vertices of a geometry. -/
structure MadeOfCopies (radius : K) (south north : Extended K) (g : Geometry K)
    (whole h : Geometry (Extended K)) (js : List Int) : Prop where
  parts_eq : h.parts = js.flatMap fun (k : Int) => (whole.shift (.finite (2 * radius * k))).parts
  retraces : ∀ k ∈ js,
    Retraces radius south north g.vertices (whole.shift (.finite (2 * radius * k))).vertices

theorem MadeOfCopies.retraces_vertices {h : Geometry (Extended K)} {js : List Int}
    (hmade : MadeOfCopies radius south north g whole h js) (hne : js ≠ []) :
    Retraces radius south north g.vertices h.vertices := by
  have hvertices : h.vertices =
      js.flatMap fun (k : Int) => (whole.shift (.finite (2 * radius * k))).vertices := by
    rw [← parts_flatMap_vertices, hmade.parts_eq, List.flatMap_assoc]
    exact List.flatMap_congr fun k _ => parts_flatMap_vertices _
  rw [hvertices]
  exact .of_copies hne hmade.retraces

theorem MadeOfCopies.kept (hwhole : Redraws radius south north g whole) :
    MadeOfCopies radius south north g whole whole [0] where
  parts_eq := by simp [shift_finite_zero]
  retraces := by simpa [shift_finite_zero] using hwhole.retraces

/-- Copies of a geometry without empty parts can always be gathered. -/
theorem exists_gathered_copies (hwhole : Redraws radius south north g whole) (ks : List Int) :
    ∃ h, gathered (ks.map fun (k : Int) => whole.shift (.finite (2 * radius * k))) = .ok h ∧
      MadeOfCopies radius south north g whole h ks := by
  have hoccupied : ∀ copy ∈ ks.map fun (k : Int) => whole.shift (.finite (2 * radius * k)),
      ∀ part ∈ copy.parts, part.isEmpty = false :=
    List.forall_mem_map.mpr fun k _ => (hwhole.shift k).occupied
  have hgatherable : Gatherable (partsAll
      ((ks.map fun (k : Int) => whole.shift (.finite (2 * radius * k))).map some)) := by
    rw [partsAll_map_some hoccupied]
    intro _ part hpart
    obtain ⟨copy, hcopy, hpart⟩ := List.mem_flatMap.mp hpart
    exact hoccupied copy hcopy part hpart
  obtain ⟨h, hh⟩ := exists_gathered_iff.mpr (.inr hgatherable)
  refine ⟨h, hh, ?_, fun k _ => (hwhole.shift k).retraces⟩
  rw [parts_gathered hh hoccupied, List.flatMap_map]

/-! ## Post-processing -/

section Processing

variable [IsStrictOrderedRing K] {setting : Setting (Extended K)} {r : Rendering (Extended K)}
  {cycle : Cycle (Extended K)} {area : Envelope K} {transform : Option (Transform (Extended K))}
  {current : Revision (Extended K)} {west east : Extended K} {ks : List Int}

/-- A geometry without empty members is placed without a failure, by one that goes over its
vertices. -/
theorem exists_placed (setting : Setting (Extended K))
    (transform : Option (Transform (Extended K))) (hr : Repeats r cycle area radius)
    (hg : g.Complete) :
    ∃ current west east,
      placed setting cycle transform g.finite (.finite g.west) (.finite g.east) =
        .ok (current, .finite west, .finite east) ∧
      Redraws radius cycle.south cycle.north g (current.applyTo g.finite) := by
  have hkept : Redraws radius cycle.south cycle.north g
      (Revision.applyTo g.finite .kept) := .refl hg
  simp only [placed, hr.radius_eq]
  split
  · obtain ⟨revision, atPole, hunwrap, hredraws⟩ := exists_redrawn
      setting.overlay.isValidPolygon hr.radius_pos cycle.south cycle.north hg
    obtain ⟨west, east, low, high, hbounds⟩ := exists_bounds_of_redraws hredraws
    simp only [stitch, hr.radius_eq, hunwrap, bind, Except.bind, hbounds, Option.getD_some]
    split
    · exact ⟨_, _, _, rfl, hredraws⟩
    · exact ⟨_, _, _, rfl, hkept⟩
  · exact ⟨_, _, _, rfl, hkept⟩

/-- Processing a geometry comes to replicating what it is placed as, the shortcut included. -/
theorem outcome_postProcess_of_placed (hr : Repeats r cycle area radius) (hne : g.isEmpty = false)
    (hplaced : placed setting cycle transform g.finite (.finite g.west) (.finite g.east) =
      .ok (current, west, east)) (s : State (Extended K)) :
    (r.postProcess setting transform (some g.finite)).outcome s =
      (r.replicate cycle current g.finite west east).outcome s := by
  have hne' : g.finite.isEmpty = false := by rwa [isEmpty_finite]
  rw [outcome_postProcess_eq_atLength hr.cycle_eq hr.radius_eq hr.radius_pos hne,
    outcome_postProcessAtLength hr.cycle_eq hne' (bounds?_finite hne), hplaced]

omit [IsStrictOrderedRing K] in
/-- A geometry with even heights, or one that stays in its place, is replicated by copies that go
over its vertices. -/
theorem exists_madeOfCopies (hr : Repeats r cycle area radius)
    (hwhole : Redraws radius cycle.south cycle.north g (current.applyTo g.finite))
    (hoffsets : visibleOffsets r.area cycle.radius r.cap west east = .ok ks)
    (hcond : (current.applyTo g.finite).HasEvenHeights ∨ ks = [] ∨ ks = [0])
    (s : State (Extended K)) :
    ∃ rev s', (r.replicate cycle current g.finite west east).outcome s = (.ok rev, s') ∧
      MadeOfCopies radius cycle.south cycle.north g (current.applyTo g.finite)
        (rev.applyTo g.finite) (if ks = [] then [0] else ks) := by
  rw [outcome_replicate hoffsets, hr.radius_eq]
  split
  next hstays =>
    have hplaces : (if ks = [] then [0] else ks) = [0] := by
      rcases hstays with rfl | rfl <;> rfl
    rw [hplaces]
    exact ⟨current, s, rfl, .kept hwhole⟩
  next hmoves =>
    obtain ⟨h, hh, hmade⟩ := exists_gathered_copies hwhole ks
    rw [mapM_copyAt_eq_shift (hcond.resolve_right hmoves), if_neg fun hnil => hmoves (.inl hnil)]
    simp only [hh]
    exact ⟨.replaced h, _, rfl, hmade⟩

omit [IsStrictOrderedRing K] in
/-- What goes over the vertices of a geometry has lost none of them. -/
theorem even_of_retraces
    (hwhole : Redraws radius cycle.south cycle.north g (current.applyTo g.finite))
    (hoffsets : visibleOffsets r.area cycle.radius r.cap west east = .ok ks)
    {s s' : State (Extended K)} {rev : Revision (Extended K)}
    (hrev : (r.replicate cycle current g.finite west east).outcome s = (.ok rev, s'))
    (hretraces : Retraces radius cycle.south cycle.north g.vertices
      (rev.applyTo g.finite).vertices) :
    (current.applyTo g.finite).HasEvenHeights ∨ ∀ k ∈ ks, k = 0 := by
  by_contra hnot
  push Not at hnot
  obtain ⟨huneven, k, hk, hzero⟩ := hnot
  have hmoves : ¬(ks = [] ∨ ks = [0]) := by
    rintro (rfl | rfl)
    · contradiction
    · exact hzero (List.mem_singleton.mp hk)
  rw [outcome_replicate hoffsets, if_neg hmoves] at hrev
  cases hcopies : ks.mapM (copyAt cycle.radius (current.applyTo g.finite)) with
  | error failure =>
      rw [hcopies] at hrev
      cases hrev
  | ok copies =>
      rw [hcopies] at hrev
      have hmade : Revision.replaced <$> gathered copies = .ok rev := (Prod.mk.inj hrev).1
      cases hgathered : gathered copies with
      | error failure =>
          rw [hgathered] at hmade
          cases hmade
      | ok result =>
          rw [hgathered] at hmade
          cases hmade
          refine huneven (even_of_copies ?_ hcopies hk hzero hgathered fun v hv hlost => ?_)
          · intro part hpart hempty
            rw [hwhole.occupied part hpart] at hempty
            contradiction
          · -- a vertex that is lost is whole periods away from none
            obtain ⟨w, -, m, hx, -⟩ := hretraces.sound v hv
            rw [hlost] at hx
            cases hx

/-- What post-processing makes of a geometry without empty members goes over its vertices, up to
whole periods and to closures along the poles, exactly if what it is placed as has heights on all of
its vertices or on none, or stays in its place. It is then made of copies each of which goes over
the vertices, too. -/
theorem postProcess_retraces_iff (hr : Repeats r cycle area radius) (hg : g.Complete)
    (setting : Setting (Extended K)) (transform : Option (Transform (Extended K)))
    (s : State (Extended K)) :
    ∃ current west east ks,
      placed setting cycle transform g.finite (.finite g.west) (.finite g.east) =
        .ok (current, .finite west, .finite east) ∧
      visibleOffsets r.area cycle.radius r.cap (.finite west) (.finite east) = .ok ks ∧
      ((∃ rev s', (r.postProcess setting transform (some g.finite)).outcome s = (.ok rev, s') ∧
          Retraces radius cycle.south cycle.north g.vertices (rev.applyTo g.finite).vertices) ↔
        (current.applyTo g.finite).HasEvenHeights ∨ ∀ k ∈ ks, k = 0) ∧
      ((current.applyTo g.finite).HasEvenHeights ∨ (∀ k ∈ ks, k = 0) →
        ∃ rev s', (r.postProcess setting transform (some g.finite)).outcome s = (.ok rev, s') ∧
          MadeOfCopies radius cycle.south cycle.north g (current.applyTo g.finite)
            (rev.applyTo g.finite) (if ks = [] then [0] else ks)) := by
  have hne : g.isEmpty = false := isEmpty_of_parts_ne_nil hg.parts_ne_nil hg.occupied
  obtain ⟨current, west, east, hplaced, hwhole⟩ := exists_placed setting transform hr hg
  obtain ⟨ks, hoffsets, hshows⟩ := hr.exists_visibleOffsets west east
  have hmade (hcond : (current.applyTo g.finite).HasEvenHeights ∨ ∀ k ∈ ks, k = 0) :=
    exists_madeOfCopies hr hwhole hoffsets (hcond.imp_right hshows.eq_nil_or_eq_zero) s
  refine ⟨current, west, east, ks, hplaced, hoffsets, ?_⟩
  rw [outcome_postProcess_of_placed hr hne hplaced]
  refine ⟨⟨?_, fun hcond => ?_⟩, hmade⟩
  · rintro ⟨rev, s', hrev, hretraces⟩
    exact even_of_retraces hwhole hoffsets hrev hretraces
  · obtain ⟨rev, s', hrev, hcopies⟩ := hmade hcond
    refine ⟨rev, s', hrev, hcopies.retraces_vertices ?_⟩
    split
    next => exact List.cons_ne_nil _ _
    next hks => exact hks

end Processing

/-- A point with a height and a line without, a turn away from the area: the line is lost. -/
theorem uneven_not_retraced :
    let area : Envelope ℚ := ⟨-10, -10, 10, 10, none⟩
    let crs := Crs.ofFrame Crs.Registry.wgs84
    let same : Transform (Extended ℚ) :=
      .direct crs crs true ⟨fun x y => (x, y), fun _ _ => false, true⟩
    let setting : Setting (Extended ℚ) :=
      ⟨⟨fun _ _ => none⟩, ⟨fun _ => true, fun g _ => g, fun _ _ => true, fun _ _ => true⟩⟩
    let r := geographic area.finite crs crs 10 same
    let g : Geometry ℚ := .collection [.point (some ⟨355, 1, some 2⟩),
      .line [⟨355, 0, none⟩, ⟨356, 1, none⟩]]
    ¬∃ rev s', (r.postProcess setting none (some g.finite)).outcome r.start = (.ok rev, s') ∧
      Retraces 180 geographicCycle.south geographicCycle.north g.vertices
        (rev.applyTo g.finite).vertices := by
  intro area crs same setting r g
  have hr : Repeats r geographicCycle area 180 := repeats_geographic (by norm_num)
  have hg : g.Complete := by
    refine .collection (by simp) ?_
    simp only [List.forall_mem_cons]
    exact ⟨.point _, .line (by simp), by simp⟩
  have hwest : g.west = 355 := by decide +kernel
  have heast : g.east = 356 := by decide +kernel
  obtain ⟨current, west, east, ks, hplaced, hoffsets, hiff, -⟩ :=
    postProcess_retraces_iff hr hg setting none r.start
  obtain ⟨rfl, rfl, rfl⟩ : .kept = current ∧ g.west = west ∧ g.east = east := by
    have hkept : placed setting geographicCycle none g.finite (.finite g.west) (.finite g.east) =
      .ok (.kept, .finite g.west, .finite g.east) := rfl
    simpa [hkept] using hplaced
  rw [hiff]
  rintro (heven | hstays)
  · have huneven := hasEvenHeights_finite.mp heven
    simp [g, HasEvenHeights, vertices] at huneven
  · obtain ⟨js, hjs, hshows⟩ := hr.exists_visibleOffsets g.west g.east
    obtain rfl := Except.ok.inj (hjs.symm.trans hoffsets)
    have hzero := hstays (-1) ((hshows.mem_iff (-1)).mpr
      ⟨by decide, by norm_num [area, heast], by norm_num [area, hwest]⟩)
    contradiction

end Rendering

end Antimeridian
