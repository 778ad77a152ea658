import Antimeridian.Proofs.Geometry.Folding
import Antimeridian.Proofs.Rendering.Replication

/-!
# Repairing tears

A transform onto a periodic axis folds what it is given. A line, or a polygon without holes, that is
at most half a period wide and never steps that far is put together again: where folding tore it,
the parts lie more than half a period but less than a whole one apart, which is what stitching looks
for, and where it did not, nothing is stitched. Either way its copies are made from one place.
-/

namespace Antimeridian.Rendering

open Antimeridian.Geometry

variable {K : Type} [Field K] [LinearOrder K] [FloorRing K] [IsStrictOrderedRing K]
  {setting : Setting (Extended K)} {r : Rendering (Extended K)} {cycle : Cycle (Extended K)}
  {area : Envelope K} {radius : K} {window : Set K} {fold : Vertex K → Vertex K}
  {t : Transform (Extended K)} {g : Geometry K}

omit [FloorRing K] in
/-- Half-open windows leave no room for a whole period. -/
theorem width_fold_lt (hfold : Folds radius window fold) (hne : g.isEmpty = false) :
    (g.map fold).east - (g.map fold).west < 2 * radius := by
  have hne' : (g.map fold).isEmpty = false := by rwa [isEmpty_map]
  obtain ⟨v, hv, hwest⟩ := exists_west hne'
  obtain ⟨w, hw, heast⟩ := exists_east hne'
  rw [outline_map] at hv hw
  obtain ⟨v, -, rfl⟩ := List.mem_map.mp hv
  obtain ⟨w, -, rfl⟩ := List.mem_map.mp hw
  rw [← hwest, ← heast]
  exact (le_abs_self _).trans_lt (hfold.abs_sub_lt v w)

omit [LinearOrder K] [FloorRing K] [IsStrictOrderedRing K] in
/-- Where folding moves all vertices alike, it moves the geometry as a whole. -/
theorem map_fold_of_moved (hg : g.Undivided) (hlevel : ∀ v, (fold v).y = v.y)
    (hflat : ∀ v ∈ g.vertices, (fold v).z = none) {dx : K}
    (hmoved : ∀ v ∈ g.outline, (fold v).x = v.x + dx) :
    g.map fold = g.map (Vertex.settle dx) := by
  refine map_congr fun v hv => ?_
  have hx := hmoved v (hg.vertices_eq ▸ hv)
  have hy := hlevel v
  have hz := hflat v hv
  cases hfolded : fold v with
  | mk x y z =>
      rw [hfolded] at hx hy hz
      rw [Vertex.settle, ← hx, ← hy]
      exact congrArg (Vertex.mk x y) hz

omit [FloorRing K] in
/-- What is folded into half a period was moved as a whole. -/
theorem map_fold_of_narrow (hfold : Folds radius window fold) (hg : g.Undivided)
    (hsteady : Steady radius g.outline) (hflat : ∀ v ∈ g.vertices, (fold v).z = none)
    (hnarrow : (g.map fold).east - (g.map fold).west ≤ radius) :
    g.map fold = g.map (Vertex.settle (drift fold g.outline)) := by
  have hmem {v : Vertex K} (hv : v ∈ g.outline) : fold v ∈ (g.map fold).outline := by
    rw [outline_map]
    exact List.mem_map_of_mem hv
  exact map_fold_of_moved hg hfold.level hflat <| hfold.eq_add_drift hsteady fun v hv w hw =>
    (abs_sub_le_width (hmem hv) (hmem hw)).trans hnarrow

omit [IsStrictOrderedRing K] in
/-- Stitching keeps what unwrapping makes of a geometry if that is at most half a period wide, or
closed along a pole. -/
theorem stitch_of_unwrap (hr : Repeats r cycle area radius) {u : Geometry K}
    {current : Revision (Extended K)} {atPole : Bool}
    (hunwrap : Unwrap.geometry setting.overlay.isValidPolygon (.finite radius)
      (some (cycle.south, cycle.north)) g.finite = .ok (current, atPole))
    (hcurrent : current.applyTo g.finite = u.finite) (hne : u.isEmpty = false)
    (minx maxx : Extended K) :
    stitch setting cycle g.finite minx maxx =
      .ok (if u.east - u.west ≤ radius ∨ atPole = true then
        (current, .finite u.west, .finite u.east) else (.kept, minx, maxx)) := by
  rw [stitch, hr.radius_eq, hunwrap]
  simp only [bind, Except.bind, hcurrent, bounds?_finite hne, Option.getD_some,
    Extended.finite_sub, Extended.finite_le_finite, Bool.or_eq_true, decide_eq_true_eq]
  split <;> rfl

/-- Stitching takes a folded geometry to its own shape, which is narrow. -/
theorem stitch_fold (hr : Repeats r cycle area radius) (hfold : Folds radius window fold)
    (hg : g.Undivided) (hsteady : Steady radius g.outline) (hnarrow : g.east - g.west ≤ radius)
    (minx maxx : Extended K) :
    stitch setting cycle (g.map fold).finite minx maxx =
      .ok (.replaced (g.map (Vertex.settle (drift fold g.outline))).finite,
        .finite (g.west + drift fold g.outline), .finite (g.east + drift fold g.outline)) := by
  have hne : (g.map (Vertex.settle (drift fold g.outline))).isEmpty = false := by
    rw [isEmpty_map, hg.isEmpty_eq]
  have hwidth : g.east + drift fold g.outline - (g.west + drift fold g.outline) ≤ radius := by
    linarith
  rw [stitch_of_unwrap hr (hfold.unwrap_undivided hg hsteady _ _) rfl hne,
    west_map hg.isEmpty_eq fun _ _ => rfl, east_map hg.isEmpty_eq fun _ _ => rfl,
    if_pos (.inl hwidth)]

omit [IsStrictOrderedRing K] in
/-- A geometry that is wider than half a period, but not as wide as a period, goes through stitching
where it has been reprojected. -/
theorem outcome_postProcess_of_torn (hr : Repeats r cycle area radius) (hne : g.isEmpty = false)
    (ht : t.isIdentity = false) (hlow : radius < g.east - g.west)
    (hhigh : g.east - g.west < 2 * radius) (s : State (Extended K)) :
    (r.postProcess setting (some t) (some g.finite)).outcome s =
      match stitch setting cycle g.finite (.finite g.west) (.finite g.east) with
      | .error failure => (.error failure, s)
      | .ok (current, west, east) => (r.replicate cycle current g.finite west east).outcome s := by
  have honce : ¬visibleOnce area.finite (.finite radius) (.finite g.west) (.finite g.east) =
      true := by
    simp only [visibleOnce, Extended.finite_sub, Extended.finite_lt_finite, Bool.and_eq_true,
      decide_eq_true_eq]
    exact fun hall => hlow.not_gt hall.1.1.1.1
  exact (outcome_postProcess hr hne s).trans <|
    (if_neg honce).trans (if_pos ⟨⟨t, rfl, ht⟩, hlow, hhigh⟩)

/-- A folded geometry comes to the copies of its own shape, whether it was torn or not. -/
theorem exists_outcome_fold (setting : Setting (Extended K)) (hr : Repeats r cycle area radius)
    (hfold : Folds radius window fold) (hg : g.Undivided) (hsteady : Steady radius g.outline)
    (hnarrow : g.east - g.west ≤ radius) (hflat : ∀ v ∈ g.vertices, (fold v).z = none)
    (ht : t.isIdentity = false) :
    ∃ current, Revision.applyTo (g.map fold).finite current =
        (g.map (Vertex.settle (drift fold g.outline))).finite ∧
      ∀ s, (r.postProcess setting (some t) (some (g.map fold).finite)).outcome s =
        (r.replicate cycle current (g.map fold).finite (.finite (g.west + drift fold g.outline))
          (.finite (g.east + drift fold g.outline))).outcome s := by
  have hne : (g.map fold).isEmpty = false := by rw [isEmpty_map, hg.isEmpty_eq]
  rcases le_or_gt ((g.map fold).east - (g.map fold).west) radius with hwhole | htorn
  · -- not torn: folding has already moved it as a whole
    have hmoved := map_fold_of_narrow hfold hg hsteady hflat hwhole
    refine ⟨.kept, congrArg Geometry.finite hmoved, fun s => ?_⟩
    rw [outcome_postProcess_of_whole hr hne fun _ => .inl hwhole, hmoved,
      west_map hg.isEmpty_eq fun _ _ => rfl, east_map hg.isEmpty_eq fun _ _ => rfl]
  · refine ⟨.replaced (g.map (Vertex.settle (drift fold g.outline))).finite, rfl, fun s => ?_⟩
    rw [outcome_postProcess_of_torn hr hne ht htorn (width_fold_lt hfold hg.isEmpty_eq),
      stitch_fold hr hfold hg hsteady hnarrow]

theorem isEmpty_of_image {α : Type} [Scalar α] {t : Transform α} {source image : Geometry α}
    (hsource : t.geometry source = .ok image) : source.isEmpty = image.isEmpty := by
  rw [Transform.geometry] at hsource
  split at hsource
  · cases hsource
    rfl
  · split at hsource
    · contradiction
    · cases hsource
      rw [isEmpty_map]

omit [IsStrictOrderedRing K] in
/-- A transform that moves points at all leaves no heights. -/
theorem flat_of_image (ht : t.isIdentity = false) {source : Geometry (Extended K)}
    (hsource : t.geometry source = .ok g.finite) : ∀ v ∈ g.vertices, v.z = none := by
  intro v hv
  rw [Transform.geometry, ht, if_neg Bool.false_ne_true] at hsource
  split at hsource
  · contradiction
  · have hmem : v.finite ∈ g.finite.vertices := by
      rw [vertices_finite]
      exact List.mem_map_of_mem hv
    rw [← Except.ok.inj hsource, vertices_map] at hmem
    obtain ⟨w, -, heq⟩ := List.mem_map.mp hmem
    exact Option.map_eq_none_iff.mp (congrArg Vertex.z heq).symm

omit [IsStrictOrderedRing K] in
theorem flat_of_geometry (ht : t.isIdentity = false) {source : Geometry (Extended K)}
    (hsource : t.geometry source = .ok (g.map fold).finite) :
    ∀ v ∈ g.vertices, (fold v).z = none := by
  have hflat := flat_of_image ht hsource
  rwa [vertices_map, List.forall_mem_map] at hflat

omit [LinearOrder K] [FloorRing K] [IsStrictOrderedRing K] in
theorem copyable_settle (hg : g.Undivided) (dx : K) (ks : List Int) :
    Copyable (g.map (Vertex.settle dx)) ks := by
  refine ⟨.inl (.inl ?_), .inr ?_⟩
  · intro v hv
    rw [vertices_map] at hv
    obtain ⟨w, -, rfl⟩ := List.mem_map.mp hv
    rfl
  · intro _ part hpart
    rw [parts_map, hg.parts_eq, List.map_singleton, List.mem_singleton] at hpart
    rw [hpart, isEmpty_map, hg.isEmpty_eq]

omit [FloorRing K] in
/-- Where the cap is not reached, a geometry that was moved by whole periods is seen in the places
of the geometry itself. -/
theorem exists_turn_settle_iff {dx : K} {m : Int} (hdx : dx = 2 * radius * m) {cap : Int}
    (hcap : ∀ k : Int, area.minx < g.east + dx + 2 * radius * k →
      g.west + dx + 2 * radius * k < area.maxx → |k| ≤ cap)
    {p : K × K} (hlow : area.minx < p.1) (hhigh : p.1 < area.maxx) :
    (∃ k : Int, |k| ≤ cap ∧ (p.1 - 2 * radius * k, p.2) ∈ (g.map (Vertex.settle dx)).painted) ↔
      ∃ k : Int, (p.1 - 2 * radius * k, p.2) ∈ g.painted := by
  have hmoved (k : Int) : (p.1 - 2 * radius * k, p.2) ∈ (g.map (Vertex.settle dx)).painted ↔
      (p.1 - 2 * radius * k - dx, p.2) ∈ g.painted :=
    mem_painted_map fun _ => rfl
  have hshift (k : Int) : p.1 - 2 * radius * k - dx = p.1 - 2 * radius * ↑(k + m) := by
    rw [hdx]
    push_cast
    ring
  simp only [hmoved, hshift]
  constructor
  · rintro ⟨k, -, hp⟩
    exact ⟨k + m, hp⟩
  · rintro ⟨k, hp⟩
    have hback : p.1 - 2 * radius * k = p.1 - 2 * radius * ↑(k - m) - dx := by
      rw [hshift, sub_add_cancel]
    obtain ⟨⟨hpwest, hpeast⟩, -⟩ := mem_bounds_of_mem_painted hp
    rw [hback] at hpwest hpeast
    refine ⟨k - m, hcap (k - m) ?_ ?_, by rwa [sub_add_cancel]⟩
    · linarith
    · linarith

/-- Tears are always repaired: what becomes of a folded line or polygon without holes paints,
between the edges of the area, every move of the geometry by whole periods. -/
theorem postProcess_repairs_tears (setting : Setting (Extended K))
    (hr : Repeats r cycle area radius) (hfold : Folds radius window fold) (hg : g.Undivided)
    (hsteady : Steady radius g.outline) (hnarrow : g.east - g.west ≤ radius)
    (ht : t.isIdentity = false) {source : Geometry (Extended K)}
    (hsource : t.geometry source = .ok (g.map fold).finite)
    (hcap : ∀ k : Int, area.minx < g.east + drift fold g.outline + 2 * radius * k →
      g.west + drift fold g.outline + 2 * radius * k < area.maxx → |k| ≤ r.cap)
    (s : State (Extended K)) :
    ∃ rev s', ∃ h : Geometry K,
      (r.postProcess setting (some t) (some (g.map fold).finite)).outcome s = (.ok rev, s') ∧
      Revision.applyTo (g.map fold).finite rev = h.finite ∧
      ∀ p, area.minx < p.1 → p.1 < area.maxx →
        (p ∈ h.painted ↔ ∃ k : Int, (p.1 - 2 * radius * k, p.2) ∈ g.painted) := by
  have hflat := flat_of_geometry ht hsource
  obtain ⟨current, hcurrent, houtcome⟩ :=
    exists_outcome_fold setting hr hfold hg hsteady hnarrow hflat ht
  rw [houtcome]
  obtain ⟨m, hm⟩ := hfold.exists_drift_eq g.outline
  generalize drift fold g.outline = dx at *
  have hne : (g.map (Vertex.settle dx)).isEmpty = false := by rw [isEmpty_map, hg.isEmpty_eq]
  have hwest : (g.map (Vertex.settle dx)).west = g.west + dx :=
    west_map hg.isEmpty_eq fun _ _ => rfl
  have heast : (g.map (Vertex.settle dx)).east = g.east + dx :=
    east_map hg.isEmpty_eq fun _ _ => rfl
  obtain ⟨ks, hoffsets, hshows⟩ := hr.exists_visibleOffsets (g.west + dx) (g.east + dx)
  obtain ⟨rev, s', h, hrev, hh, hstays, hgathered⟩ := exists_replicate hcurrent hne hr.radius_eq
    hoffsets hshows (copyable_settle hg dx ks) s
  refine ⟨rev, s', h, hrev, hh, ?_⟩
  intro p hlow hhigh
  rw [← hwest, ← heast] at hshows
  rw [mem_painted_copies hshows hr.cap_nonneg (fun hnil => (hstays (by simp [hnil])).2) hgathered
    hlow hhigh]
  exact exists_turn_settle_iff hm hcap hlow hhigh

/-- A line across the seam, torn between two systems of one globe, is put together again. -/
theorem repairs_line_across_seam :
    let area : Envelope ℚ := ⟨150, -20, 210, 20, none⟩
    let crs := Crs.ofFrame Crs.Registry.wgs84
    let t : Transform (Extended ℚ) := .direct (Crs.ofFrame Crs.Registry.europe1989) crs false
      ⟨fun x y => (x, y), fun _ _ => false, true⟩
    let setting : Setting (Extended ℚ) :=
      ⟨⟨fun _ _ => none⟩, ⟨fun _ => true, fun g _ => g, fun _ _ => true, fun _ _ => true⟩⟩
    let r := geographic area.finite (Crs.ofFrame Crs.Registry.europe1989) crs 10 t
    let g : Geometry ℚ := .line [⟨175, 0, none⟩, ⟨185, 1, none⟩]
    let folded : Geometry ℚ := .line [⟨175, 0, none⟩, ⟨-175, 1, none⟩]
    ∃ rev s', ∃ h : Geometry ℚ,
      (r.postProcess setting (some t) (some folded.finite)).outcome r.start = (.ok rev, s') ∧
      Revision.applyTo folded.finite rev = h.finite ∧
      ∀ p, 150 < p.1 → p.1 < 210 →
        (p ∈ h.painted ↔ ∃ k : Int, (p.1 - 2 * 180 * k, p.2) ∈ g.painted) := by
  intro area crs t setting r g folded
  have hfold : Folds (180 : ℚ) (Set.Ico (-180) (-180 + 2 * 180)) (Vertex.fold 180 (-180)) :=
    folds_fold (by norm_num) _
  have hg : g.Undivided := .line (by simp)
  have hsteady : Steady 180 g.outline := by norm_num [g, outline, Steady, abs_lt]
  have hwest : g.west = 175 := by decide +kernel
  have heast : g.east = 185 := by decide +kernel
  have hdrift : drift (Vertex.fold 180 (-180)) g.outline = 0 := by decide +kernel
  have hfolded : g.map (Vertex.fold 180 (-180)) = folded := by
    norm_num [g, folded, Geometry.map, Vertex.fold]
  have hcap (k : Int) (hlow : area.minx < g.east + drift (Vertex.fold 180 (-180)) g.outline +
      2 * 180 * k) (hhigh : g.west + drift (Vertex.fold 180 (-180)) g.outline + 2 * 180 * k <
      area.maxx) : |k| ≤ r.cap := by
    rw [heast, hdrift] at hlow
    rw [hwest, hdrift] at hhigh
    simp only [area] at hlow hhigh
    have hlow' : -1 < k := by
      have hlow' : (-1 : ℚ) < k := by linarith
      exact_mod_cast hlow'
    have hhigh' : k < 1 := by
      have hhigh' : (k : ℚ) < 1 := by linarith
      exact_mod_cast hhigh'
    rw [abs_le]
    simp only [r, geographic]
    omega
  have hsource : t.geometry folded.finite = .ok (g.map (Vertex.fold 180 (-180))).finite := by
    rw [hfolded]
    rfl
  have hrepairs := postProcess_repairs_tears setting (repeats_geographic (by norm_num)) hfold hg
    hsteady (by norm_num [hwest, heast]) rfl hsource hcap r.start
  rwa [hfolded] at hrepairs

end Antimeridian.Rendering
