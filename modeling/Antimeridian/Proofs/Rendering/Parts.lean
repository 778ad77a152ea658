import Antimeridian.Proofs.Geometry.Multipart
import Antimeridian.Proofs.Rendering.Stitching

/-!
# Repairing geometries of many parts

Of a folded geometry of many parts, stitching puts every part together, but keeps the result only if
all of it is at most half a period wide. That holds where folding moved the first vertices of all
parts alike. Where it did not, the parts have come to lie a period apart, the geometry stays as it
was folded, and a part that was torn stays torn in every copy.
-/

namespace Antimeridian.Rendering

open Antimeridian.Geometry

variable {K : Type} [Field K] [LinearOrder K] [FloorRing K] [IsStrictOrderedRing K]
  {setting : Setting (Extended K)} {r : Rendering (Extended K)} {cycle : Cycle (Extended K)}
  {area : Envelope K} {radius : K} {window : Set K} {fold : Vertex K → Vertex K}
  {t : Transform (Extended K)} {g placed : Geometry K} {ks : List Int}

/-! ## Parts moved by whole periods -/

/-- Whether some parts are those of a geometry, each moved by whole periods of its own. -/
def AreMoved (radius : K) (g : Geometry K) (parts : List (Geometry K)) : Prop :=
  List.Forall₂ (fun part own => ∃ m : Int, part = own.map (Vertex.settle (2 * radius * m)))
    parts g.parts

omit [LinearOrder K] [FloorRing K] [IsStrictOrderedRing K] in
theorem areMoved_map_iff {f : Geometry K → Geometry K} :
    AreMoved radius g (g.parts.map f) ↔
      ∀ part ∈ g.parts, ∃ m : Int, f part = part.map (Vertex.settle (2 * radius * m)) := by
  rw [AreMoved, List.forall₂_map_left_iff, List.forall₂_same]

omit [LinearOrder K] [FloorRing K] [IsStrictOrderedRing K] in
theorem translate_map_settle (own : Geometry K) (m k : Int) :
    (own.map (Vertex.settle (2 * radius * m))).translate (2 * radius * k) =
      own.map (Vertex.settle (2 * radius * ((m + k : Int) : K))) := by
  rw [Geometry.translate, map_map]
  refine map_congr fun v _ => ?_
  simp only [Function.comp_apply, Vertex.translate, Vertex.settle, Vertex.mk.injEq, and_self,
    and_true]
  push_cast
  ring

omit [LinearOrder K] [FloorRing K] [IsStrictOrderedRing K] in
theorem translate_translate (own : Geometry K) (m k : Int) :
    (own.translate (2 * radius * m)).translate (2 * radius * k) =
      own.translate (2 * radius * ((m + k : Int) : K)) := by
  rw [Geometry.translate, Geometry.translate, map_map]
  refine map_congr fun v _ => ?_
  simp only [Function.comp_apply, Vertex.translate, Vertex.mk.injEq, and_self, and_true]
  push_cast
  ring

omit [LinearOrder K] [FloorRing K] [IsStrictOrderedRing K] in
/-- Moving all parts together does not matter. -/
theorem areMoved_translate_iff (k : Int) :
    AreMoved radius g (placed.translate (2 * radius * k)).parts ↔
      AreMoved radius g placed.parts := by
  rw [AreMoved, Geometry.translate, parts_map, List.forall₂_map_left_iff]
  have hpart (part own : Geometry K) :
      (∃ m : Int, part.translate (2 * radius * k) = own.map (Vertex.settle (2 * radius * m))) ↔
        ∃ m : Int, part = own.map (Vertex.settle (2 * radius * m)) := by
    constructor
    · rintro ⟨m, hm⟩
      refine ⟨m + -k, ?_⟩
      rw [← translate_map_settle, ← hm, translate_translate, add_neg_cancel]
      simp
    · rintro ⟨m, rfl⟩
      exact ⟨m + k, translate_map_settle own m k⟩
  exact ⟨fun hall => hall.imp fun part own => (hpart part own).mp,
    fun hall => hall.imp fun part own => (hpart part own).mpr⟩

omit [LinearOrder K] [FloorRing K] [IsStrictOrderedRing K] in
/-- Copies are made of moved parts exactly if what is copied is. -/
theorem areMoved_copies_iff (hks : ks ≠ []) (hlength : placed.parts.length = g.parts.length) :
    (∃ copies : List (List (Geometry K)), copies ≠ [] ∧
      (ks.flatMap fun (k : Int) => (placed.translate (2 * radius * k)).parts) = copies.flatten ∧
      ∀ copy ∈ copies, AreMoved radius g copy) ↔ AreMoved radius g placed.parts := by
  constructor
  · rintro ⟨copies, hne, hflat, hcopies⟩
    obtain ⟨k, rest, rfl⟩ := List.exists_cons_of_ne_nil hks
    obtain ⟨copy, others, rfl⟩ := List.exists_cons_of_ne_nil hne
    have hcopy := hcopies copy List.mem_cons_self
    -- every copy has as many parts, so that the first ones are the same
    have hsame : (placed.translate (2 * radius * k)).parts.length = copy.length := by
      rw [Geometry.translate, parts_map, List.length_map, hlength, List.Forall₂.length_eq hcopy]
    rw [List.flatMap_cons, List.flatten_cons] at hflat
    rwa [← areMoved_translate_iff k, List.append_inj_left hflat hsame]
  · intro hmoved
    refine ⟨ks.map fun (k : Int) => (placed.translate (2 * radius * k)).parts, by simpa using hks,
      List.flatMap_def, List.forall_mem_map.mpr fun k _ => (areMoved_translate_iff k).mpr hmoved⟩

/-! ## Folded parts -/

omit [FloorRing K] [IsStrictOrderedRing K] in
/-- The parts of a folded geometry are moved parts exactly if none of them is torn. -/
theorem areMoved_fold_iff (hfold : Folds radius window fold) (hg : ∀ part ∈ g.parts, part.Undivided)
    (hflat : ∀ v ∈ g.vertices, (fold v).z = none) :
    AreMoved radius g (g.map fold).parts ↔
      ∀ part ∈ g.parts, ∀ v ∈ part.outline, (fold v).x = v.x + drift fold part.outline := by
  rw [parts_map, areMoved_map_iff]
  refine forall₂_congr fun part hpart => ⟨?_, fun hmoved => ?_⟩
  · rintro ⟨m, hm⟩
    have houtline := congrArg outline hm
    rw [outline_map, outline_map, List.map_inj_left] at houtline
    have hx : ∀ v ∈ part.outline, (fold v).x = v.x + 2 * radius * m := fun v hv =>
      congrArg Vertex.x (houtline v hv)
    cases hcases : part.outline with
    | nil => simp
    | cons first rest =>
        have hdrift : drift fold (first :: rest) = 2 * radius * m := by
          rw [drift, List.head?_cons, Option.map_some, Option.getD_some,
            hx first (hcases ▸ List.mem_cons_self), add_sub_cancel_left]
        rw [hdrift, ← hcases]
        exact hx
  · obtain ⟨m, hm⟩ := hfold.exists_drift_eq part.outline
    exact ⟨m, hm ▸ map_fold_of_moved (hg part hpart) hfold.level
      (fun v hv => hflat v (mem_vertices_iff_parts.mpr ⟨part, hpart, hv⟩)) hmoved⟩

omit [FloorRing K] in
/-- As narrow as half a period, a folded geometry has no torn part. -/
theorem untorn_of_narrow (hfold : Folds radius window fold)
    (hsteady : ∀ part ∈ g.parts, Steady radius part.outline)
    (hnarrow : (g.map fold).east - (g.map fold).west ≤ radius) :
    ∀ part ∈ g.parts, ∀ v ∈ part.outline, (fold v).x = v.x + drift fold part.outline := by
  intro part hpart
  refine hfold.eq_add_drift (hsteady part hpart) fun v hv w hw => ?_
  have hmem {u : Vertex K} (hu : u ∈ part.outline) : fold u ∈ (g.map fold).outline := by
    rw [outline_map]
    exact List.mem_map_of_mem (mem_outline_iff_parts.mpr ⟨part, hpart, hu⟩)
  exact (abs_sub_le_width (hmem hv) (hmem hw)).trans hnarrow

/-- What comes of a geometry without heights when it is replicated: some copies of its parts. -/
theorem exists_replicate_parts (hr : Repeats r cycle area radius) {g₀ : Geometry (Extended K)}
    {current : Revision (Extended K)} (hcurrent : current.applyTo g₀ = placed.finite)
    (hne : placed.isEmpty = false) (hparts : ∀ part ∈ placed.parts, part.isEmpty = false)
    (hflat : ∀ v ∈ placed.vertices, v.z = none) (s : State (Extended K)) :
    ∃ rev s', ∃ h : Geometry K, ∃ ks : List Int,
      (r.replicate cycle current g₀ (.finite placed.west) (.finite placed.east)).outcome s =
        (.ok rev, s') ∧
      rev.applyTo g₀ = h.finite ∧ ks ≠ [] ∧
      h.parts = ks.flatMap fun (k : Int) => (placed.translate (2 * radius * k)).parts := by
  have heven : placed.HasEvenHeights := .inl hflat
  obtain ⟨offsets, hoffsets, hshows⟩ := hr.exists_visibleOffsets placed.west placed.east
  obtain ⟨rev, s', -, hrev, -⟩ := exists_replicate hcurrent hne hr.radius_eq hoffsets hshows
    ⟨.inl heven, .inr fun _ => hparts⟩ s
  obtain ⟨h, ks, hh, hks, hgathered⟩ :=
    exists_gathered_of_replicate hcurrent heven hr.radius_eq hoffsets hrev
  refine ⟨rev, s', h, ks, hrev, hh, hks, ?_⟩
  rw [parts_gathered hgathered, List.flatMap_map]
  intro copy hcopy part hpart
  obtain ⟨k, -, rfl⟩ := List.mem_map.mp hcopy
  rw [Geometry.translate, parts_map] at hpart
  obtain ⟨own, hown, rfl⟩ := List.mem_map.mp hpart
  rw [isEmpty_map, hparts own hown]

/-- What comes of it are copies of moved parts exactly if its own parts are moved. -/
theorem exists_replicate_moved_iff (hr : Repeats r cycle area radius) {g₀ : Geometry (Extended K)}
    {current : Revision (Extended K)} (hcurrent : current.applyTo g₀ = placed.finite)
    (hparts : ∀ part ∈ placed.parts, part.isEmpty = false ∧ ∀ v ∈ part.vertices, v.z = none)
    (hlength : placed.parts.length = g.parts.length) (hg : g.parts ≠ []) (s : State (Extended K)) :
    ∃ rev s', ∃ h : Geometry K,
      (r.replicate cycle current g₀ (.finite placed.west) (.finite placed.east)).outcome s =
        (.ok rev, s') ∧
      rev.applyTo g₀ = h.finite ∧
      ((∃ copies : List (List (Geometry K)), copies ≠ [] ∧ h.parts = copies.flatten ∧
        ∀ copy ∈ copies, AreMoved radius g copy) ↔ AreMoved radius g placed.parts) := by
  have hne := isEmpty_of_length_parts hlength hg fun part hpart => (hparts part hpart).1
  have hflat : ∀ v ∈ placed.vertices, v.z = none := by
    intro v hv
    obtain ⟨part, hpart, hv⟩ := mem_vertices_iff_parts.mp hv
    exact (hparts part hpart).2 v hv
  obtain ⟨rev, s', h, ks, hrev, hh, hks, hcopies⟩ := exists_replicate_parts hr hcurrent hne
    (fun part hpart => (hparts part hpart).1) hflat s
  exact ⟨rev, s', h, hrev, hh, by rw [hcopies, areMoved_copies_iff hks hlength]⟩

/-- A folded geometry of many parts is repaired, every part of every copy being the true part moved
by whole periods, exactly if folding tore none of its parts, or moved the first vertices of all of
them alike. -/
theorem postProcess_repairs_parts_iff (setting : Setting (Extended K))
    (hr : Repeats r cycle area radius) (hfold : Folds radius window fold) (hg : g.Multipart)
    (hsteady : ∀ part ∈ g.parts, Steady radius part.outline) (hnarrow : g.east - g.west ≤ radius)
    (ht : t.isIdentity = false) {source : Geometry (Extended K)}
    (hsource : t.geometry source = .ok (g.map fold).finite) (s : State (Extended K)) :
    ∃ rev s', ∃ h : Geometry K,
      (r.postProcess setting (some t) (some (g.map fold).finite)).outcome s = (.ok rev, s') ∧
      Revision.applyTo (g.map fold).finite rev = h.finite ∧
      ((∃ copies : List (List (Geometry K)), copies ≠ [] ∧ h.parts = copies.flatten ∧
        ∀ copy ∈ copies, AreMoved radius g copy) ↔
        (∀ part ∈ g.parts, ∀ v ∈ part.outline, (fold v).x = v.x + drift fold part.outline) ∨
        ∀ part ∈ g.parts, ∀ other ∈ g.parts,
          drift fold part.outline = drift fold other.outline) := by
  have hflat := flat_of_geometry ht hsource
  have hundivided := hg.undivided
  have hne : (g.map fold).isEmpty = false := by rw [isEmpty_map, hg.isEmpty_eq]
  have hfolded : ∀ part ∈ (g.map fold).parts,
      part.isEmpty = false ∧ ∀ v ∈ part.vertices, v.z = none := by
    rw [parts_map, List.forall_mem_map]
    intro part hpart
    rw [isEmpty_map, vertices_map, List.forall_mem_map]
    exact ⟨(hundivided part hpart).isEmpty_eq,
      fun v hv => hflat v (mem_vertices_iff_parts.mpr ⟨part, hpart, hv⟩)⟩
  have hlength : (g.map fold).parts.length = g.parts.length := by
    rw [parts_map, List.length_map]
  have hkept : Revision.applyTo (g.map fold).finite .kept = (g.map fold).finite := rfl
  have htorn_iff := areMoved_fold_iff hfold hundivided hflat
  rcases le_or_gt ((g.map fold).east - (g.map fold).west) radius with hwhole | htorn
  · have hmoved := untorn_of_narrow hfold hsteady hwhole
    obtain ⟨rev, s', h, hrev, hh, hiff⟩ := exists_replicate_moved_iff hr hkept hfolded hlength
      hg.parts_ne_nil s
    refine ⟨rev, s', h, ?_, hh, iff_of_true (hiff.mpr (htorn_iff.mpr hmoved)) (.inl hmoved)⟩
    exact (outcome_postProcess_of_whole hr hne (fun _ => .inl hwhole) s).trans hrev
  · obtain ⟨u, hunwrap, hu⟩ := hfold.unwrap_parts hg hsteady setting.overlay.isValidPolygon
      (some (cycle.south, cycle.north))
    have hparts : ∀ part ∈ u.parts, part.isEmpty = false ∧ ∀ v ∈ part.vertices, v.z = none := by
      rw [hu, List.forall_mem_map]
      intro part hpart
      rw [isEmpty_map, vertices_map, List.forall_mem_map]
      exact ⟨(hundivided part hpart).isEmpty_eq, fun _ _ => rfl⟩
    have hulength : u.parts.length = g.parts.length := by rw [hu, List.length_map]
    have hune := isEmpty_of_length_parts hulength hg.parts_ne_nil
      fun part hpart => (hparts part hpart).1
    rw [outcome_postProcess_of_torn hr hne ht htorn (width_fold_lt hfold hg.isEmpty_eq),
      stitch_of_unwrap hr hunwrap rfl hune]
    simp only [Bool.false_eq_true, or_false]
    by_cases haccepted : u.east - u.west ≤ radius
    · rw [if_pos haccepted]
      obtain ⟨rev, s', h, hrev, hh, hiff⟩ := exists_replicate_moved_iff hr
        (rfl : Revision.applyTo (g.map fold).finite (.replaced u.finite) = u.finite) hparts hulength
        hg.parts_ne_nil s
      have hmoved : AreMoved radius g u.parts := by
        rw [hu, areMoved_map_iff]
        intro part hpart
        obtain ⟨m, hm⟩ := hfold.exists_drift_eq part.outline
        exact ⟨m, by rw [hm]⟩
      exact ⟨rev, s', h, hrev, hh, iff_of_true (hiff.mpr hmoved)
        (hu.untorn_or_alike hfold hg hsteady hnarrow haccepted)⟩
    · rw [if_neg haccepted]
      obtain ⟨rev, s', h, hrev, hh, hiff⟩ := exists_replicate_moved_iff hr hkept hfolded hlength
        hg.parts_ne_nil s
      refine ⟨rev, s', h, hrev, hh, ?_⟩
      rw [hiff, htorn_iff]
      exact (or_iff_left fun halike => haccepted (hu.narrow_of_alike hune hnarrow halike)).symm

/-- Of a line across the seam and one beyond it, folded to both sides, the first one stays torn. -/
theorem part_left_torn :
    let area : Envelope ℚ := ⟨150, -20, 210, 20, none⟩
    let crs := Crs.ofFrame Crs.Registry.wgs84
    let t : Transform (Extended ℚ) := .direct (Crs.ofFrame Crs.Registry.europe1989) crs false
      ⟨fun x y => (x, y), fun _ _ => false, true⟩
    let setting : Setting (Extended ℚ) :=
      ⟨⟨fun _ _ => none⟩, ⟨fun _ => true, fun g _ => g, fun _ _ => true, fun _ _ => true⟩⟩
    let r := geographic area.finite (Crs.ofFrame Crs.Registry.europe1989) crs 10 t
    let g : Geometry ℚ :=
      .lines [[⟨170, 0, none⟩, ⟨190, 1, none⟩], [⟨185, 5, none⟩, ⟨195, 6, none⟩]]
    let folded : Geometry ℚ :=
      .lines [[⟨170, 0, none⟩, ⟨-170, 1, none⟩], [⟨-175, 5, none⟩, ⟨-165, 6, none⟩]]
    ∃ rev s', ∃ h : Geometry ℚ,
      (r.postProcess setting (some t) (some folded.finite)).outcome r.start = (.ok rev, s') ∧
      Revision.applyTo folded.finite rev = h.finite ∧
      ¬∃ copies : List (List (Geometry ℚ)), copies ≠ [] ∧ h.parts = copies.flatten ∧
        ∀ copy ∈ copies, AreMoved 180 g copy := by
  intro area crs t setting r g folded
  have hfold : Folds (180 : ℚ) (Set.Ico (-180) (-180 + 2 * 180)) (Vertex.fold 180 (-180)) :=
    folds_fold (by norm_num) _
  have hg : g.Multipart := .lines (by simp) (by simp)
  have hsteady : ∀ part ∈ g.parts, Steady 180 part.outline := by
    norm_num [g, parts, outline, Steady, abs_lt]
  have hwest : g.west = 170 := by decide +kernel
  have heast : g.east = 195 := by decide +kernel
  have hfolded : g.map (Vertex.fold 180 (-180)) = folded := by
    norm_num [g, folded, Geometry.map, Vertex.fold]
  have hsource : t.geometry folded.finite = .ok (g.map (Vertex.fold 180 (-180))).finite := by
    rw [hfolded]
    rfl
  have hr : Repeats r geographicCycle area 180 := repeats_geographic (by norm_num)
  obtain ⟨rev, s', h, hrev, hh, hiff⟩ := postProcess_repairs_parts_iff setting hr hfold hg hsteady
    (by norm_num [hwest, heast]) rfl hsource r.start
  rw [hfolded] at hrev hh
  refine ⟨rev, s', h, hrev, hh, hiff.not.mpr ?_⟩
  have hacross : drift (Vertex.fold 180 (-180)) [⟨170, 0, none⟩, (⟨190, 1, none⟩ : Vertex ℚ)] =
      0 := by
    decide +kernel
  have hbeyond : drift (Vertex.fold 180 (-180)) [⟨185, 5, none⟩, (⟨195, 6, none⟩ : Vertex ℚ)] =
      -360 := by
    decide +kernel
  rintro (huntorn | halike)
  · have hend := huntorn _ List.mem_cons_self ⟨190, 1, none⟩ (by simp [outline])
    norm_num [outline, hacross, Vertex.fold] at hend
  · have hsame := halike _ List.mem_cons_self _ (List.mem_cons_of_mem _ List.mem_cons_self)
    norm_num [outline, hacross, hbeyond] at hsame

end Antimeridian.Rendering
