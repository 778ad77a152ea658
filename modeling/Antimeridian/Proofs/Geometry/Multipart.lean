import Antimeridian.Proofs.Geometry.Folding
import Antimeridian.Proofs.Geometry.Gathering

/-!
# Folded geometries of many parts

Folding tears the parts of a geometry one by one, and unwrapping puts them together one by one, each
moved as its own first vertex was. Parts whose first vertices were moved alike stay together; others
come to lie a period or more apart. Where the geometry is at most half a period wide, what has been
put together is as narrow only if all parts were moved alike, but for parts without width at its two
edges, and those are never torn.
-/

namespace Antimeridian

namespace Geometry

variable {K : Type}

/-- Lines, or polygons without holes, gathered into one geometry. -/
inductive Multipart : Geometry K → Prop
  | lines {members : List (List (Vertex K))} (hne : members ≠ [])
      (hlines : ∀ vs ∈ members, vs ≠ []) : Multipart (.lines members)
  | polygons {shells : List (List (Vertex K))} (hne : shells ≠ [])
      (hcloses : ∀ shell ∈ shells, Closes shell) : Multipart (.polygons (shells.map ([·])))

theorem Multipart.undivided {g : Geometry K} (hg : g.Multipart) :
    ∀ part ∈ g.parts, part.Undivided := by
  intro part hpart
  cases hg with
  | lines hne hlines =>
      obtain ⟨vs, hvs, rfl⟩ := List.mem_map.mp hpart
      exact .line (hlines vs hvs)
  | polygons hne hcloses =>
      simp only [parts, List.map_map, List.mem_map] at hpart
      obtain ⟨shell, hshell, rfl⟩ := hpart
      exact .polygon (hcloses shell hshell)

theorem Multipart.parts_ne_nil {g : Geometry K} (hg : g.Multipart) : g.parts ≠ [] := by
  cases hg <;> simpa [parts]

theorem mem_outline_iff_parts {g : Geometry K} {v : Vertex K} :
    v ∈ g.outline ↔ ∃ part ∈ g.parts, v ∈ part.outline := by
  rw [← parts_flatMap_outline, List.mem_flatMap]

theorem isEmpty_of_parts_ne_nil {g : Geometry K} (hne : g.parts ≠ [])
    (hparts : ∀ part ∈ g.parts, part.isEmpty = false) : g.isEmpty = false := by
  obtain ⟨part, hpart⟩ := List.exists_mem_of_ne_nil _ hne
  by_contra hempty
  rw [Bool.not_eq_false] at hempty
  simpa [hparts part hpart] using isEmpty_of_parts hempty part hpart

theorem isEmpty_of_length_parts {g u : Geometry K} (hlength : u.parts.length = g.parts.length)
    (hne : g.parts ≠ []) (hparts : ∀ part ∈ u.parts, part.isEmpty = false) : u.isEmpty = false := by
  refine isEmpty_of_parts_ne_nil ?_ hparts
  rwa [← List.length_pos_iff, hlength, List.length_pos_iff]

theorem Multipart.isEmpty_eq {g : Geometry K} (hg : g.Multipart) : g.isEmpty = false :=
  isEmpty_of_parts_ne_nil hg.parts_ne_nil fun part hpart => (hg.undivided part hpart).isEmpty_eq

end Geometry

open Antimeridian.Geometry

variable {K : Type} [Field K] [LinearOrder K] [IsStrictOrderedRing K] {radius : K} {window : Set K}
  {fold : Vertex K → Vertex K} {g : Geometry K}

/-! ## Unwrapping part by part -/

/-- The parts of a geometry, put together one by one and each moved as its first vertex was. -/
def Reassembles (fold : Vertex K → Vertex K) (g u : Geometry K) : Prop :=
  u.parts = g.parts.map fun part => part.map (Vertex.settle (drift fold part.outline))

section Unwrapping

variable [FloorRing K]

theorem Folds.unwrap_lines (hfold : Folds radius window fold) {members : List (List (Vertex K))}
    (hlines : ∀ vs ∈ members, vs ≠ []) (hsteady : ∀ vs ∈ members, Steady radius vs)
    (valid : List (List (Vertex (Extended K))) → Bool)
    (poles : Option (Extended K × Extended K)) :
    Unwrap.geometry valid (.finite radius) poles ((lines members).map fold).finite =
      .ok (.replaced (lines (members.map fun vs => vs.map (Vertex.settle (drift fold vs)))).finite,
        false) := by
  have hmembers : ((members.map (·.map fold)).map (·.map Vertex.finite)).map
      (Unwrap.vertices (.finite radius)) =
      (members.map fun vs => vs.map (Vertex.settle (drift fold vs))).map (·.map Vertex.finite) := by
    simp only [List.map_map]
    exact List.map_congr_left fun vs hvs => hfold.unwrap_vertices (hsteady vs hvs)
  have hok : multiLine ((members.map fun vs => vs.map (Vertex.settle (drift fold vs))).map
      (·.map Vertex.finite)) = .ok _ := multiLine_eq_ok.mpr ⟨by simpa using hlines, rfl⟩
  simp only [Geometry.map, finite_eq_map, Unwrap.geometry, hmembers, hok, bind, Except.bind, pure,
    Except.pure]

theorem Folds.unwrap_shells (hfold : Folds radius window fold) {shells : List (List (Vertex K))}
    (hshells : ∀ shell ∈ shells, Steady radius shell ∧ Closes shell)
    (valid : List (List (Vertex (Extended K))) → Bool)
    (poles : Option (Extended K × Extended K)) :
    Unwrap.polygons valid (.finite radius) poles
        (((shells.map ([·])).map (·.map (·.map fold))).map (·.map (·.map Vertex.finite))) =
      .ok ((shells.map fun shell => [shell.map (Vertex.settle (drift fold shell))]).map
        (·.map (·.map Vertex.finite)), false) := by
  induction shells with
  | nil => rfl
  | cons shell rest ih =>
      obtain ⟨hshell, hrest⟩ := List.forall_mem_cons.mp hshells
      have hrings : ∀ ring ∈ [shell], Steady radius ring ∧ Closes ring := by simpa using hshell
      have hfirst := hfold.unwrap_rings (by simp) hrings valid poles
      simp only [List.map_cons, List.map_nil] at hfirst
      simp only [List.map_cons, List.map_nil, Unwrap.polygons, hfirst, ih hrest, bind, Except.bind,
        pure, Except.pure, Option.getD_some, Bool.or_self]

theorem Folds.unwrap_polygons (hfold : Folds radius window fold) {shells : List (List (Vertex K))}
    (hshells : ∀ shell ∈ shells, Steady radius shell ∧ Closes shell)
    (valid : List (List (Vertex (Extended K))) → Bool)
    (poles : Option (Extended K × Extended K)) :
    Unwrap.geometry valid (.finite radius) poles
        ((polygons (shells.map ([·]))).map fold).finite =
      .ok (.replaced (polygons
        (shells.map fun shell => [shell.map (Vertex.settle (drift fold shell))])).finite,
        false) := by
  have hkept : ∀ rings ∈ (shells.map fun shell =>
      [shell.map (Vertex.settle (drift fold shell))]).map (·.map (·.map Vertex.finite)),
      (!isEmptyPolygon rings) = true := by
    intro rings hrings
    simp only [List.map_map, List.mem_map] at hrings
    obtain ⟨shell, hshell, rfl⟩ := hrings
    obtain ⟨v, -, hv, -⟩ := (hshells shell hshell).2
    simpa [isEmptyPolygon] using List.ne_nil_of_mem (List.mem_of_mem_head? hv)
  simp only [Geometry.map, finite_eq_map, Unwrap.geometry, hfold.unwrap_shells hshells, bind,
    Except.bind, pure, Except.pure, multiPolygon, List.filter_eq_self.mpr hkept]

/-- Unwrapping a folded geometry moves each of its parts as the first vertex of that part was. -/
theorem Folds.unwrap_parts (hfold : Folds radius window fold) (hg : g.Multipart)
    (hsteady : ∀ part ∈ g.parts, Steady radius part.outline)
    (valid : List (List (Vertex (Extended K))) → Bool)
    (poles : Option (Extended K × Extended K)) :
    ∃ u : Geometry K,
      Unwrap.geometry valid (.finite radius) poles (g.map fold).finite =
        .ok (.replaced u.finite, false) ∧ Reassembles fold g u := by
  cases hg with
  | lines hne hlines =>
      have hmembers := List.forall_mem_map.mp hsteady
      exact ⟨_, hfold.unwrap_lines hlines hmembers valid poles,
        by simp [Reassembles, parts, Geometry.map, outline]⟩
  | @polygons shells hne hcloses =>
      have hshells : ∀ shell ∈ shells, Steady radius shell ∧ Closes shell := by
        intro shell hshell
        refine ⟨hsteady (.polygon [shell]) ?_, hcloses shell hshell⟩
        simpa [parts] using hshell
      exact ⟨_, hfold.unwrap_polygons hshells valid poles,
        by simp [Reassembles, parts, Geometry.map, outline]⟩

end Unwrapping

/-! ## Parts that are moved apart -/

/-- A list that is moved differently from a vertex of another one, and is still within half a period
of it, has no width, and so it is not torn. -/
theorem Folds.eq_add_drift_of_apart (hfold : Folds radius window fold) {vs ws : List (Vertex K)}
    (hsteady : Steady radius vs) {w : Vertex K} (hown : ∀ v ∈ vs, |w.x - v.x| ≤ radius)
    (hmoved : ∀ v ∈ vs, |w.x + drift fold ws - (v.x + drift fold vs)| ≤ radius)
    (hne : drift fold ws ≠ drift fold vs) : ∀ v ∈ vs, (fold v).x = v.x + drift fold vs := by
  obtain ⟨m, hm⟩ := hfold.exists_drift_eq vs
  obtain ⟨n, hn⟩ := hfold.exists_drift_eq ws
  rw [hm, hn] at hmoved hne
  have hnm : n ≠ m := fun heq => hne (by rw [heq])
  -- moved by at least a period against each other, they were half a period apart before
  have hside : (∀ v ∈ vs, v.x = w.x + radius) ∨ ∀ v ∈ vs, v.x = w.x - radius := by
    rcases lt_or_gt_of_ne hnm with hlt | hgt
    · right
      intro v hv
      have hpos := hfold.radius_pos v
      have hle : (n : K) + 1 ≤ m := by exact_mod_cast hlt
      have hfar := (abs_le.mp (hmoved v hv)).1
      have hnear := (abs_le.mp (hown v hv)).2
      nlinarith
    · left
      intro v hv
      have hpos := hfold.radius_pos v
      have hle : (m : K) + 1 ≤ n := by exact_mod_cast hgt
      have hfar := (abs_le.mp (hmoved v hv)).2
      have hnear := (abs_le.mp (hown v hv)).1
      nlinarith
  refine hfold.eq_add_drift hsteady fun u hu v hv => ?_
  have hsame : v.x = u.x := by
    rcases hside with heast | hwest
    · rw [heast u hu, heast v hv]
    · rw [hwest u hu, hwest v hv]
  have hpos := hfold.radius_pos u
  have hjump := abs_lt.mp (hfold.abs_sub_lt u v)
  rcases hfold.jump_cases (v := u) (w := v) (by rwa [hsame, sub_self, abs_zero]) with
    heq | heq | heq
  · rw [heq, hsame, sub_self, abs_zero]
    exact hpos.le
  · linarith
  · linarith

omit [LinearOrder K] [IsStrictOrderedRing K] in
theorem Reassembles.mem_outline_iff {u : Geometry K} (hu : Reassembles fold g u) {v : Vertex K} :
    v ∈ u.outline ↔
      ∃ part ∈ g.parts, ∃ w ∈ part.outline, w.settle (drift fold part.outline) = v := by
  rw [mem_outline_iff_parts, hu]
  simp only [List.mem_map, exists_exists_and_eq_and, outline_map]

theorem Reassembles.narrow_of_alike {u : Geometry K} (hu : Reassembles fold g u)
    (hne : u.isEmpty = false) (hnarrow : g.east - g.west ≤ radius)
    (halike : ∀ part ∈ g.parts, ∀ other ∈ g.parts,
      drift fold part.outline = drift fold other.outline) :
    u.east - u.west ≤ radius := by
  obtain ⟨first, hfirst, hwest⟩ := exists_west hne
  obtain ⟨last, hlast, heast⟩ := exists_east hne
  obtain ⟨part, hpart, v, hv, rfl⟩ := hu.mem_outline_iff.mp hfirst
  obtain ⟨other, hother, w, hw, rfl⟩ := hu.mem_outline_iff.mp hlast
  have hwidth := abs_le.mp <| abs_sub_le_width (mem_outline_iff_parts.mpr ⟨part, hpart, hv⟩)
    (mem_outline_iff_parts.mpr ⟨other, hother, hw⟩)
  rw [← hwest, ← heast, Vertex.settle, Vertex.settle, halike other hother part hpart]
  linarith [hwidth.2]

/-- What is narrow after its parts have been put together either had no torn part or was moved as a
whole. -/
theorem Reassembles.untorn_or_alike {u : Geometry K} (hu : Reassembles fold g u)
    (hfold : Folds radius window fold) (hg : g.Multipart)
    (hsteady : ∀ part ∈ g.parts, Steady radius part.outline) (hnarrow : g.east - g.west ≤ radius)
    (hunarrow : u.east - u.west ≤ radius) :
    (∀ part ∈ g.parts, ∀ v ∈ part.outline, (fold v).x = v.x + drift fold part.outline) ∨
      ∀ part ∈ g.parts, ∀ other ∈ g.parts,
        drift fold part.outline = drift fold other.outline := by
  by_cases halike : ∀ part ∈ g.parts, ∀ other ∈ g.parts,
      drift fold part.outline = drift fold other.outline
  · exact .inr halike
  left
  intro part hpart
  -- not all parts were moved alike, so one of them was moved differently from this one
  obtain ⟨other, hother, hne⟩ : ∃ other ∈ g.parts,
      drift fold other.outline ≠ drift fold part.outline := by
    by_contra hnone
    push Not at hnone
    exact halike fun first hfirst second hsecond =>
      (hnone first hfirst).trans (hnone second hsecond).symm
  obtain ⟨w, hw⟩ : ∃ w, w ∈ other.outline := by
    refine List.exists_mem_of_ne_nil _ fun hnil => ?_
    have hempty := (outline_eq_nil_iff other).mp hnil
    simp [(hg.undivided other hother).isEmpty_eq] at hempty
  have hown : ∀ v ∈ part.outline, |w.x - v.x| ≤ radius := by
    intro v hv
    exact (abs_sub_le_width (mem_outline_iff_parts.mpr ⟨part, hpart, hv⟩)
      (mem_outline_iff_parts.mpr ⟨other, hother, hw⟩)).trans hnarrow
  have hmoved : ∀ v ∈ part.outline,
      |w.x + drift fold other.outline - (v.x + drift fold part.outline)| ≤ radius := by
    intro v hv
    exact (abs_sub_le_width (hu.mem_outline_iff.mpr ⟨part, hpart, v, hv, rfl⟩)
      (hu.mem_outline_iff.mpr ⟨other, hother, w, hw, rfl⟩)).trans hunarrow
  exact hfold.eq_add_drift_of_apart (hsteady part hpart) hown hmoved hne

end Antimeridian
