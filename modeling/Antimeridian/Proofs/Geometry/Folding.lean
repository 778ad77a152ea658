import Antimeridian.Proofs.Geometry.Jumps

/-!
# Folded geometries

A periodic axis folds geometries: every vertex is moved by whole periods into one window of a
period. Where consecutive vertices were less than half a period apart, unwrapping recovers every
list of vertices, but for the whole periods by which its first vertex was moved. Lists that
belong together, such as the rings of a polygon, stay together only if their first vertices were
moved alike.
-/

namespace Antimeridian

variable {K : Type}

/-- A list of vertices that ends where it starts. -/
def Closes (vs : List (Vertex K)) : Prop :=
  ∃ first last, vs.head? = some first ∧ vs.getLast? = some last ∧
    last.x = first.x ∧ last.y = first.y

theorem Closes.ne_nil {vs : List (Vertex K)} (hcloses : Closes vs) : vs ≠ [] := by
  obtain ⟨first, -, hfirst, -⟩ := hcloses
  exact List.ne_nil_of_mem (List.mem_of_mem_head? hfirst)

namespace Geometry

/-- A line, or a polygon without holes. -/
inductive Undivided : Geometry K → Prop
  | line {vs : List (Vertex K)} (hne : vs ≠ []) : Undivided (.line vs)
  | polygon {shell : List (Vertex K)} (hcloses : Closes shell) : Undivided (.polygon [shell])

theorem Undivided.isEmpty_eq {g : Geometry K} (hg : g.Undivided) : g.isEmpty = false := by
  cases hg with
  | line hne => simpa [isEmpty] using hne
  | polygon hcloses =>
      simpa [isEmpty, isEmptyPolygon] using hcloses.ne_nil

theorem Undivided.vertices_eq {g : Geometry K} (hg : g.Undivided) : g.vertices = g.outline := by
  cases hg <;> simp [vertices, outline]

theorem Undivided.parts_eq {g : Geometry K} (hg : g.Undivided) : g.parts = [g] := by
  cases hg <;> rfl

end Geometry

variable [Field K] [LinearOrder K]

/-- A way to move every vertex by whole periods into one half-open window of a period. -/
structure Folds (radius : K) (window : Set K) (fold : Vertex K → Vertex K) : Prop where
  halfOpen : ∃ low, window = Set.Ico low (low + 2 * radius) ∨
    window = Set.Ioc low (low + 2 * radius)
  mem_window : ∀ v, (fold v).x ∈ window
  whole : ∀ v, ∃ m : Int, (fold v).x = v.x + 2 * radius * m
  level : ∀ v, (fold v).y = v.y

/-- The vertex moved into the window of a period that starts at `low`. -/
def Vertex.fold [FloorRing K] (radius low : K) (v : Vertex K) : Vertex K :=
  { v with x := v.x - 2 * radius * ⌊(v.x - low) / (2 * radius)⌋ }

theorem folds_fold [IsStrictOrderedRing K] [FloorRing K] {radius : K} (hpos : 0 < radius)
    (low : K) : Folds radius (Set.Ico low (low + 2 * radius)) (Vertex.fold radius low) := by
  have hperiod : 0 < 2 * radius := by positivity
  refine ⟨⟨low, .inl rfl⟩, fun v => ?_, fun v => ⟨-⌊(v.x - low) / (2 * radius)⌋, ?_⟩, fun v => rfl⟩
  · have hfloor := Int.floor_le ((v.x - low) / (2 * radius))
    have hceil := Int.lt_floor_add_one ((v.x - low) / (2 * radius))
    rw [le_div_iff₀ hperiod] at hfloor
    rw [div_lt_iff₀ hperiod] at hceil
    simp only [Vertex.fold, Set.mem_Ico]
    constructor <;> linarith
  · simp only [Vertex.fold]
    push_cast
    ring

/-- How far the first vertex of a list is moved. -/
def drift (fold : Vertex K → Vertex K) (vs : List (Vertex K)) : K :=
  (vs.head?.map fun v => (fold v).x - v.x).getD 0

theorem Folds.exists_drift_eq {radius : K} {window : Set K} {fold : Vertex K → Vertex K}
    (hfold : Folds radius window fold) (vs : List (Vertex K)) :
    ∃ m : Int, drift fold vs = 2 * radius * m := by
  cases vs with
  | nil => exact ⟨0, by simp [drift]⟩
  | cons v rest =>
      obtain ⟨m, hm⟩ := hfold.whole v
      refine ⟨m, ?_⟩
      rw [drift, List.head?_cons, Option.map_some, Option.getD_some, hm, add_sub_cancel_left]

section Jumps

variable [IsStrictOrderedRing K] {radius : K} {window : Set K} {fold : Vertex K → Vertex K}

theorem Folds.abs_sub_lt (hfold : Folds radius window fold) (v w : Vertex K) :
    |(fold w).x - (fold v).x| < 2 * radius := by
  obtain ⟨low, rfl | rfl⟩ := hfold.halfOpen
  all_goals
    obtain ⟨hv, hv'⟩ := hfold.mem_window v
    obtain ⟨hw, hw'⟩ := hfold.mem_window w
    rw [abs_sub_lt_iff]
    constructor <;> linarith

theorem Folds.radius_pos (hfold : Folds radius window fold) (v : Vertex K) : 0 < radius := by
  have hpos := (abs_nonneg _).trans_lt (hfold.abs_sub_lt v v)
  linarith

/-- The jump between two folded vertices is the step between the vertices, or a period away. -/
theorem Folds.jump_cases (hfold : Folds radius window fold) {v w : Vertex K}
    (hstep : |w.x - v.x| < radius) :
    (fold w).x - (fold v).x = w.x - v.x ∨ (fold w).x - (fold v).x = w.x - v.x + 2 * radius ∨
      (fold w).x - (fold v).x = w.x - v.x - 2 * radius := by
  obtain ⟨m, hm⟩ := hfold.whole v
  obtain ⟨n, hn⟩ := hfold.whole w
  have hjump : (fold w).x - (fold v).x = w.x - v.x + 2 * radius * ((n - m : Int) : K) := by
    rw [hm, hn]
    push_cast
    ring
  rw [hjump]
  rcases turns_of_step hstep (hfold.abs_sub_lt v w).le hjump with heq | heq | heq
  · left
    rw [heq, Int.cast_zero, mul_zero, add_zero]
  · right
    left
    rw [heq, Int.cast_one, mul_one]
  · right
    right
    rw [heq, Int.cast_neg, Int.cast_one, mul_neg_one, ← sub_eq_add_neg]

omit [IsStrictOrderedRing K] in
/-- A folded list lies in the closed window, at whole periods from the list. -/
theorem Folds.exists_areFolded (hfold : Folds radius window fold) :
    ∃ low, ∀ vs : List (Vertex K), AreFolded radius low vs (vs.map fold) := by
  have hclosed : ∃ low, window ⊆ Set.Icc low (low + 2 * radius) := by
    obtain ⟨low, rfl | rfl⟩ := hfold.halfOpen
    · exact ⟨low, Set.Ico_subset_Icc_self⟩
    · exact ⟨low, Set.Ioc_subset_Icc_self⟩
  obtain ⟨low, hsub⟩ := hclosed
  refine ⟨low, fun vs => ?_⟩
  induction vs with
  | nil => exact .nil
  | cons v rest ih => exact .cons ⟨hfold.whole v, hfold.level v, hsub (hfold.mem_window v)⟩ ih

end Jumps

/-! ## Lists of vertices -/

section Drift

variable [IsStrictOrderedRing K] {radius : K} {window : Set K} {fold : Vertex K → Vertex K}

/-- What is folded into half a period was not torn: it was moved as a whole. -/
theorem Folds.eq_add_drift (hfold : Folds radius window fold) {vs : List (Vertex K)}
    (hsteady : Steady radius vs)
    (hnarrow : ∀ v ∈ vs, ∀ w ∈ vs, |(fold w).x - (fold v).x| ≤ radius) :
    ∀ v ∈ vs, (fold v).x = v.x + drift fold vs := by
  cases vs with
  | nil => simp
  | cons first rest =>
      have hsame {v w : Vertex K} (hv : v ∈ first :: rest) (hw : w ∈ first :: rest)
          (hstep : |w.x - v.x| < radius) : (fold w).x - w.x = (fold v).x - v.x := by
        have hjump := abs_le.mp (hnarrow v hv w hw)
        have hcases := hfold.jump_cases hstep
        rw [abs_lt] at hstep
        rcases hcases with heq | heq | heq <;> linarith
      -- being moved alike is handed on from each vertex to the next
      have hchain : (first :: rest).IsChain fun v w => (fold w).x - w.x = (fold v).x - v.x :=
        List.IsChain.imp_of_mem_imp (fun v w hv hw hstep => hsame hv hw hstep) hsteady
      have htrans : IsTrans (Vertex K) fun v w => (fold w).x - w.x = (fold v).x - v.x :=
        ⟨fun _ _ _ hfirst hsecond => hsecond.trans hfirst⟩
      have hdrift : drift fold (first :: rest) = (fold first).x - first.x := rfl
      intro v hv
      rw [hdrift]
      rcases List.mem_cons.mp hv with rfl | hv
      · ring
      · rw [← (List.pairwise_cons.mp hchain.pairwise).1 v hv]
        ring

end Drift

section Unwrapping

variable [IsStrictOrderedRing K] [FloorRing K] {radius : K} {window : Set K}
  {fold : Vertex K → Vertex K}

/-- Unwrapping recovers a folded list of vertices, moved as its first vertex was. -/
theorem Folds.unwrap_vertices (hfold : Folds radius window fold) {vs : List (Vertex K)}
    (hsteady : Steady radius vs) :
    Unwrap.vertices (.finite radius) ((vs.map fold).map Vertex.finite) =
      (vs.map (Vertex.settle (drift fold vs))).map Vertex.finite := by
  obtain ⟨low, hfolded⟩ := hfold.exists_areFolded
  apply (hfolded vs).unwrap hsteady
  cases vs with
  | nil => simp
  | cons v rest => simp [drift]

omit [LinearOrder K] [IsStrictOrderedRing K] [FloorRing K] in
theorem Closes.ends_settle {vs : List (Vertex K)} (hcloses : Closes vs) (dx : K) :
    ∃ v, (vs.map (Vertex.settle dx)).head? = some v ∧
      (vs.map (Vertex.settle dx)).getLast? = some v := by
  obtain ⟨first, last, hfirst, hlast, hx, hy⟩ := hcloses
  refine ⟨first.settle dx, ?_, ?_⟩
  · rw [List.head?_map, hfirst]
    rfl
  · rw [List.getLast?_map, hlast, Option.map_some, Vertex.settle, hx, hy]
    rfl

/-- A ring that ends, once it is unwrapped, where it starts, is given back just so. -/
theorem ring_of_ends (hpos : 0 < radius) {vs us : List (Vertex K)} {v : Vertex K}
    (hunwrapped : Unwrap.vertices (.finite radius) (vs.map Vertex.finite) = us.map Vertex.finite)
    (hfirst : us.head? = some v) (hlast : us.getLast? = some v)
    (poles : Option (Extended K × Extended K)) :
    Unwrap.ring (.finite radius) poles (vs.map Vertex.finite) =
      .ok (some (us.map Vertex.finite, false)) := by
  rw [Unwrap.ring, hunwrapped, List.head?_map, hfirst, List.getLast?_map, hlast]
  simp only [Option.map_some, Vertex.finite_x, Extended.finite_sub, sub_self, Extended.abs_finite,
    abs_zero, Extended.finite_lt_finite, hpos, if_true, Unwrap.replaceLast]
  rw [List.dropLast_append_getLast? _ (by rw [List.getLast?_map, hlast]; rfl)]

/-- A folded ring is closed again, moved as its first vertex was. -/
theorem Folds.unwrap_ring (hfold : Folds radius window fold) {vs : List (Vertex K)}
    (hsteady : Steady radius vs) (hcloses : Closes vs)
    (poles : Option (Extended K × Extended K)) :
    Unwrap.ring (.finite radius) poles ((vs.map fold).map Vertex.finite) =
      .ok (some ((vs.map (Vertex.settle (drift fold vs))).map Vertex.finite, false)) := by
  obtain ⟨v, hfirst, hlast⟩ := hcloses.ends_settle (drift fold vs)
  exact ring_of_ends (hfold.radius_pos v) (hfold.unwrap_vertices hsteady) hfirst hlast poles

theorem Folds.unwrap_holes (hfold : Folds radius window fold) {holes : List (List (Vertex K))}
    (hholes : ∀ hole ∈ holes, Steady radius hole ∧ Closes hole) :
    Unwrap.holes (.finite radius) ((holes.map (·.map fold)).map (·.map Vertex.finite)) =
      .ok (some ((holes.map fun hole => hole.map (Vertex.settle (drift fold hole))).map
        (·.map Vertex.finite))) := by
  induction holes with
  | nil => rfl
  | cons hole rest ih =>
      obtain ⟨⟨hsteady, hcloses⟩, hrest⟩ := List.forall_mem_cons.mp hholes
      simp only [List.map_cons, Unwrap.holes, hfold.unwrap_ring hsteady hcloses, ih hrest, bind,
        Except.bind, pure, Except.pure]

theorem Folds.unwrap_rings (hfold : Folds radius window fold) {rings : List (List (Vertex K))}
    (hne : rings ≠ []) (hrings : ∀ ring ∈ rings, Steady radius ring ∧ Closes ring)
    (valid : List (List (Vertex (Extended K))) → Bool)
    (poles : Option (Extended K × Extended K)) :
    Unwrap.polygon valid (.finite radius) poles
        ((rings.map (·.map fold)).map (·.map Vertex.finite)) =
      .ok (some ((rings.map fun ring => ring.map (Vertex.settle (drift fold ring))).map
        (·.map Vertex.finite), false)) := by
  cases rings with
  | nil => contradiction
  | cons shell holes =>
      obtain ⟨⟨hsteady, hcloses⟩, hholes⟩ := List.forall_mem_cons.mp hrings
      simp only [List.map_cons, Unwrap.polygon, List.headD_cons, List.tail_cons,
        hfold.unwrap_ring hsteady hcloses, hfold.unwrap_holes hholes, bind, Except.bind, pure,
        Except.pure]
      rfl

/-- Unwrapping a folded polygon moves each of its rings as the first vertex of that ring was. -/
theorem Folds.unwrap_polygon (hfold : Folds radius window fold) {rings : List (List (Vertex K))}
    (hne : rings ≠ []) (hrings : ∀ ring ∈ rings, Steady radius ring ∧ Closes ring)
    (valid : List (List (Vertex (Extended K))) → Bool)
    (poles : Option (Extended K × Extended K)) :
    Unwrap.geometry valid (.finite radius) poles ((Geometry.polygon rings).map fold).finite =
      .ok (.replaced (Geometry.polygon
        (rings.map fun ring => ring.map (Vertex.settle (drift fold ring)))).finite, false) := by
  simp only [Geometry.map, Geometry.finite_eq_map, Unwrap.geometry,
    hfold.unwrap_rings hne hrings, bind, Except.bind, pure, Except.pure]

/-- Unwrapping recovers a folded line or polygon without holes, moved as its first vertex was. -/
theorem Folds.unwrap_undivided (hfold : Folds radius window fold) {g : Geometry K}
    (hg : g.Undivided) (hsteady : Steady radius g.outline)
    (valid : List (List (Vertex (Extended K))) → Bool)
    (poles : Option (Extended K × Extended K)) :
    Unwrap.geometry valid (.finite radius) poles (g.map fold).finite =
      .ok (.replaced (g.map (Vertex.settle (drift fold g.outline))).finite, false) := by
  cases hg with
  | line hne =>
      rw [Geometry.outline] at hsteady
      simp only [Geometry.map, Geometry.finite_eq_map, Unwrap.geometry,
        hfold.unwrap_vertices hsteady, Geometry.outline]
  | polygon hcloses =>
      exact hfold.unwrap_polygon (by simp) (by simpa using ⟨hsteady, hcloses⟩) valid poles

/-- Unwrapping a folded polygon recovers every ring, each moved as its own first vertex was; the
polygon is moved as a whole exactly if the first vertices of all rings were moved alike. -/
theorem unwrap_moves_rings_together_iff (hfold : Folds radius window fold)
    {rings : List (List (Vertex K))} (hne : rings ≠ [])
    (hrings : ∀ ring ∈ rings, Steady radius ring ∧ Closes ring)
    (valid : List (List (Vertex (Extended K))) → Bool)
    (poles : Option (Extended K × Extended K)) :
    ∃ result : Geometry K,
      Unwrap.geometry valid (.finite radius) poles ((Geometry.polygon rings).map fold).finite =
        .ok (.replaced result.finite, false) ∧
      result = .polygon (rings.map fun ring => ring.map (Vertex.settle (drift fold ring))) ∧
      ((∃ m : Int, result = (Geometry.polygon rings).map (Vertex.settle (2 * radius * m))) ↔
        ∀ ring ∈ rings, drift fold ring = drift fold (rings.headD [])) := by
  refine ⟨_, hfold.unwrap_polygon hne hrings valid poles, rfl, ?_⟩
  have hshell : rings.headD [] ∈ rings := by
    cases rings with
    | nil => contradiction
    | cons shell holes => exact List.mem_cons_self
  constructor
  · rintro ⟨m, hm⟩
    simp only [Geometry.map, Geometry.polygon.injEq, List.map_inj_left] at hm
    have hall : ∀ ring ∈ rings, drift fold ring = 2 * radius * m := by
      intro ring hring
      obtain ⟨v, -, hv, -⟩ := (hrings ring hring).2
      have hsame := hm ring hring v (List.mem_of_mem_head? hv)
      exact add_left_cancel (congrArg Vertex.x hsame)
    intro ring hring
    rw [hall ring hring, hall _ hshell]
  · intro hall
    obtain ⟨m, hm⟩ := hfold.exists_drift_eq (rings.headD [])
    refine ⟨m, ?_⟩
    simp only [Geometry.map, Geometry.polygon.injEq, List.map_inj_left]
    intro ring hring v hv
    rw [hall ring hring, hm]

end Unwrapping

/-- A square across the seam with a hole that starts on the far side: the hole is left behind. -/
theorem hole_left_behind :
    let rings : List (List (Vertex ℚ)) := [
      [⟨170, 0, none⟩, ⟨190, 0, none⟩, ⟨190, 10, none⟩, ⟨170, 10, none⟩, ⟨170, 0, none⟩],
      [⟨182, 4, none⟩, ⟨182, 6, none⟩, ⟨186, 6, none⟩, ⟨186, 4, none⟩, ⟨182, 4, none⟩]]
    ∃ result : Geometry ℚ,
      Unwrap.geometry (fun _ => true) (.finite 180) none
        ((Geometry.polygon rings).map (Vertex.fold 180 (-180))).finite =
          .ok (.replaced result.finite, false) ∧
      ¬∃ m : Int, result = (Geometry.polygon rings).map (Vertex.settle (2 * 180 * m : ℚ)) := by
  intro rings
  have hrings : ∀ ring ∈ rings, Steady 180 ring ∧ Closes ring := by
    norm_num [rings, Steady, Closes, abs_lt]
  have hfold : Folds (180 : ℚ) (Set.Ico (-180) (-180 + 2 * 180)) (Vertex.fold 180 (-180)) :=
    folds_fold (by norm_num) _
  obtain ⟨result, hok, -, hiff⟩ := unwrap_moves_rings_together_iff hfold (by simp [rings]) hrings
    (fun _ => true) none
  refine ⟨result, hok, fun hm => ?_⟩
  have hhole := hiff.mp hm (rings.getLast (by simp [rings])) (by simp [rings])
  have hshell : drift (Vertex.fold 180 (-180)) (rings.headD []) = 0 := by decide +kernel
  have hmoved : drift (Vertex.fold 180 (-180)) (rings.getLast (by simp [rings])) = -360 := by
    decide +kernel
  rw [hshell, hmoved] at hhole
  norm_num at hhole

end Antimeridian
