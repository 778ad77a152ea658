import Antimeridian.Geometry.Unwrap
import Antimeridian.Proofs.Geometry.Bounds

/-!
# Jumps between vertices

Unwrapping leaves the first vertex of a list where it is and compensates the jumps between
consecutive ones, each by whole periods. A list is determined by its first vertex, its jumps and its
ordinates, so that unwrapping undoes every folding of a list whose steps are shorter than half a
period: it turns the jumps back into the steps. Jumps of up to three halves of a period are reduced
to half of one, and from then on unwrapping changes nothing.
-/

namespace Antimeridian

variable {K : Type} [Field K]

/-- The vertex moved along the horizontal axis, without its height. -/
def Vertex.settle (dx : K) (v : Vertex K) : Vertex K := { x := v.x + dx, y := v.y }

/-- The horizontal jumps between consecutive vertices. -/
def gaps : List (Vertex K) → List K
  | v :: w :: rest => (w.x - v.x) :: gaps (w :: rest)
  | _ => []

/-- Whether the vertices of a list are those of another one, each moved by whole periods. -/
def AreTurned (radius : K) : List (Vertex K) → List (Vertex K) → Prop :=
  List.Forall₂ fun v w => ∃ m : Int, w = v.settle (2 * radius * m)

/-! ## Lists of vertices -/

section Turned

variable {radius : K} {vs ws : List (Vertex K)}

theorem AreTurned.length_eq (hturned : AreTurned radius vs ws) : vs.length = ws.length :=
  List.Forall₂.length_eq hturned

theorem AreTurned.flat (hturned : AreTurned radius vs ws) : ∀ w ∈ ws, w.z = none := by
  induction hturned with
  | nil => simp
  | cons hfirst _ ih =>
      obtain ⟨m, rfl⟩ := hfirst
      exact List.forall_mem_cons.mpr ⟨rfl, ih⟩

theorem AreTurned.map_y (hturned : AreTurned radius vs ws) : ws.map (·.y) = vs.map (·.y) := by
  induction hturned with
  | nil => rfl
  | cons hfirst _ ih =>
      obtain ⟨m, rfl⟩ := hfirst
      rw [List.map_cons, List.map_cons, ih]
      rfl

theorem gaps_map_settle (dx : K) (vs : List (Vertex K)) :
    gaps (vs.map (Vertex.settle dx)) = gaps vs := by
  induction vs with
  | nil => rfl
  | cons v rest ih =>
      cases rest with
      | nil => rfl
      | cons w rest =>
          rw [List.map_cons, List.map_cons, gaps, ← List.map_cons, ih, gaps, Vertex.settle,
            Vertex.settle, add_sub_add_right_eq_sub]

theorem tail_eq_of_gaps {v : Vertex K} (hflat : ∀ u ∈ vs, u.z = none)
    (hflat' : ∀ w ∈ ws, w.z = none) (hgaps : gaps (v :: vs) = gaps (v :: ws))
    (hordinates : vs.map (·.y) = ws.map (·.y)) : vs = ws := by
  induction vs generalizing v ws with
  | nil =>
      rw [List.map_nil, eq_comm, List.map_eq_nil_iff] at hordinates
      exact hordinates.symm
  | cons a rest ih =>
      cases ws with
      | nil => cases hordinates
      | cons b rest' =>
          obtain ⟨hx, hgaps⟩ := List.cons.inj hgaps
          obtain ⟨hy, hordinates⟩ := List.cons.inj hordinates
          obtain ⟨hz, hflat⟩ := List.forall_mem_cons.mp hflat
          obtain ⟨hz', hflat'⟩ := List.forall_mem_cons.mp hflat'
          have hsame : a = b := by
            cases a
            cases b
            rw [Vertex.mk.injEq]
            exact ⟨sub_left_injective hx, hy, hz.trans hz'.symm⟩
          rw [hsame] at hgaps ⊢
          rw [ih hflat hflat' hgaps hordinates]

/-- Where a list starts, its jumps and its ordinates tell all of its vertices. -/
theorem eq_of_gaps (hflat : ∀ v ∈ vs, v.z = none) (hflat' : ∀ w ∈ ws, w.z = none)
    (hhead : vs.head? = ws.head?) (hgaps : gaps vs = gaps ws)
    (hordinates : vs.map (·.y) = ws.map (·.y)) : vs = ws := by
  cases vs with
  | nil =>
      rw [List.map_nil, eq_comm, List.map_eq_nil_iff] at hordinates
      exact hordinates.symm
  | cons v rest =>
      cases ws with
      | nil => cases hhead
      | cons w rest' =>
          cases hhead
          rw [tail_eq_of_gaps (fun a ha => hflat a (List.mem_cons_of_mem _ ha))
            (fun b hb => hflat' b (List.mem_cons_of_mem _ hb)) hgaps (List.cons.inj hordinates).2]

end Turned

/-! ## Compensation -/

section Compensation

variable [LinearOrder K]

/-- Consecutive vertices are less than half a period apart. -/
def Steady (radius : K) (vs : List (Vertex K)) : Prop :=
  vs.IsChain fun v w => |w.x - v.x| < radius

/-- What a jump is once it is compensated. -/
def calmed (radius jump : K) : K :=
  if radius < jump then jump - 2 * radius
  else if jump < -radius then jump + 2 * radius
  else jump

theorem exists_calmed (radius jump : K) :
    ∃ m : Int, calmed radius jump = jump + 2 * radius * m := by
  rw [calmed]
  split
  · exact ⟨-1, by push_cast; ring⟩
  · split
    · exact ⟨1, by push_cast; ring⟩
    · exact ⟨0, by simp⟩

theorem compensation_finite [FloorRing K] (radius jump : K) :
    Unwrap.compensation (Extended.finite radius) (.finite jump) =
      .finite (calmed radius jump - jump) := by
  simp only [Unwrap.compensation, calmed, Extended.ofNat_eq, Extended.finite_mul,
    Extended.finite_neg, Extended.zero_eq, Extended.finite_lt_finite]
  split
  · congr 1
    ring
  · split
    · congr 1
      ring
    · rw [sub_self]

section Ordered

variable [IsStrictOrderedRing K] {radius : K}

/-- A compensated jump is at most half a period exactly if the jump was at most three halves. -/
theorem abs_calmed_le_iff (hpos : 0 < radius) (jump : K) :
    |calmed radius jump| ≤ radius ↔ |jump| ≤ 3 * radius := by
  rw [calmed, abs_le, abs_le]
  split
  · constructor <;> (intro; constructor <;> linarith)
  · split <;> constructor <;> (intro; constructor <;> linarith)

/-- Jumps that are not compensated are those of at most half a period. -/
theorem calmed_eq_self_iff (hpos : 0 < radius) (jump : K) :
    calmed radius jump = jump ↔ |jump| ≤ radius := by
  rw [calmed, abs_le]
  split
  next hwide => exact iff_of_false (by linarith) (by rintro ⟨-, hle⟩; linarith)
  next hnarrow =>
    split
    next hwide => exact iff_of_false (by linarith) (by rintro ⟨hle, -⟩; linarith)
    next hnarrow' => exact iff_of_true rfl ⟨not_lt.mp hnarrow', not_lt.mp hnarrow⟩

/-- Of a step shorter than half a period, a jump of no more than a period is at most one period
off. -/
theorem turns_of_step {step jump : K} {m : Int} (hstep : |step| < radius)
    (hjump : |jump| ≤ 2 * radius) (heq : jump = step + 2 * radius * m) :
    m = 0 ∨ m = 1 ∨ m = -1 := by
  rw [abs_lt] at hstep
  rw [abs_le] at hjump
  have hlow : (-2 : K) < m := by
    by_contra hnot
    nlinarith
  have hhigh : (m : K) < 2 := by
    by_contra hnot
    nlinarith
  have hlow' : -2 < m := by exact_mod_cast hlow
  have hhigh' : m < 2 := by exact_mod_cast hhigh
  omega

/-- Compensation turns such a jump back into the step. -/
theorem calmed_of_step {step jump : K} {m : Int} (hstep : |step| < radius)
    (hjump : |jump| ≤ 2 * radius) (heq : jump = step + 2 * radius * m) :
    calmed radius jump = step := by
  have hturns := turns_of_step hstep hjump heq
  rw [abs_lt] at hstep
  rw [calmed, heq]
  rcases hturns with rfl | rfl | rfl
  · rw [Int.cast_zero, mul_zero, add_zero, if_neg (by linarith), if_neg (by linarith)]
  · rw [Int.cast_one, mul_one, if_pos (by linarith), add_sub_cancel_right]
  · rw [Int.cast_neg, Int.cast_one, if_neg (by linarith), if_pos (by linarith)]
    ring

end Ordered

/-! ## Unwrapping -/

variable [FloorRing K]

/-- After whole periods have been compensated, the rest of a list is moved by whole periods, too,
and its jumps are compensated. -/
theorem exists_zipWith_moves (radius : K) (v : Vertex K) (rest : List (Vertex K)) (total : Int) :
    ∃ ws : List (Vertex K),
      List.zipWith (fun (w : Vertex (Extended K)) move => { x := w.x + move, y := w.y })
        (rest.map Vertex.finite)
        (Scalar.runningSums (.finite (2 * radius * total))
          ((Unwrap.jumps ((v :: rest).map Vertex.finite)).map
            (Unwrap.compensation (.finite radius)))) = ws.map Vertex.finite ∧
      AreTurned radius rest ws ∧
      gaps (v.settle (2 * radius * total) :: ws) = (gaps (v :: rest)).map (calmed radius) := by
  induction rest generalizing v total with
  | nil => exact ⟨[], rfl, .nil, rfl⟩
  | cons w rest ih =>
      obtain ⟨m, hm⟩ := exists_calmed radius (w.x - v.x)
      obtain ⟨ws, hws, hturned, hgaps⟩ := ih w (total + m)
      have htotal : 2 * radius * total + (calmed radius (w.x - v.x) - (w.x - v.x)) =
          2 * radius * ((total + m : Int) : K) := by
        rw [hm]
        push_cast
        ring
      refine ⟨w.settle (2 * radius * ((total + m : Int) : K)) :: ws, ?_, .cons ⟨_, rfl⟩ hturned, ?_⟩
      · rw [List.map_cons, List.map_cons, List.map_cons, Unwrap.jumps, List.map_cons,
          Scalar.runningSums, List.zipWith_cons_cons, Vertex.finite_x, Vertex.finite_x,
          Extended.finite_sub, compensation_finite, Extended.finite_add, htotal, ← List.map_cons,
          hws, List.map_cons]
        rfl
      · rw [gaps, hgaps, gaps, List.map_cons, ← htotal]
        congr 1
        simp only [Vertex.settle]
        ring

/-- What a list of vertices is once it is unwrapped: it starts where it did, its vertices are moved
by whole periods, and its jumps are compensated. -/
structure Straightens (radius : K) (vs ws : List (Vertex K)) : Prop where
  unwrapped : Unwrap.vertices (.finite radius) (vs.map Vertex.finite) = ws.map Vertex.finite
  turned : AreTurned radius vs ws
  head_eq : ws.head? = vs.head?.map (Vertex.settle 0)
  gaps_eq : gaps ws = (gaps vs).map (calmed radius)

theorem exists_straightens (radius : K) (vs : List (Vertex K)) :
    ∃ ws, Straightens radius vs ws := by
  cases vs with
  | nil => exact ⟨[], rfl, .nil, rfl, rfl⟩
  | cons v rest =>
      obtain ⟨ws, hws, hturned, hgaps⟩ := exists_zipWith_moves radius v rest 0
      rw [Int.cast_zero, mul_zero] at hws hgaps
      refine ⟨v.settle 0 :: ws, ?_, .cons ⟨0, by simp⟩ hturned, rfl, hgaps⟩
      rw [List.map_cons, List.map_cons, Unwrap.vertices, ← List.map_cons, Extended.zero_eq, hws]
      simp [Vertex.flat, Vertex.finite, Vertex.convert, Vertex.settle]

/-- Unwrapping moves every vertex of a list by whole periods. -/
theorem exists_unwrapped (radius : K) (vs : List (Vertex K)) :
    ∃ ws : List (Vertex K), Unwrap.vertices (.finite radius) (vs.map Vertex.finite) =
      ws.map Vertex.finite ∧ AreTurned radius vs ws := by
  obtain ⟨ws, hws⟩ := exists_straightens radius vs
  exact ⟨ws, hws.unwrapped, hws.turned⟩

variable [IsStrictOrderedRing K] {radius : K}

/-- Unwrapping changes nothing in a list without heights exactly if none of its jumps is wider than
half a period. -/
theorem unwrap_eq_self_iff (hpos : 0 < radius) {vs : List (Vertex K)}
    (hflat : ∀ v ∈ vs, v.z = none) :
    Unwrap.vertices (.finite radius) (vs.map Vertex.finite) = vs.map Vertex.finite ↔
      ∀ jump ∈ gaps vs, |jump| ≤ radius := by
  obtain ⟨ws, hws, hturned, hhead, hgaps⟩ := exists_straightens radius vs
  have hstart : vs.head?.map (Vertex.settle 0) = vs.head? := by
    cases vs with
    | nil => rfl
    | cons v rest =>
        have hz : v.z = none := hflat v List.mem_cons_self
        simp [Vertex.settle, ← hz]
  have hsame : ws = vs ↔ gaps ws = gaps vs :=
    ⟨congrArg gaps, fun heq => eq_of_gaps hturned.flat hflat (hhead.trans hstart) heq hturned.map_y⟩
  have hcalm := List.map_inj_left (l := gaps vs) (f := calmed radius) (g := id)
  rw [List.map_id, ← hgaps] at hcalm
  rw [hws, Vertex.finite_injective.list_map.eq_iff, hsame, hcalm]
  exact forall₂_congr fun jump _ => calmed_eq_self_iff hpos jump

/-! ## Folded lists -/

/-- Whether the vertices of a list are those of another one, moved by whole periods into the window
of a period that starts at `low`. A vertex at one end of the window might as well be at the
other. -/
def AreFolded (radius low : K) : List (Vertex K) → List (Vertex K) → Prop :=
  List.Forall₂ fun v u => (∃ m : Int, u.x = v.x + 2 * radius * m) ∧ u.y = v.y ∧
    u.x ∈ Set.Icc low (low + 2 * radius)

variable {low : K} {vs us : List (Vertex K)}

omit [FloorRing K] [IsStrictOrderedRing K] in
theorem AreFolded.map_y (hfolded : AreFolded radius low vs us) :
    us.map (·.y) = vs.map (·.y) := by
  induction hfolded with
  | nil => rfl
  | cons hfirst _ ih => rw [List.map_cons, List.map_cons, ih, hfirst.2.1]

omit [FloorRing K] in
/-- The jumps of a folded list are compensated to the steps of the list. -/
theorem AreFolded.map_calmed (hfolded : AreFolded radius low vs us) (hsteady : Steady radius vs) :
    (gaps us).map (calmed radius) = gaps vs := by
  induction hfolded with
  | nil => rfl
  | cons hfirst hrest ih =>
      cases hrest with
      | nil => rfl
      | cons hsecond hrest =>
          obtain ⟨hstep, hsteady⟩ := List.isChain_cons_cons.mp hsteady
          obtain ⟨⟨m, hm⟩, -, hlow, hhigh⟩ := hfirst
          obtain ⟨⟨n, hn⟩, -, hlow', hhigh'⟩ := hsecond
          rw [gaps, gaps, List.map_cons, ih hsteady]
          congr 1
          apply calmed_of_step hstep (m := n - m)
          · rw [abs_le]
            constructor <;> linarith
          · rw [hm, hn]
            push_cast
            ring

/-- Unwrapping undoes folding, but for how far the first vertex was moved. -/
theorem AreFolded.unwrap (hfolded : AreFolded radius low vs us) (hsteady : Steady radius vs)
    {dx : K} (hdx : ∀ v ∈ vs.head?, ∀ u ∈ us.head?, u.x = v.x + dx) :
    Unwrap.vertices (.finite radius) (us.map Vertex.finite) =
      (vs.map (Vertex.settle dx)).map Vertex.finite := by
  obtain ⟨ws, hws, hturned, hhead, hgaps⟩ := exists_straightens radius us
  have hstart : us.head?.map (Vertex.settle 0) = (vs.map (Vertex.settle dx)).head? := by
    cases hfolded with
    | nil => rfl
    | cons hfirst hrest =>
        simp [Vertex.settle, hdx _ rfl _ rfl, hfirst.2.1]
  have hordinates : ws.map (·.y) = (vs.map (Vertex.settle dx)).map (·.y) := by
    rw [hturned.map_y, hfolded.map_y, List.map_map]
    rfl
  rw [hws, eq_of_gaps hturned.flat (by simp [Vertex.settle]) (hhead.trans hstart) _ hordinates]
  rw [hgaps, hfolded.map_calmed hsteady, gaps_map_settle]

/-- Unwrapping undoes every folding of a list of short steps, the list being moved by the whole
periods by which its first vertex was. Jumps of any list are reduced to half a period exactly if
none exceeds three halves of one, and exactly then unwrapping for a second time changes nothing. -/
theorem unwrapping_undoes_folding (hpos : 0 < radius) :
    (∀ (low : K) (vs us : List (Vertex K)), Steady radius vs → AreFolded radius low vs us →
      ∃ m : Int, (∀ v ∈ vs.head?, ∀ u ∈ us.head?, u.x = v.x + 2 * radius * m) ∧
        Unwrap.vertices (.finite radius) (us.map Vertex.finite) =
          (vs.map (Vertex.settle (2 * radius * m))).map Vertex.finite) ∧
      ∀ vs : List (Vertex K), ∃ ws,
        Unwrap.vertices (.finite radius) (vs.map Vertex.finite) = ws.map Vertex.finite ∧
        ((∀ jump ∈ gaps vs, |jump| ≤ 3 * radius) ↔ ∀ jump ∈ gaps ws, |jump| ≤ radius) ∧
        ((∀ jump ∈ gaps vs, |jump| ≤ 3 * radius) ↔
          Unwrap.vertices (.finite radius) (ws.map Vertex.finite) = ws.map Vertex.finite) := by
  constructor
  · intro low vs us hsteady hfolded
    have hfirst : ∃ m : Int, ∀ v ∈ vs.head?, ∀ u ∈ us.head?, u.x = v.x + 2 * radius * m := by
      cases hfolded with
      | nil => exact ⟨0, by simp⟩
      | cons hfirst _ =>
          obtain ⟨⟨m, hm⟩, -⟩ := hfirst
          exact ⟨m, by simpa using hm⟩
    obtain ⟨m, hm⟩ := hfirst
    exact ⟨m, hm, hfolded.unwrap hsteady hm⟩
  · intro vs
    obtain ⟨ws, hws, hturned, -, hgaps⟩ := exists_straightens radius vs
    have hwithin : (∀ jump ∈ gaps vs, |jump| ≤ 3 * radius) ↔ ∀ jump ∈ gaps ws, |jump| ≤ radius := by
      rw [hgaps, List.forall_mem_map]
      exact forall₂_congr fun jump _ => (abs_calmed_le_iff hpos jump).symm
    refine ⟨ws, hws, hwithin, ?_⟩
    rw [hwithin, unwrap_eq_self_iff hpos hturned.flat]

/-- A line across the seam, folded with a vertex on it, is recovered a period to the west. Of a jump
of almost three halves of a period, unwrapping leaves less than half of one. -/
theorem unwrapping_recovers_line_on_seam :
    let vs : List (Vertex ℚ) := [⟨530, 0, none⟩, ⟨540, 10, none⟩, ⟨560, 20, none⟩]
    let us : List (Vertex ℚ) := [⟨170, 0, none⟩, ⟨-180, 10, none⟩, ⟨-160, 20, none⟩]
    let wide : List (Vertex ℚ) := [⟨0, 0, none⟩, ⟨500, 0, none⟩]
    0 < (180 : ℚ) ∧ Steady 180 vs ∧ AreFolded 180 (-180) vs us ∧
      Unwrap.vertices (.finite 180) (us.map Vertex.finite) =
        (vs.map (Vertex.settle (2 * 180 * ((-1 : Int) : ℚ)))).map Vertex.finite ∧
      (∀ jump ∈ gaps wide, |jump| ≤ 3 * (180 : ℚ)) ∧
      ∃ ws, Unwrap.vertices (.finite 180) (wide.map Vertex.finite) = ws.map Vertex.finite ∧
        (∀ jump ∈ gaps ws, |jump| ≤ 180) ∧
        Unwrap.vertices (.finite 180) (ws.map Vertex.finite) = ws.map Vertex.finite := by
  intro vs us wide
  have hpos : 0 < (180 : ℚ) := by norm_num
  have hsteady : Steady 180 vs := by norm_num [vs, Steady, abs_lt]
  have hfolded : AreFolded 180 (-180) vs us := by
    refine .cons ⟨⟨-1, ?_⟩, ?_⟩ (.cons ⟨⟨-2, ?_⟩, ?_⟩ (.cons ⟨⟨-2, ?_⟩, ?_⟩ .nil)) <;> norm_num
  obtain ⟨hundoes, hsettles⟩ := unwrapping_undoes_folding hpos
  obtain ⟨m, hm, hrecovered⟩ := hundoes (-180) vs us hsteady hfolded
  have hturns : (m : ℚ) = (-1 : Int) := by
    have hstart := hm _ rfl _ rfl
    norm_num at hstart
    push_cast
    linarith
  rw [hturns] at hrecovered
  have hwithin : ∀ jump ∈ gaps wide, |jump| ≤ 3 * (180 : ℚ) := by norm_num [wide, gaps, abs_le]
  obtain ⟨ws, hws, hhalf, hfixed⟩ := hsettles wide
  exact ⟨hpos, hsteady, hfolded, hrecovered, hwithin, ws, hws, hhalf.mp hwithin,
    hfixed.mp hwithin⟩

end Compensation

end Antimeridian
