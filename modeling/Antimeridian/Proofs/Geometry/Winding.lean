import Antimeridian.Proofs.Geometry.Folding
import Antimeridian.Proofs.Geometry.Gathering

/-!
# Rings that close and rings that wind

Unwrapping a list of vertices moves each of them by whole periods. A ring that ends where it starts
therefore ends, once unwrapped, some whole number of periods away. It closes again if that number is
zero. Otherwise it winds around a pole, and is closed along the ordinate of the pole it is near to.
-/

namespace Antimeridian

variable {K : Type}

/-- The vertices that close a ring along an ordinate: from its end, along the ordinate, and back to
its start. -/
def closureAlong (pole : K) (first last : Vertex K) : List (Vertex K) :=
  [{ x := last.x, y := pole }, { x := first.x, y := pole }, first]

theorem getLast?_of_forall₂ {β γ : Type} {R : β → γ → Prop} {bs : List β} {cs : List γ}
    (hall : List.Forall₂ R bs cs) {b : β} (hb : bs.getLast? = some b) :
    ∃ c, cs.getLast? = some c ∧ R b c := by
  induction hall with
  | nil => cases hb
  | cons hfirst hrest ih =>
      cases hrest with
      | nil =>
          cases hb
          exact ⟨_, rfl, hfirst⟩
      | cons => exact ih hb

/-! ## Rings -/

section Rings

variable [Field K] [LinearOrder K] [FloorRing K] {radius : K} {vs ws : List (Vertex K)}
  {first last : Vertex K} {turns : Int}

/-- What a ring is once it is unwrapped: its vertices moved by whole periods, from the first one to
a last one that lies `turns` periods to the east of it. -/
structure Winds (radius : K) (vs ws : List (Vertex K)) (first last : Vertex K) (turns : Int) :
    Prop where
  unwrapped : Unwrap.vertices (.finite radius) (vs.map Vertex.finite) = ws.map Vertex.finite
  turned : AreTurned radius vs ws
  head_eq : ws.head? = some first
  last_eq : ws.getLast? = some last
  turns_eq : last = first.settle (2 * radius * turns)

theorem exists_winds (radius : K) (hcloses : Closes vs) :
    ∃ ws first last turns, Winds radius vs ws first last turns := by
  obtain ⟨ws, hws, hturned⟩ := exists_unwrapped radius vs
  obtain ⟨v, w, hfirst, hlast, hx, hy⟩ := hcloses
  obtain ⟨last, hlast', n, rfl⟩ := getLast?_of_forall₂ hturned hlast
  cases hturned with
  | nil => cases hfirst
  | cons hhead hrest =>
      cases hfirst
      obtain ⟨m, rfl⟩ := hhead
      refine ⟨_, _, _, n - m, hws, .cons ⟨m, rfl⟩ hrest, rfl, hlast', ?_⟩
      simp only [Vertex.settle, Vertex.mk.injEq, hx, hy, and_true]
      push_cast
      ring

theorem Winds.first_mem (hwinds : Winds radius vs ws first last turns) : first ∈ ws :=
  List.mem_of_mem_head? hwinds.head_eq

theorem Winds.last_mem (hwinds : Winds radius vs ws first last turns) : last ∈ ws :=
  List.mem_of_getLast? hwinds.last_eq

theorem nearPole_eq_or (vs : List (Vertex (Extended K))) (south north : Extended K) :
    Unwrap.nearPole vs south north = south ∨ Unwrap.nearPole vs south north = north := by
  rw [Unwrap.nearPole]
  split
  · exact .inl rfl
  · exact .inr rfl

/-- A ring closes or winds: it is given back unwrapped if it ends in the period in which it starts,
and closed along the ordinate of a pole otherwise, if there is one. -/
theorem Winds.ring_eq [IsStrictOrderedRing K] (hwinds : Winds radius vs ws first last turns)
    (hpos : 0 < radius) (poles : Option (Extended K × Extended K)) :
    Unwrap.ring (.finite radius) poles (vs.map Vertex.finite) =
      .ok (if turns = 0 then some (ws.map Vertex.finite, false)
        else poles.map fun p => (ws.map Vertex.finite ++
          closureAlong (Unwrap.nearPole (ws.map Vertex.finite) p.1 p.2) first.finite last.finite,
          true)) := by
  by_cases hzero : turns = 0
  · have hflat := hwinds.turned.flat first hwinds.first_mem
    have hends : last = first := by
      rw [hwinds.turns_eq, hzero, Int.cast_zero, mul_zero, Vertex.settle, add_zero, ← hflat]
    rw [if_pos hzero]
    exact ring_of_ends hpos hwinds.unwrapped hwinds.head_eq (hends ▸ hwinds.last_eq) poles
  · -- ends that are whole periods apart are at least one of them apart
    have hfar : ¬|last.x - first.x| < radius := by
      have hone : (1 : K) ≤ |(turns : K)| := by exact_mod_cast Int.one_le_abs hzero
      rw [hwinds.turns_eq, Vertex.settle, add_sub_cancel_left, abs_mul,
        abs_of_pos (by positivity : 0 < 2 * radius)]
      nlinarith
    rw [if_neg hzero, Unwrap.ring, hwinds.unwrapped, List.head?_map, hwinds.head_eq,
      List.getLast?_map, hwinds.last_eq]
    simp only [Option.map_some, Vertex.finite_x, Extended.finite_sub, Extended.abs_finite,
      Extended.finite_lt_finite, hfar, if_false]
    cases poles <;> rfl

omit [Field K] [LinearOrder K] [FloorRing K] in
/-- Whatever the ordinate, a ring is closed once it is closed along it. -/
theorem closes_append_closureAlong (hhead : ws.head? = some first) (last : Vertex K)
    (pole : Extended K) :
    Closes (ws.map Vertex.finite ++ closureAlong pole first.finite last.finite) := by
  refine ⟨first.finite, first.finite, ?_, ?_, rfl, rfl⟩
  · rw [List.head?_append, List.head?_map, hhead]
    rfl
  · rw [List.getLast?_append]
    rfl

/-- Every ring closes or winds. Once unwrapped it ends some whole number of periods from its start.
If that number is zero, it is given back just so, and is closed. Otherwise it is given back only
where the ordinates of the poles are known: it then goes on from its end to one of the two
ordinates, along it over as many periods as the ring winds, and from there back to its start. -/
theorem ring_closes_or_winds [IsStrictOrderedRing K] (hpos : 0 < radius) (hcloses : Closes vs)
    (poles : Option (Extended K × Extended K)) :
    ∃ ws first last turns, Winds radius vs ws first last turns ∧
      (turns = 0 → Closes ws ∧ Unwrap.ring (.finite radius) poles (vs.map Vertex.finite) =
        .ok (some (ws.map Vertex.finite, false))) ∧
      (turns ≠ 0 →
        (poles = none →
          Unwrap.ring (.finite radius) poles (vs.map Vertex.finite) = .ok none) ∧
        ∀ south north, poles = some (south, north) → ∃ pole, (pole = south ∨ pole = north) ∧
          let closed := ws.map Vertex.finite ++
            [{ x := .finite last.x, y := pole },
              { x := .finite (last.x - 2 * radius * turns), y := pole }, first.finite]
          Unwrap.ring (.finite radius) poles (vs.map Vertex.finite) = .ok (some (closed, true)) ∧
            Closes closed) := by
  obtain ⟨ws, first, last, turns, hwinds⟩ := exists_winds radius hcloses
  have hring := hwinds.ring_eq hpos poles
  refine ⟨ws, first, last, turns, hwinds, ?_, ?_⟩
  · intro hzero
    rw [if_pos hzero] at hring
    refine ⟨⟨first, last, hwinds.head_eq, hwinds.last_eq, ?_⟩, hring⟩
    simp [hwinds.turns_eq, hzero, Vertex.settle]
  · intro haround
    rw [if_neg haround] at hring
    constructor
    · intro hnone
      rw [hring, hnone, Option.map_none]
    · intro south north hsome
      have hback : last.x - 2 * radius * turns = first.x := by
        rw [hwinds.turns_eq, Vertex.settle, add_sub_cancel_right]
      rw [hback]
      refine ⟨_, nearPole_eq_or (ws.map Vertex.finite) south north, ?_,
        closes_append_closureAlong hwinds.head_eq last _⟩
      rw [hring, hsome]
      rfl

/-- A ring that winds around a pole twice, to the west, is closed over two periods. -/
theorem ring_winds_twice :
    let vs : List (Vertex ℚ) := [⟨0, 70, none⟩, ⟨-120, 75, none⟩, ⟨120, 80, none⟩, ⟨0, 65, none⟩,
      ⟨-120, 70, none⟩, ⟨120, 75, none⟩, ⟨0, 70, none⟩]
    0 < (180 : ℚ) ∧ Closes vs ∧ ∃ ws first last, Winds 180 vs ws first last (-2) ∧
      ∃ pole, (pole = Extended.finite (-90) ∨ pole = Extended.finite 90) ∧
        Unwrap.ring (.finite 180) (some (.finite (-90), .finite 90)) (vs.map Vertex.finite) =
          .ok (some (ws.map Vertex.finite ++
            [{ x := .finite last.x, y := pole },
              { x := .finite (last.x - 2 * 180 * ((-2 : Int) : ℚ)), y := pole },
              first.finite], true)) := by
  intro vs
  have hcloses : Closes vs := ⟨⟨0, 70, none⟩, ⟨0, 70, none⟩, rfl, rfl, rfl, rfl⟩
  obtain ⟨ws, first, last, turns, hwinds, -, haround⟩ := ring_closes_or_winds
    (by norm_num : 0 < (180 : ℚ)) hcloses (some (.finite (-90), .finite 90))
  have hunwrapped : Unwrap.vertices (.finite 180) (vs.map Vertex.finite) =
      [(⟨0, 70, none⟩ : Vertex ℚ), ⟨-120, 75, none⟩, ⟨-240, 80, none⟩, ⟨-360, 65, none⟩,
        ⟨-480, 70, none⟩, ⟨-600, 75, none⟩, ⟨-720, 70, none⟩].map Vertex.finite := by
    simp only [vs, List.map_cons, List.map_nil, Unwrap.vertices, Unwrap.jumps, Scalar.runningSums,
      Vertex.finite_x, Extended.finite_sub, compensation_finite, Extended.zero_eq,
      Extended.finite_add, List.zipWith_cons_cons]
    norm_num [calmed, Vertex.finite, Vertex.convert, Vertex.flat]
  have hws := Vertex.finite_injective.list_map (hwinds.unwrapped.symm.trans hunwrapped)
  have hfirst := hwinds.head_eq
  have hlast := hwinds.last_eq
  rw [hws] at hfirst hlast
  cases hfirst
  cases hlast
  have hturns : (turns : ℚ) = (-2 : Int) := by
    have hx := congrArg Vertex.x hwinds.turns_eq
    norm_num [Vertex.settle] at hx
    push_cast
    linarith
  rw [Int.cast_inj] at hturns
  rw [hturns] at hwinds haround
  obtain ⟨pole, hpole, hring, -⟩ := (haround (by decide)).2 _ _ rfl
  exact ⟨by norm_num, hcloses, ws, _, _, hwinds, pole, hpole, hring⟩

end Rings

/-! ## Polygons -/

/-- A polygon that is unwrapped has its shell and all of its holes unwrapped. -/
theorem exists_rings_of_polygon {α : Type} [Scalar α] {valid : List (List (Vertex α)) → Bool}
    {radius : α} {poles : Option (α × α)} {rings unwrapped : List (List (Vertex α))}
    {atPole : Bool}
    (hok : Unwrap.polygon valid radius poles rings = .ok (some (unwrapped, atPole))) :
    ∃ shell inner, unwrapped = shell :: inner ∧
      Unwrap.ring radius poles (rings.headD []) = .ok (some (shell, atPole)) ∧
      Unwrap.holes radius rings.tail = .ok (some inner) := by
  obtain ⟨shell, hshell, hok⟩ := bind_eq_ok_iff.mp hok
  cases shell with
  | none => cases hok
  | some shell =>
      obtain ⟨inner, hinner, hok⟩ := bind_eq_ok_iff.mp hok
      cases inner with
      | none => cases hok
      | some inner =>
          change (if (shell.2 && !valid (shell.1 :: inner)) = true then pure none
            else pure (some (shell.1 :: inner, shell.2))) = Except.ok _ at hok
          split at hok
          · cases hok
          · cases hok
            exact ⟨shell.1, inner, rfl, hshell, hinner⟩

end Antimeridian
