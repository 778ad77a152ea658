import Antimeridian.Proofs.Geometry.Winding
import Antimeridian.Proofs.Scalar.Summation

/-!
# The pole a ring is closed at

A ring that winds is closed along the ordinate of the pole on whose side the mean ordinate of its
vertices lies. The vertex where a ring starts is also its last one and counts twice in that mean.
Where the other vertices leave the mean near the middle between the poles, it is therefore the start
that decides: one and the same ring is closed at different poles when it is listed from different
vertices.
-/

namespace Antimeridian

open Antimeridian.Geometry

/-! ## Closed polygons -/

section Closed

variable {α : Type}

/-- Whether a polygon is closed along an ordinate: its shell ends with a run along it and back to
where it starts. -/
def ClosedAlong (pole : α) (g : Geometry α) : Prop :=
  ∃ core first last inner, core.head? = some first ∧ core.getLast? = some last ∧
    g = .polygon ((core ++ closureAlong pole first last) :: inner)

/-- A polygon is closed along one ordinate at most. -/
theorem ClosedAlong.eq {pole pole' : α} {g : Geometry α} (hclosed : ClosedAlong pole g)
    (hclosed' : ClosedAlong pole' g) : pole = pole' := by
  obtain ⟨core, first, last, inner, -, -, rfl⟩ := hclosed
  obtain ⟨core', first', last', inner', -, -, heq⟩ := hclosed'
  obtain ⟨hshell, -⟩ := List.cons.inj (Geometry.polygon.inj heq)
  have hclosure := List.append_inj_right' hshell rfl
  simp only [closureAlong, List.cons.injEq, Vertex.mk.injEq] at hclosure
  exact hclosure.1.2.1

variable [Scalar α]

/-- A ring is closed along a pole by appending to it, once unwrapped, a run along the ordinate of
the pole it is near to. -/
theorem exists_closure_of_ring {radius south north : α} {vs shell : List (Vertex α)}
    (hok : Unwrap.ring radius (some (south, north)) vs = .ok (some (shell, true))) :
    ∃ first last, (Unwrap.vertices radius vs).head? = some first ∧
      (Unwrap.vertices radius vs).getLast? = some last ∧
      shell = Unwrap.vertices radius vs ++
        closureAlong (Unwrap.nearPole (Unwrap.vertices radius vs) south north) first last := by
  rw [Unwrap.ring] at hok
  split at hok
  next first last hfirst hlast =>
    split at hok
    · cases hok
    · cases hok
      exact ⟨first, last, hfirst, hlast, rfl⟩
  next => cases hok

/-- A ring that goes around a pole is closed there. -/
theorem exists_ring_of_goesAround {radius : α} {vs : List (Vertex α)}
    (haround : Unwrap.goesAround radius vs = true) (south north : α) :
    ∃ shell, Unwrap.ring radius (some (south, north)) vs = .ok (some (shell, true)) := by
  rw [Unwrap.goesAround] at haround
  rw [Unwrap.ring]
  split at haround
  next first last _ _ =>
    rw [Bool.not_eq_true', decide_eq_false_iff_not] at haround
    exact ⟨_, if_neg haround⟩
  next => cases haround

theorem exists_revision_of_goesAround {valid : List (List (Vertex α)) → Bool} {radius : α}
    {vs : List (Vertex α)} (haround : Unwrap.goesAround radius vs = true)
    (hvalid : ∀ rings, valid rings = true) (south north : α) :
    ∃ revision, Unwrap.geometry valid radius (some (south, north)) (.polygon [vs]) =
      .ok (revision, true) := by
  obtain ⟨shell, hshell⟩ := exists_ring_of_goesAround haround south north
  have hpolygon : Unwrap.polygon valid radius (some (south, north)) [vs] =
      .ok (some ([shell], true)) := by
    rw [Unwrap.polygon, List.headD_cons, hshell]
    change (if (true && !valid [shell]) = true then _ else _) = _
    rw [hvalid]
    rfl
  exact ⟨.replaced (.polygon [shell]), by rw [Unwrap.geometry, hpolygon]; rfl⟩

/-- What unwrapping makes of a polygon that is closed at a pole. -/
theorem closedAlong_of_unwrap {valid : List (List (Vertex α)) → Bool} {radius south north : α}
    {shell : List (Vertex α)} {holes : List (List (Vertex α))} {revision : Revision α}
    (hok : Unwrap.geometry valid radius (some (south, north)) (.polygon (shell :: holes)) =
      .ok (revision, true)) :
    ClosedAlong (Unwrap.nearPole (Unwrap.vertices radius shell) south north)
      (revision.applyTo (.polygon (shell :: holes))) := by
  obtain ⟨result, hresult, hok⟩ := bind_eq_ok_iff.mp hok
  rcases result with _ | ⟨unwrapped, atPole⟩
  · cases hok
  · cases hok
    obtain ⟨closed, inner, rfl, hclosed, -⟩ := exists_rings_of_polygon hresult
    obtain ⟨first, last, hfirst, hlast, rfl⟩ := exists_closure_of_ring hclosed
    exact ⟨_, first, last, inner, hfirst, hlast, rfl⟩

end Closed

/-! ## Starts of rings -/

/-- The ring through the vertices of a cycle that starts, and ends, at the `i`-th one. -/
def ringFrom {α : Type} (cycle : List (Vertex α)) (i : Nat) : List (Vertex α) :=
  cycle.rotate i ++ (cycle.rotate i).head?.toList

section Starts

variable {K : Type} [Field K] [LinearOrder K]

/-- Whether the mean ordinate of the ring that starts at the `i`-th vertex of a cycle, that vertex
counted twice, lies south of the middle between two ordinates. -/
def LeansSouth (cycle : List (Vertex K)) (south north : K) (i : Fin cycle.length) : Prop :=
  (cycle.map (·.y)).sum + cycle[i].y < (cycle.length + 1) * ((south + north) / 2)

instance (cycle : List (Vertex K)) (south north : K) :
    DecidablePred (LeansSouth cycle south north) :=
  fun _ => inferInstanceAs (Decidable (_ < _))

omit [Field K] [LinearOrder K] in
theorem ringFrom_eq (cycle : List (Vertex K)) (i : Fin cycle.length) :
    ringFrom cycle i = cycle.rotate i ++ [cycle[i]] := by
  rw [ringFrom, List.head?_rotate i.isLt, List.getElem?_eq_getElem i.isLt]
  rfl

variable [FloorRing K] [IsStrictOrderedRing K]

/-- Near which pole a ring is found is a matter of its mean ordinate, which unwrapping does not
change. -/
theorem nearPole_unwrapped (radius : K) {vs : List (Vertex K)} (hne : vs ≠ []) (south north : K) :
    Unwrap.nearPole (Unwrap.vertices (.finite radius) (vs.map Vertex.finite)) (.finite south)
        (.finite north) =
      .finite (if (vs.map (·.y)).sum < vs.length * ((south + north) / 2) then south
        else north) := by
  obtain ⟨ws, hws, hturned⟩ := exists_unwrapped radius vs
  have hlength : (0 : K) < vs.length := by exact_mod_cast List.length_pos_iff.mpr hne
  have hordinates : (ws.map Vertex.finite).map (·.y) = (vs.map (·.y)).map Extended.finite := by
    rw [← hturned.map_y]
    simp
  rw [hws, Unwrap.nearPole, Unwrap.meanOrdinate, hordinates, Scalar.sum_finite, List.length_map,
    ← hturned.length_eq, Extended.ofInt_eq, Int.cast_natCast, Extended.finite_div _ hlength.ne',
    Extended.finite_add, Extended.ofNat_eq, Extended.finite_div _ two_ne_zero]
  simp only [Extended.finite_lt_finite, div_lt_iff₀' hlength]
  split <;> rfl

/-- The start of a ring decides at which pole it is closed. -/
theorem nearPole_ringFrom (radius : K) (cycle : List (Vertex K)) (i : Fin cycle.length)
    (south north : K) :
    Unwrap.nearPole (Unwrap.vertices (.finite radius) ((ringFrom cycle i).map Vertex.finite))
        (.finite south) (.finite north) =
      .finite (if LeansSouth cycle south north i then south else north) := by
  have hne : ringFrom cycle i ≠ [] := by simp [ringFrom_eq]
  have hsum : ((cycle.rotate i).map (·.y)).sum = (cycle.map (·.y)).sum :=
    ((List.rotate_perm cycle i).map _).sum_eq
  have hleans : LeansSouth cycle south north i ↔
      ((ringFrom cycle i).map (·.y)).sum < (ringFrom cycle i).length * ((south + north) / 2) := by
    rw [LeansSouth, ringFrom_eq, List.map_append, List.sum_append, hsum, List.length_append,
      List.length_rotate]
    simp
  rw [nearPole_unwrapped radius hne]
  simp only [hleans]

variable {radius south north : K} {valid : List (List (Vertex (Extended K))) → Bool}
  {cycle : List (Vertex K)} {holes : List (List (Vertex K))} {i j : Fin cycle.length}
  {revision revision' : Revision (Extended K)}

theorem closedAlong_ringFrom
    (hclosed : Unwrap.geometry valid (.finite radius) (some (.finite south, .finite north))
      (Geometry.polygon (ringFrom cycle i :: holes)).finite = .ok (revision, true)) :
    ClosedAlong (.finite (if LeansSouth cycle south north i then south else north))
      (revision.applyTo (Geometry.polygon (ringFrom cycle i :: holes)).finite) := by
  rw [← nearPole_ringFrom radius]
  exact closedAlong_of_unwrap hclosed

/-- One and the same ring, listed from two of its vertices, is closed at the same pole exactly if
the mean ordinates of both lists, in which the first vertex counts twice, lie on the same side of
the middle between the poles. -/
theorem closed_along_same_pole_iff
    (hclosed : Unwrap.geometry valid (.finite radius) (some (.finite south, .finite north))
      (Geometry.polygon (ringFrom cycle i :: holes)).finite = .ok (revision, true))
    (hclosed' : Unwrap.geometry valid (.finite radius) (some (.finite south, .finite north))
      (Geometry.polygon (ringFrom cycle j :: holes)).finite = .ok (revision', true)) :
    (∃ pole,
      ClosedAlong pole (revision.applyTo (Geometry.polygon (ringFrom cycle i :: holes)).finite) ∧
      ClosedAlong pole (revision'.applyTo (Geometry.polygon (ringFrom cycle j :: holes)).finite)) ↔
      south = north ∨ (LeansSouth cycle south north i ↔ LeansSouth cycle south north j) := by
  -- each listing settles the ordinate along which it is closed
  have halong := closedAlong_ringFrom hclosed
  have halong' := closedAlong_ringFrom hclosed'
  trans (if LeansSouth cycle south north i then south else north) =
    if LeansSouth cycle south north j then south else north
  · constructor
    · rintro ⟨pole, hpole, hpole'⟩
      exact Extended.finite_injective ((halong.eq hpole).trans (hpole'.eq halong'))
    · intro heq
      exact ⟨_, halong, heq ▸ halong'⟩
  · by_cases hi : LeansSouth cycle south north i <;>
      by_cases hj : LeansSouth cycle south north j <;> simp [hi, hj, eq_comm]

end Starts

/-- A ring around the globe with one vertex far in the north and the others in the south is closed
at the northern pole if it is listed from that vertex, and at the southern one if it is listed from
its southernmost vertex. -/
theorem start_decides_pole :
    let cycle : List (Vertex ℚ) :=
      [⟨-135, 80, none⟩, ⟨-45, -10, none⟩, ⟨45, -30, none⟩, ⟨135, -39, none⟩]
    let unwrap (i : Nat) := Unwrap.geometry (fun _ => true) (.finite 180)
      (some (.finite (-90), .finite 90)) (Geometry.polygon [ringFrom cycle i]).finite
    ∃ revision revision', unwrap 0 = .ok (revision, true) ∧ unwrap 3 = .ok (revision', true) ∧
      ¬∃ pole, ClosedAlong pole (revision.applyTo (Geometry.polygon [ringFrom cycle 0]).finite) ∧
        ClosedAlong pole (revision'.applyTo (Geometry.polygon [ringFrom cycle 3]).finite) := by
  intro cycle unwrap
  have hcloses (i : Nat) (haround : Unwrap.goesAround (.finite 180)
      ((ringFrom cycle i).map Vertex.finite) = true) :
      ∃ revision, unwrap i = .ok (revision, true) :=
    exists_revision_of_goesAround haround (fun _ => rfl) (.finite (-90)) (.finite 90)
  obtain ⟨revision, hrevision⟩ := hcloses 0 (by decide +kernel)
  obtain ⟨revision', hrevision'⟩ := hcloses 3 (by decide +kernel)
  refine ⟨revision, revision', hrevision, hrevision', ?_⟩
  refine (closed_along_same_pole_iff (i := 0) (j := 3) hrevision hrevision').not.mpr ?_
  decide +kernel

end Antimeridian
