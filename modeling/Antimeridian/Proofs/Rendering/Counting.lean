import Antimeridian.Proofs.Rendering.Replication

/-!
# The copies of a geometry

Working on a rendered geometry makes one or more copies of it, or of what stitching makes of it,
moved by different numbers of whole periods up to the cap. They are counted, the first one aside,
and then gathered. Copies that cannot be gathered have been counted, too.
-/

namespace Antimeridian.Rendering

open Antimeridian.Geometry

variable {α : Type} [Scalar α] (setting : Setting α) (r : Rendering α)

/-! ## Making copies -/

/-- The copies of a geometry for every place where a range of abscissas is visible, or the geometry
itself where there is none. -/
def copiesIn (cycle : Cycle α) (g : Geometry α) (west east : α) :
    Except (Failure α) (List (Geometry α)) := do
  let ks ← visibleOffsets r.area cycle.radius r.cap west east
  (if ks = [] then [0] else ks).mapM (copyAt cycle.radius g)

/-- The copies a geometry in the rendering system is shown as. What reprojecting may have torn is
stitched together first. -/
def copies (transform : Option (Transform α)) (g : Geometry α) :
    Except (Failure α) (List (Geometry α)) :=
  match r.cycle, g.bounds? with
  | some cycle, some (minx, _, maxx, _) => do
    if visibleOnce r.area cycle.radius minx maxx then return [g]
    let width := maxx - minx
    let reprojected := (transform.map (!·.isIdentity)).getD false
    if reprojected && cycle.radius < width && width < 2 * cycle.radius then
      let (current, west, east) ← stitch setting cycle g minx maxx
      r.copiesIn cycle (current.applyTo g) west east
    else r.copiesIn cycle g minx maxx
  | _, _ => return [g]

/-- Work that gathers copies and counts them, the first one aside. -/
def Gathers (g : Geometry α) (work : Action α (Revision α))
    (made : Except (Failure α) (List (Geometry α))) : Prop :=
  ∀ s, ((·.applyTo g) <$> work).outcome s =
    match made with
    | .error failure => (.error failure, s)
    | .ok copies =>
      (gathered copies, { s with copiesMade := s.copiesMade + (copies.length - 1) })

omit [Scalar α] in
theorem gathers_kept (g : Geometry α) : Gathers g (pure .kept) (.ok [g]) := fun _ => rfl

omit [Scalar α] in
theorem Gathers.ok_bind {β : Type} {g : Geometry α} {b : β} {next : β → Action α (Revision α)}
    {made : Except (Failure α) (List (Geometry α))} (hnext : Gathers g (next b) made) :
    Gathers g (liftM (Except.ok b : Except (Failure α) β) >>= next) made := hnext

omit [Scalar α] in
/-- What does not touch the state may come first. -/
theorem Gathers.lift_bind {β : Type} {g : Geometry α} {next : β → Action α (Revision α)}
    {made : β → Except (Failure α) (List (Geometry α))} (result : Except (Failure α) β)
    (hnext : ∀ b, Gathers g (next b) (made b)) :
    Gathers g (liftM result >>= next) (result >>= made) := by
  intro s
  cases result with
  | error failure => rfl
  | ok b => exact hnext b s

theorem gathers_replicate (cycle : Cycle α) (current : Revision α) (g : Geometry α)
    (west east : α) :
    Gathers g (r.replicate cycle current g west east)
      (r.copiesIn cycle (current.applyTo g) west east) := by
  intro s
  rw [Action.outcome_map, copiesIn]
  cases hoffsets : visibleOffsets r.area cycle.radius r.cap west east with
  | error failure =>
      rw [replicate, Action.outcome_bind, Action.outcome_lift, hoffsets]
      rfl
  | ok ks =>
      rw [outcome_replicate hoffsets]
      by_cases hstays : ks = [] ∨ ks = [0]
      · rw [if_pos hstays]
        rcases hstays with rfl | rfl <;> rfl
      · have hne : ks ≠ [] := fun hnil => hstays (.inl hnil)
        simp only [bind, Except.bind, if_neg hstays, if_neg hne]
        cases ks.mapM (copyAt cycle.radius (current.applyTo g)) with
        | error failure => rfl
        | ok made =>
            dsimp only
            cases gathered made <;> rfl

theorem gathers_postProcess (transform : Option (Transform α)) {g : Geometry α}
    (hne : g.isEmpty = false) :
    Gathers g (r.postProcess setting transform (some g)) (r.copies setting transform g) := by
  unfold postProcess copies
  rw [checkGeometry_some hne]
  refine .ok_bind ?_
  rcases r.cycle with _ | cycle
  · exact gathers_kept g
  · rcases g.bounds? with _ | ⟨minx, miny, maxx, maxy⟩
    · exact gathers_kept g
    · dsimp only
      split
      · exact gathers_kept g
      · split
        · exact .lift_bind _ fun _ => gathers_replicate r _ _ _ _ _
        · exact gathers_replicate r _ _ _ _ _

/-- Copies of one geometry, moved by different numbers of whole periods up to the cap, if at all. -/
def AreMoves (r : Rendering α) (whole : Geometry α) (made : List (Geometry α)) : Prop :=
  made = [whole] ∨ ∃ cycle ∈ r.cycle, ∃ ks : List Int, ks ≠ [] ∧ ks.Nodup ∧
    (∀ k ∈ ks, k.natAbs ≤ r.cap.toNat) ∧ ks.mapM (copyAt cycle.radius whole) = .ok made

variable {setting r} {cycle : Cycle α} {g whole : Geometry α} {made : List (Geometry α)}

theorem AreMoves.length_le (hmade : AreMoves r whole made) :
    made.length ≤ 2 * r.cap.toNat + 1 := by
  obtain rfl | ⟨cycle, -, ks, -, hnodup, hcap, hok⟩ := hmade
  · simp
  · have hsub : ks.toFinset ⊆ Finset.Icc (-(r.cap.toNat : Int)) r.cap.toNat := by
      intro k hk
      have hle := hcap k (List.mem_toFinset.mp hk)
      rw [Finset.mem_Icc]
      omega
    have hcard := Finset.card_le_card hsub
    rw [List.toFinset_card_of_nodup hnodup, Int.card_Icc] at hcard
    rw [← (forall₂_of_mapM hok).length_eq]
    omega

theorem AreMoves.length_pos (hmade : AreMoves r whole made) : 0 < made.length := by
  obtain rfl | ⟨cycle, -, ks, hne, -, -, hok⟩ := hmade
  · simp
  · rw [← (forall₂_of_mapM hok).length_eq]
    exact List.length_pos_iff.mpr hne

theorem exists_offsets_of_visibleOffsets {area : Envelope α} {radius west east : α} {cap : Int}
    {ks : List Int} (hoffsets : visibleOffsets area radius cap west east = .ok ks) :
    ∃ low high, ks = Envelope.offsets (max low (-cap)) (min high cap) := by
  obtain ⟨low, -, hoffsets⟩ := bind_eq_ok_iff.mp hoffsets
  obtain ⟨high, -, hoffsets⟩ := bind_eq_ok_iff.mp hoffsets
  exact ⟨_, _, (Except.ok.inj hoffsets).symm⟩

theorem areMoves_of_copiesIn (hcycle : r.cycle = some cycle) {west east : α}
    (hmade : r.copiesIn cycle g west east = .ok made) : AreMoves r g made := by
  obtain ⟨ks, hoffsets, hcopies⟩ := bind_eq_ok_iff.mp hmade
  obtain ⟨low, high, rfl⟩ := exists_offsets_of_visibleOffsets hoffsets
  split at hcopies
  · exact .inl (Except.ok.inj hcopies).symm
  next hne =>
    refine .inr ⟨cycle, hcycle, _, hne, Envelope.nodup_offsets _ _, fun k hk => ?_, hcopies⟩
    have hbounds := Envelope.mem_offsets.mp hk
    omega

/-- What a geometry becomes before it is copied: itself, or what stitching makes of it. -/
def IsWhole (setting : Setting α) (r : Rendering α) (g whole : Geometry α) : Prop :=
  whole = g ∨ ∃ cycle ∈ r.cycle, ∃ west east rev range,
    stitch setting cycle g west east = .ok (rev, range) ∧ whole = rev.applyTo g

theorem exists_whole_of_copies {transform : Option (Transform α)}
    (hmade : r.copies setting transform g = .ok made) :
    ∃ whole, IsWhole setting r g whole ∧ AreMoves r whole made := by
  unfold copies at hmade
  split at hmade
  next cycle minx miny maxx maxy hcycle _ =>
    split at hmade
    · exact ⟨g, .inl rfl, .inl (Except.ok.inj hmade).symm⟩
    · dsimp only at hmade
      split at hmade
      · obtain ⟨⟨rev, west, east⟩, hstitch, hcopies⟩ := bind_eq_ok_iff.mp hmade
        exact ⟨rev.applyTo g, .inr ⟨cycle, hcycle, _, _, rev, _, hstitch, rfl⟩,
          areMoves_of_copiesIn hcycle hcopies⟩
      · exact ⟨g, .inl rfl, areMoves_of_copiesIn hcycle hmade⟩
  next => exact ⟨g, .inl rfl, .inl (Except.ok.inj hmade).symm⟩

omit [Scalar α] in
theorem not_gathered_iff {result : Except (Failure α) (Revision α)} {g : Geometry α}
    {made : List (Geometry α)} (heq : (·.applyTo g) <$> result = gathered made)
    (hpos : 0 < made.length) :
    (∀ whole, gathered made ≠ .ok whole) ↔ result.isOk = false ∧ 0 < made.length - 1 := by
  rw [← heq]
  cases result with
  | ok rev => simp [Functor.map, Except.map, Except.isOk, Except.toBool]
  | error failure =>
      have hlength : made.length ≠ 1 := by
        intro hone
        obtain ⟨copy, rfl⟩ := List.length_eq_one_iff.mp hone
        cases heq
      refine iff_of_true (fun whole => ?_) ⟨rfl, by omega⟩
      simp [Functor.map, Except.map]

end Antimeridian.Rendering
