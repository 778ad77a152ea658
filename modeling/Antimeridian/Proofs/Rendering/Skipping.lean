import Antimeridian.Proofs.Rendering.Sessions

/-!
# Leaving out the cut

Whether a geometry has to be cut is asked before it is, and a geometry that does not have to be is
reprojected as it is. Nothing shows that the cut was left out: it would have given the geometry
itself, now or at any later time at which the choice about the antimeridian is the same. Rendering
comes to what it comes to when every geometry is cut, and fails where that fails. The two failures
can differ only where both the queries and the part of the valid area around the geometry are
missing, since they are looked for in opposite orders.
-/

namespace Antimeridian.Rendering

variable {α : Type} [Scalar α] (setting : Setting α) (r : Rendering α)

/-- What becomes of a geometry that has been cut, or did not have to be. -/
def renderCut (transform : Transform α) (cut : Geometry α) : Action α (Option (Geometry α)) := do
  if cut.isEmpty then return none
  let projected ← transform.geometry cut
  if projected.isEmpty then return none
  return some ((← r.postProcess setting transform projected).applyTo projected)

/-- Rendering that cuts every geometry, whether it has to be cut or not. -/
def renderCutting (transform : Transform α) (g : Option (Geometry α)) :
    Action α (Option (Geometry α)) := do
  let some g := g | return none
  if g.isEmpty then return none
  r.renderCut setting transform (← (·.applyTo g) <$> r.preProcess setting g)

variable {setting r} {s s' later : State α} {found : List (Envelope α)} {g : Geometry α}

/-! ## Queries -/

theorem outcome_queries_eq_ok_iff :
    (r.queries setting).outcome s = (.ok found, s') ↔
      (s.queries = some found ∨
        s.queries = none ∧ r.plan setting s.acrossDateline = .ok found) ∧
      s' = { s with queries := some found } := by
  rw [outcome_queries_eq]
  obtain ⟨across, kept, made⟩ := s
  cases kept with
  | some own =>
      simp only [Prod.mk.injEq, Except.ok.injEq, Option.some.injEq, reduceCtorEq, false_and,
        or_false]
      constructor
      · rintro ⟨rfl, rfl⟩
        exact ⟨rfl, rfl⟩
      · rintro ⟨rfl, rfl⟩
        exact ⟨rfl, rfl⟩
  | none =>
      cases r.plan setting across with
      | error failure => simp
      | ok own =>
          simp only [Prod.mk.injEq, Except.ok.injEq, reduceCtorEq, true_and, false_or]
          constructor
          · rintro ⟨rfl, rfl⟩
            exact ⟨rfl, rfl⟩
          · rintro ⟨rfl, rfl⟩
            exact ⟨rfl, rfl⟩

/-- Queries that were found once are found again as long as the choice is the same, whether they
have been kept in between or not. -/
theorem outcome_queries_later (hqueries : (r.queries setting).outcome s = (.ok found, s'))
    (hchoice : later.acrossDateline = s.acrossDateline)
    (hkept : later.queries = s.queries ∨ later.queries = s'.queries) :
    (r.queries setting).outcome later = (.ok found, { later with queries := some found }) := by
  rw [outcome_queries_eq_ok_iff] at hqueries ⊢
  obtain ⟨hfound, rfl⟩ := hqueries
  refine ⟨?_, rfl⟩
  rcases hkept with hkept | hkept
  · rwa [hkept, hchoice]
  · exact .inl hkept

theorem outcome_queries_again (hqueries : (r.queries setting).outcome s = (.ok found, s')) :
    (r.queries setting).outcome s' = (.ok found, s') := by
  obtain ⟨-, rfl⟩ := outcome_queries_eq_ok_iff.mp hqueries
  exact outcome_queries_later hqueries rfl (.inr rfl)

/-! ## Asking for the cut -/

/-- Everything that asking whether a geometry has to be cut can come to: the answer may be known
without the queries, the part of the valid area around the geometry or the queries may be missing,
and with both of them the mask decides. -/
theorem requiresProcessing_cases (hne : g.isEmpty = false) (s : State α) :
    let e := Envelope.ofGeometry g (some r.source)
    (r.requiresProcessing setting (some g)).outcome s = (.ok true, s) ∨
      (∃ failure, r.validMask setting e = .error failure ∧
        (r.requiresProcessing setting (some g)).outcome s = (.error failure, s)) ∨
      (∃ failure s', (r.queries setting).outcome s = (.error failure, s') ∧
        (r.requiresProcessing setting (some g)).outcome s = (.error failure, s')) ∨
      ∃ found s', r.validMask setting e = .ok none ∧
        (r.queries setting).outcome s = (.ok found, s') ∧
        (r.requiresProcessing setting (some g)).outcome s =
          (.ok (!(r.queryMask s'.acrossDateline found).any (·.contains e)), s') := by
  intro e
  unfold requiresProcessing
  rw [Action.outcome_bind, Action.outcome_lift, checkGeometry_some hne]
  cases r.makesCopies with
  | true => exact .inl rfl
  | false =>
      simp only [Bool.false_eq_true, if_false, Action.outcome_bind, Action.outcome_lift]
      rcases r.validMask setting (Envelope.ofGeometry g (some r.source)) with failure | _ | valid
      · exact .inr (.inl ⟨failure, rfl, rfl⟩)
      · rcases hqueries : (r.queries setting).outcome s with ⟨failure | found, s'⟩
        · refine .inr (.inr (.inl ⟨failure, s', rfl, ?_⟩))
          simp only [Action.outcome_bind, hqueries]
        · refine .inr (.inr (.inr ⟨found, s', rfl, rfl, ?_⟩))
          simp only [Action.outcome_bind, hqueries]
          rfl
      · exact .inl rfl

/-- Where a geometry does not have to be cut, no part of the valid area is cut out around it, and a
rectangle of the mask contains it. -/
theorem exists_of_not_required (hne : g.isEmpty = false)
    (hneeded : (r.requiresProcessing setting (some g)).outcome s = (.ok false, s')) :
    ∃ found, (r.queries setting).outcome s = (.ok found, s') ∧
      r.cutToQueries setting g s'.acrossDateline found = .ok .kept := by
  rcases requiresProcessing_cases hne s with
    heq | ⟨failure, -, heq⟩ | ⟨failure, middle, -, heq⟩ | ⟨found, middle, hmask, hqueries, heq⟩
  · cases hneeded.symm.trans heq
  · cases hneeded.symm.trans heq
  · cases hneeded.symm.trans heq
  · rw [heq, Prod.mk.injEq, Except.ok.injEq, Bool.not_eq_false'] at hneeded
    obtain ⟨hcontains, rfl⟩ := hneeded
    refine ⟨found, hqueries, ?_⟩
    simp [cutToQueries, hmask, cutTo, hcontains, bind, Except.bind, pure, Except.pure]

/-- Asking first whether a geometry has to be cut makes no difference to cutting it. -/
theorem outcome_preProcess_after (hne : g.isEmpty = false) {needed : Bool}
    (hneeded : (r.requiresProcessing setting (some g)).outcome s = (.ok needed, s')) :
    (r.preProcess setting (some g)).outcome s' = (r.preProcess setting (some g)).outcome s := by
  rcases requiresProcessing_cases hne s with
    heq | ⟨failure, -, heq⟩ | ⟨failure, middle, -, heq⟩ | ⟨found, middle, -, hqueries, heq⟩
  · cases hneeded.symm.trans heq
    rfl
  · cases hneeded.symm.trans heq
  · cases hneeded.symm.trans heq
  · rw [heq, Prod.mk.injEq] at hneeded
    obtain ⟨-, rfl⟩ := hneeded
    rw [outcome_preProcess_eq hne, outcome_preProcess_eq hne, hqueries,
      outcome_queries_again hqueries]

/-- Where it cannot be said whether a geometry has to be cut, it cannot be cut, for the same reason
if queries are found. -/
theorem exists_failure_of_requiresProcessing (hne : g.isEmpty = false) {failure : Failure α}
    (hneeded : (r.requiresProcessing setting (some g)).outcome s = (.error failure, s')) :
    ∃ other, ((r.preProcess setting (some g)).outcome s).1 = .error other ∧
      (((r.queries setting).outcome s).1.isOk = true → other = failure) := by
  rw [outcome_preProcess_eq hne]
  rcases requiresProcessing_cases hne s with
    heq | ⟨own, hmask, heq⟩ | ⟨own, middle, hqueries, heq⟩ | ⟨found, middle, -, -, heq⟩
  · cases hneeded.symm.trans heq
  · cases hneeded.symm.trans heq
    rcases (r.queries setting).outcome s with ⟨other | found, middle⟩
    · exact ⟨other, rfl, fun hok => Bool.noConfusion hok⟩
    · exact ⟨failure, by simp [cutToQueries, hmask, bind, Except.bind], fun _ => rfl⟩
  · cases hneeded.symm.trans heq
    rw [hqueries]
    exact ⟨failure, rfl, fun _ => rfl⟩
  · cases hneeded.symm.trans heq

/-! ## Rendering -/

theorem outcome_render_eq (hne : g.isEmpty = false) (transform : Transform α) (s : State α) :
    (r.render setting transform (some g)).outcome s =
      match (r.requiresProcessing setting (some g)).outcome s with
      | (.error failure, s') => (.error failure, s')
      | (.ok true, s') => (r.renderCutting setting transform (some g)).outcome s'
      | (.ok false, s') => (r.renderCut setting transform g).outcome s' := by
  unfold render renderCutting
  simp only [hne, Bool.false_eq_true, if_false]
  rw [Action.outcome_bind]
  rcases (r.requiresProcessing setting (some g)).outcome s with ⟨failure | _ | _, s'⟩ <;> rfl

theorem outcome_renderCutting_eq (hne : g.isEmpty = false) (transform : Transform α)
    (s : State α) :
    (r.renderCutting setting transform (some g)).outcome s =
      match (r.preProcess setting (some g)).outcome s with
      | (.error failure, s') => (.error failure, s')
      | (.ok rev, s') => (r.renderCut setting transform (rev.applyTo g)).outcome s' := by
  unfold renderCutting
  simp only [hne, Bool.false_eq_true, if_false]
  rw [Action.outcome_bind, Action.outcome_map]
  rcases (r.preProcess setting (some g)).outcome s with ⟨failure | rev, s'⟩ <;> rfl

/-- Where it can be said whether a geometry has to be cut, rendering it comes to the same as cutting
it in any case, and leaves the same state. -/
theorem outcome_render_eq_renderCutting (hne : g.isEmpty = false) {needed : Bool}
    (hneeded : (r.requiresProcessing setting (some g)).outcome s = (.ok needed, s'))
    (transform : Transform α) :
    (r.render setting transform (some g)).outcome s =
      (r.renderCutting setting transform (some g)).outcome s := by
  rw [outcome_render_eq hne, hneeded]
  cases needed with
  | true =>
      simp only
      rw [outcome_renderCutting_eq hne, outcome_renderCutting_eq hne,
        outcome_preProcess_after hne hneeded]
  | false =>
      obtain ⟨found, hqueries, hkept⟩ := exists_of_not_required hne hneeded
      simp only
      rw [outcome_renderCutting_eq hne, outcome_preProcess_eq hne, hqueries]
      simp only [hkept, Revision.applyTo]

/-- A geometry that does not have to be cut stays itself when it is cut, also later on, whatever has
happened to the kept queries, as long as the choice about the antimeridian is the same. Rendering
gives what it gives when every geometry is cut, leaves the same state, and fails where that fails,
in the same way if queries are found. -/
theorem skipped_cut_unobservable (setting : Setting α) (r : Rendering α)
    (g : Option (Geometry α)) (s : State α) :
    (∀ s', (r.requiresProcessing setting g).outcome s = (.ok false, s') → ∀ later : State α,
      later.acrossDateline = s.acrossDateline →
      later.queries = s.queries ∨ later.queries = s'.queries →
      (r.preProcess setting g).outcome later = (.ok .kept, { later with queries := s'.queries })) ∧
    ∀ transform : Transform α,
      (∀ result s', (r.render setting transform g).outcome s = (.ok result, s') ↔
        (r.renderCutting setting transform g).outcome s = (.ok result, s')) ∧
      (((r.queries setting).outcome s).1.isOk = true →
        ((r.render setting transform g).outcome s).1 =
          ((r.renderCutting setting transform g).outcome s).1) := by
  cases hcheck : checkGeometry g with
  | error failure =>
      refine ⟨fun s' hneeded => ?_, fun transform => ?_⟩
      · unfold requiresProcessing at hneeded
        simp [Action.outcome_bind, hcheck] at hneeded
      · -- nothing is rendered in either way
        have hsame : r.render setting transform g = r.renderCutting setting transform g := by
          cases g with
          | none => rfl
          | some shape =>
              have hempty : shape.isEmpty = true := by
                by_contra hne
                simp [checkGeometry, hne] at hcheck
              unfold render renderCutting
              simp [hempty]
        rw [hsame]
        exact ⟨fun _ _ => Iff.rfl, fun _ => rfl⟩
  | ok shape =>
      obtain ⟨rfl, hne⟩ := checkGeometry_eq_ok.mp hcheck
      constructor
      · intro s' hneeded later hchoice hkept
        obtain ⟨found, hqueries, hcut⟩ := exists_of_not_required hne hneeded
        have hlater := outcome_queries_later hqueries hchoice hkept
        obtain ⟨-, rfl⟩ := outcome_queries_eq_ok_iff.mp hqueries
        rw [outcome_preProcess_eq hne, hlater]
        simp only [hchoice, hcut]
      · intro transform
        rcases hneeded : (r.requiresProcessing setting (some shape)).outcome s with
          ⟨failure | needed, s'⟩
        · obtain ⟨other, hother, hsame⟩ := exists_failure_of_requiresProcessing hne hneeded
          rw [outcome_render_eq hne, outcome_renderCutting_eq hne, hneeded]
          rcases hcut : (r.preProcess setting (some shape)).outcome s with ⟨own | rev, middle⟩
          · rw [hcut] at hother
            obtain rfl := Except.error.inj hother
            refine ⟨by simp, fun hok => ?_⟩
            rw [hsame hok]
          · rw [hcut] at hother
            cases hother
        · rw [outcome_render_eq_renderCutting hne hneeded]
          exact ⟨fun _ _ => Iff.rfl, fun _ => rfl⟩

/-- A line in the view of a cylindrical projection does not have to be cut, and cutting it from the
start, before any queries are planned, leaves it as it is. -/
theorem line_in_view_stays_itself :
    let crs := Crs.Registry.projected "EPSG:32662" "WGS 84 / Plate Carree" Crs.Registry.wgs84
      .equidistantCylindricalSpherical
      [(.naturalLatitude, 0), (.naturalLongitude, 0), (.falseEasting, 0), (.falseNorthing, 0)]
    -- metres in a degree of the equator
    let degree : Extended ℚ := .finite 111319.49079327358
    let geographic : Mapping (Extended ℚ) :=
      ⟨fun x y => (x / degree, y / degree), fun _ _ => false, false⟩
    let planar : Mapping (Extended ℚ) :=
      ⟨fun lon lat => (lon * degree, lat * degree), fun _ _ => false, false⟩
    let setting : Setting (Extended ℚ) :=
      ⟨⟨fun own _ => some (if own.isGeographic then planar else geographic)⟩,
        ⟨fun _ => true, fun g _ => g, fun _ _ => true, fun _ _ => true⟩⟩
    let r : Rendering (Extended ℚ) :=
      ⟨⟨.finite 0, .finite 0, .finite 2000000, .finite 8000000, some crs⟩, Crs.wgs84, crs,
        Crs.wgs84, some (ValidArea.cylindrical Crs.wgs84), .cylindrical, defaultCap,
        .direct Crs.wgs84 crs false planar, none⟩
    let s : State (Extended ℚ) := { r.start with acrossDateline := true }
    let g : Geometry (Extended ℚ) :=
      .line [⟨.finite 5, .finite 10, none⟩, ⟨.finite 12, .finite 40, none⟩]
    ∃ s', (r.requiresProcessing setting (some g)).outcome s = (.ok false, s') ∧
      (r.preProcess setting (some g)).outcome s =
        (.ok .kept, { s with queries := s'.queries }) := by
  intro crs degree geographic planar setting r s g
  have hanswer : ((r.requiresProcessing setting (some g)).outcome s).1.toOption = some false := by
    decide +kernel
  rcases hneeded : (r.requiresProcessing setting (some g)).outcome s with ⟨failure | needed, s'⟩
  · rw [hneeded] at hanswer
    cases hanswer
  · rw [hneeded] at hanswer
    obtain rfl : needed = false := Option.some.inj hanswer
    exact ⟨s', rfl, (skipped_cut_unobservable setting r (some g) s).1 s' hneeded s rfl (.inl rfl)⟩

end Antimeridian.Rendering
