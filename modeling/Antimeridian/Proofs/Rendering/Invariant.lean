import Antimeridian.Proofs.Rendering.Outcome

/-!
# What work on a request keeps

Queries are planned once. Whatever geometries are rendered, and whether that fails or not, the
choice about the antimeridian stays, and the queries that are kept are those planned for it. What
rendering comes to depends on nothing else in the state, so that geometries can be rendered in any
order, or left out, without a difference to the others.
-/

namespace Antimeridian.Rendering

variable {α β γ : Type}

/-- Work keeps a property of the state, whether it fails or not. -/
def Action.Keeps (work : Action α β) (invariant : State α → Prop) : Prop :=
  ∀ s, invariant s → invariant (work.outcome s).2

/-- Work keeps a property of the state, and comes to the same in all states with the property. -/
def Action.Uniform (work : Action α β) (invariant : State α → Prop) : Prop :=
  work.Keeps invariant ∧
    ∀ s s', invariant s → invariant s' → (work.outcome s).1 = (work.outcome s').1

namespace Action.Uniform

variable {invariant : State α → Prop}

theorem pure (b : β) : Uniform (α := α) (pure b) invariant :=
  ⟨fun _ hs => hs, fun _ _ _ _ => rfl⟩

theorem lift (result : Except (Failure α) β) : Uniform (liftM result) invariant :=
  ⟨fun _ hs => hs, fun _ _ _ _ => rfl⟩

theorem bind {work : Action α β} {next : β → Action α γ} (hwork : work.Uniform invariant)
    (hnext : ∀ b, (next b).Uniform invariant) : (work >>= next).Uniform invariant := by
  constructor
  · intro s hs
    have hmiddle := hwork.1 s hs
    rw [outcome_bind]
    rcases hresult : work.outcome s with ⟨failure | b, s₁⟩ <;> rw [hresult] at hmiddle
    · exact hmiddle
    · exact (hnext b).1 s₁ hmiddle
  · intro s s' hs hs'
    have hmiddle := hwork.1 s hs
    have hmiddle' := hwork.1 s' hs'
    have heq := hwork.2 s s' hs hs'
    rw [outcome_bind, outcome_bind]
    rcases hresult : work.outcome s with ⟨result, s₁⟩
    rcases hresult' : work.outcome s' with ⟨result', s₁'⟩
    rw [hresult, hresult'] at heq
    rw [hresult] at hmiddle
    rw [hresult'] at hmiddle'
    cases heq
    cases result with
    | error failure => rfl
    | ok b => exact (hnext b).2 s₁ s₁' hmiddle hmiddle'

theorem map {work : Action α β} (hwork : work.Uniform invariant) (f : β → γ) :
    (f <$> work).Uniform invariant := by
  rw [map_eq_pure_bind]
  exact bind hwork fun b => pure (f b)

/-- Members of a list, worked on one after the other, come to what each of them comes to. -/
theorem outcome_mapM {work : β → Action α γ} (hwork : ∀ b, (work b).Uniform invariant)
    {s₀ : State α} (hs₀ : invariant s₀) (bs : List β) {s : State α} (hs : invariant s) :
    ((bs.mapM work).outcome s).1 = bs.mapM fun b => ((work b).outcome s₀).1 := by
  induction bs generalizing s with
  | nil => rfl
  | cons b rest ih =>
      have hkept := (hwork b).1 s hs
      have heq := (hwork b).2 s s₀ hs hs₀
      rw [List.mapM_cons, List.mapM_cons, outcome_bind, ← heq]
      rcases hresult : (work b).outcome s with ⟨failure | c, s₁⟩
      · rfl
      · rw [hresult] at hkept
        rw [← ih hkept]
        simp only [outcome_bind]
        rcases (rest.mapM work).outcome s₁ with ⟨failure | cs, s₂⟩ <;> rfl

end Action.Uniform

variable [Scalar α]

/-- A state in which queries are split at the antimeridian or not, as chosen, and those that are
kept are the ones planned for that choice. -/
structure PlannedAs (setting : Setting α) (r : Rendering α) (across : Bool) (s : State α) :
    Prop where
  acrossDateline : s.acrossDateline = across
  plan_eq : ∀ found ∈ s.queries, r.plan setting across = .ok found

variable (setting : Setting α) (r : Rendering α)

/-- A state in which the choice is the one that a request starts with. -/
abbrev Planned (s : State α) : Prop := PlannedAs setting r r.makesCopies s

theorem plannedAs_start (across : Bool) :
    PlannedAs setting r across { r.start with acrossDateline := across } :=
  ⟨rfl, by simp [start]⟩

variable {across : Bool}

/-- Asking for queries gives those planned, and keeps them. -/
theorem PlannedAs.outcome_queries {s : State α} (hs : PlannedAs setting r across s) :
    (r.queries setting).outcome s =
      match r.plan setting across with
      | .ok found => (.ok found, { s with queries := some found })
      | .error failure => (.error failure, s) := by
  unfold queries
  rw [Action.outcome_bind, Action.outcome_get]
  cases hqueries : s.queries with
  | some found =>
      obtain ⟨acrossDateline, kept, copiesMade⟩ := s
      have hkept : kept = some found := hqueries
      subst hkept
      rw [hs.plan_eq found rfl]
      rfl
  | none =>
      simp only [hqueries]
      rw [Action.outcome_bind, Action.outcome_lift, hs.acrossDateline]
      cases r.plan setting across <;> rfl

theorem uniform_queries : (r.queries setting).Uniform (PlannedAs setting r across) := by
  constructor
  · intro s hs
    rw [hs.outcome_queries]
    cases hplan : r.plan setting across with
    | error failure => exact hs
    | ok found => exact ⟨hs.acrossDateline, by simp [hplan]⟩
  · intro s s' hs hs'
    rw [hs.outcome_queries, hs'.outcome_queries]
    cases r.plan setting across <;> rfl

/-- Of the state, work may look at the choice about the antimeridian. -/
theorem uniform_of_get {next : State α → Action α β}
    (hnext : ∀ s, PlannedAs setting r across s →
      (next s).Uniform (PlannedAs setting r across))
    (hsame : ∀ s s', s.acrossDateline = s'.acrossDateline → next s = next s') :
    Action.Uniform (get >>= next) (PlannedAs setting r across) := by
  constructor
  · intro s hs
    rw [Action.outcome_bind, Action.outcome_get]
    exact (hnext s hs).1 s hs
  · intro s s' hs hs'
    have heq := hsame s' s (hs'.acrossDateline.trans hs.acrossDateline.symm)
    rw [Action.outcome_bind, Action.outcome_bind, Action.outcome_get, Action.outcome_get]
    simp only [heq]
    exact (hnext s hs).2 s s' hs hs'

theorem uniform_preProcess (g : Option (Geometry α)) :
    (r.preProcess setting g).Uniform (PlannedAs setting r across) := by
  unfold preProcess
  refine .bind (.lift _) fun g => .bind (uniform_queries setting r) fun found => ?_
  apply uniform_of_get
  · intro s _
    refine .bind (.lift _) fun valid => ?_
    cases valid <;> exact .pure _
  · intro s s' heq
    rw [heq]

theorem uniform_requiresProcessing (g : Option (Geometry α)) :
    (r.requiresProcessing setting g).Uniform (PlannedAs setting r across) := by
  unfold requiresProcessing
  refine .bind (.lift _) fun g => ?_
  split
  · exact .pure _
  · refine .bind (.lift _) fun valid => ?_
    cases valid with
    | some _ => exact .pure _
    | none =>
        refine .bind (uniform_queries setting r) fun found => ?_
        apply uniform_of_get
        · intro s _
          exact .pure _
        · intro s s' heq
          rw [heq]

theorem uniform_replicate (cycle : Cycle α) (current : Revision α) (g : Geometry α)
    (minx maxx : α) :
    (r.replicate cycle current g minx maxx).Uniform (PlannedAs setting r across) := by
  unfold replicate
  refine .bind (.lift _) fun offsets => ?_
  split
  · exact .pure _
  · refine .bind (.lift _) fun copies => .bind ?_ fun _ => ?_
    · constructor
      · intro s hs
        exact ⟨hs.acrossDateline, hs.plan_eq⟩
      · intro _ _ _ _
        rfl
    · split
      · exact .pure _
      · exact .bind (.lift _) fun _ => .pure _

theorem uniform_postProcess (transform : Option (Transform α)) (g : Option (Geometry α)) :
    (r.postProcess setting transform g).Uniform (PlannedAs setting r across) := by
  unfold postProcess
  refine .bind (.lift _) fun g => ?_
  split
  · split
    · exact .pure _
    · dsimp only
      split
      · exact .bind (.lift _) fun _ => uniform_replicate setting r _ _ _ _ _
      · exact uniform_replicate setting r _ _ _ _ _
  · exact .pure _

/-- Rendering a geometry, or failing to, leaves a state from which the next one is rendered with
the same queries, and does not depend on those rendered before. -/
theorem uniform_render (transform : Transform α) (g : Option (Geometry α)) :
    (r.render setting transform g).Uniform (PlannedAs setting r across) := by
  have hrest (cut : Geometry α) : Action.Uniform (do
      if cut.isEmpty then return none
      let projected ← transform.geometry cut
      if projected.isEmpty then return none
      return some ((← r.postProcess setting transform projected).applyTo projected) :
        Action α (Option (Geometry α))) (PlannedAs setting r across) := by
    split
    · exact .pure _
    · refine .bind (.lift _) fun projected => ?_
      split
      · exact .pure _
      · exact .bind (uniform_postProcess setting r _ _) fun _ => .pure _
  unfold render
  split
  · split
    · exact .pure _
    · refine .bind (uniform_requiresProcessing setting r _) fun needed => ?_
      dsimp only
      split
      · exact .bind (.map (uniform_preProcess setting r _) _) hrest
      · exact .bind (.pure _) hrest
  · exact .pure _

/-- The state in which rendering some geometries one after the other leaves a request. -/
def stateAfter (s : State α) (jobs : List (Transform α × Option (Geometry α))) : State α :=
  jobs.foldl (fun s job => ((r.render setting job.1 job.2).outcome s).2) s

theorem plannedAs_stateAfter {s : State α} (hs : PlannedAs setting r across s)
    (jobs : List (Transform α × Option (Geometry α))) :
    PlannedAs setting r across (r.stateAfter setting s jobs) := by
  induction jobs generalizing s with
  | nil => exact hs
  | cons job rest ih => exact ih ((uniform_render setting r job.1 job.2).1 s hs)

end Antimeridian.Rendering
