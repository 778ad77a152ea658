import Antimeridian.Coverage.Plan
import Antimeridian.Proofs.Rendering.Invariant

/-!
# What reading coverages comes to

Reading is work on a rendering request with requests to a reader in between. What each part of the
work keeps of the rendering request, all of it keeps.
-/

namespace Antimeridian.CoveragePlan

variable {α β γ : Type}

namespace Action

/-- What work comes to, and the progress it leaves. -/
def outcome (work : Action α β) (s : Progress α) : Except (Failure α) β × Progress α :=
  work.run.run s

/-- Work keeps a property of the rendering request, whether it fails or not. -/
def Keeps (work : Action α β) (invariant : Rendering.State α → Prop) : Prop :=
  ∀ s, invariant s.rendering → invariant (work.outcome s).2.rendering

theorem outcome_pure (b : β) (s : Progress α) : outcome (pure b : Action α β) s = (.ok b, s) := rfl

theorem outcome_lift (result : Except (Failure α) β) (s : Progress α) :
    outcome (liftM result) s = (result, s) := rfl

theorem outcome_modify (f : Progress α → Progress α) (s : Progress α) :
    outcome (modify f : Action α PUnit) s = (.ok ⟨⟩, f s) := rfl

theorem outcome_bind (work : Action α β) (next : β → Action α γ) (s : Progress α) :
    outcome (work >>= next) s =
      match outcome work s with
      | (.ok b, s') => outcome (next b) s'
      | (.error failure, s') => (.error failure, s') := by
  unfold outcome ExceptT.run StateT.run
  simp only [bind, ExceptT.bind, ExceptT.mk, StateT.bind, ExceptT.bindCont]
  cases work s with
  | mk result s' => cases result <;> rfl

theorem outcome_ofRendering (act : Rendering.Action α β) (s : Progress α) :
    outcome (ofRendering act) s =
      ((act.outcome s.rendering).1, { s with rendering := (act.outcome s.rendering).2 }) := rfl

theorem exists_of_bind {work : Action α β} {next : β → Action α γ} {s s' : Progress α} {c : γ}
    (hok : outcome (work >>= next) s = (.ok c, s')) :
    ∃ b s₁, work.outcome s = (.ok b, s₁) ∧ (next b).outcome s₁ = (.ok c, s') := by
  rw [outcome_bind] at hok
  rcases hwork : work.outcome s with ⟨failure | b, s₁⟩ <;> rw [hwork] at hok
  · cases hok
  · exact ⟨b, s₁, rfl, hok⟩

namespace Keeps

variable {invariant : Rendering.State α → Prop}

theorem pure (b : β) : Keeps (α := α) (pure b) invariant := fun _ hs => hs

theorem lift (result : Except (Failure α) β) : Keeps (liftM result) invariant := fun _ hs => hs

theorem bind {work : Action α β} {next : β → Action α γ} (hwork : work.Keeps invariant)
    (hnext : ∀ b, (next b).Keeps invariant) : (work >>= next).Keeps invariant := by
  intro s hs
  have hmiddle := hwork s hs
  rw [outcome_bind]
  rcases hresult : work.outcome s with ⟨failure | b, s₁⟩ <;> rw [hresult] at hmiddle
  · exact hmiddle
  · exact hnext b s₁ hmiddle

theorem ofRendering {act : Rendering.Action α β} (hact : act.Keeps invariant) :
    (ofRendering act).Keeps invariant := by
  intro s hs
  rw [outcome_ofRendering]
  exact hact s.rendering hs

/-- Members of a list are worked on from progress with the property. -/
theorem exists_of_mapM {work : β → Action α γ} (hwork : ∀ b, (work b).Keeps invariant)
    {bs : List β} {cs : List γ} {s s' : Progress α} (hs : invariant s.rendering)
    (hok : (bs.mapM work).outcome s = (.ok cs, s')) {b : β} (hb : b ∈ bs) :
    ∃ c ∈ cs, ∃ s₁ s₂, invariant s₁.rendering ∧ (work b).outcome s₁ = (.ok c, s₂) := by
  induction bs generalizing cs s with
  | nil => contradiction
  | cons first rest ih =>
      rw [List.mapM_cons] at hok
      obtain ⟨c, s₁, hc, hok⟩ := exists_of_bind hok
      obtain ⟨others, s₂, hothers, hok⟩ := exists_of_bind hok
      have hs₁ := hwork first s hs
      rw [hc] at hs₁
      cases hok
      rcases List.mem_cons.mp hb with rfl | hb
      · exact ⟨c, List.mem_cons_self, s, s₁, hs, hc⟩
      · obtain ⟨c', hc', hrest⟩ := ih hs₁ hothers hb
        exact ⟨c', List.mem_cons_of_mem _ hc', hrest⟩

end Keeps

end Action

variable [Scalar α] (setting : Setting α) (p : CoveragePlan α) (r : Rendering α) {across : Bool}

theorem keeps_preProcess (g : Option (Geometry α)) :
    (ofRendering (r.preProcess setting g)).Keeps (Rendering.PlannedAs setting r across) :=
  .ofRendering (Rendering.uniform_preProcess setting r g).1

theorem keeps_readGrid (options : ReadOptions) (g : Grid α)
    (invariant : Rendering.State α → Prop) :
    (p.readGrid setting.atlas options g).Keeps invariant := by
  unfold readGrid
  split
  · exact .pure _
  · exact .bind (fun _ hs => hs) fun _ => .lift _

variable [PlanarLength α]

theorem keeps_readingGrid (query : Envelope α) :
    (p.readingGrid setting r query).Keeps (Rendering.PlannedAs setting r across) := by
  unfold readingGrid
  split
  · refine .bind (.lift _) fun rect => ?_
    split
    · exact .pure _
    · exact .bind (.lift _) fun _ => .pure _
  · refine .bind ?_ fun reduced => ?_
    · exact .bind (keeps_preProcess setting r _) fun _ => .pure _
    · cases reduced with
      | none => exact .pure _
      | some reduced => exact .lift _

/-- Reading for a query keeps the queries that are planned. -/
theorem keeps_readQuery (options : ReadOptions) (query : Envelope α) :
    (p.readQuery setting options r query).Keeps (Rendering.PlannedAs setting r across) := by
  unfold readQuery
  refine .bind (keeps_readingGrid setting p r query) fun reading => ?_
  cases reading with
  | none => exact .pure _
  | some reading =>
      -- with or without a gutter
      dsimp only
      split
      all_goals
        refine .bind (.lift _) fun reading =>
          .bind (keeps_readGrid setting p options reading _) fun coverage => ?_
        cases coverage with
        | none => exact .pure _
        | some coverage =>
            refine .bind (keeps_preProcess setting r _) fun revision => ?_
            split
            · exact .pure _
            · exact .lift _

/-- Reading coverages is reading for each query that is planned. -/
theorem outcome_readCoverages (options : ReadOptions) {progress : Progress α}
    (hprogress : Rendering.Planned setting r progress.rendering) {queries : List (Envelope α)}
    (hqueries : r.plan setting r.makesCopies = .ok queries) :
    (p.readCoverages setting options (some r)).outcome progress =
      Action.outcome (return (← queries.mapM (p.readQuery setting options r)).flatten)
        { progress with rendering := { progress.rendering with queries := some queries } } := by
  have hqueried := hprogress.outcome_queries
  rw [hqueries] at hqueried
  rw [readCoverages, Action.outcome_bind, Action.outcome_ofRendering, hqueried]

/-- Where coverages are read, each query that is planned is read for some of them. -/
theorem exists_of_readCoverages {options : ReadOptions} {progress progress' : Progress α}
    {coverages : List (Raster α)}
    (hok : (p.readCoverages setting options (some r)).outcome progress = (.ok coverages, progress'))
    (hprogress : Rendering.Planned setting r progress.rendering) {queries : List (Envelope α)}
    (hqueries : r.plan setting r.makesCopies = .ok queries) {query : Envelope α}
    (hquery : query ∈ queries) :
    ∃ parts before after, Rendering.Planned setting r before.rendering ∧
      (p.readQuery setting options r query).outcome before = (.ok parts, after) ∧
      parts ⊆ coverages := by
  rw [outcome_readCoverages setting p r options hprogress hqueries] at hok
  obtain ⟨all, progress₁, hall, hok⟩ := Action.exists_of_bind hok
  cases hok
  have hkept : Rendering.Planned setting r
      { progress.rendering with queries := some queries } :=
    ⟨hprogress.acrossDateline, by simp [hqueries]⟩
  obtain ⟨parts, hparts, before, after, hbefore, hread⟩ :=
    Action.Keeps.exists_of_mapM (keeps_readQuery setting p r options) hkept hall hquery
  exact ⟨parts, before, after, hbefore, hread,
    fun part hpart => List.mem_flatten.mpr ⟨parts, hparts, hpart⟩⟩

end Antimeridian.CoveragePlan
