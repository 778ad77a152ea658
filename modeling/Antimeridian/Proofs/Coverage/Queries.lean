import Antimeridian.Proofs.Coverage.Handout

/-!
# Coming to a query

Queries are read one after the other until one fails. Reading comes to a query with the progress
that the queries before it have left. For a query the reader is asked for one grid at most, and
nothing that has been asked is forgotten, whether the reading fails in the end or not.
-/

namespace Antimeridian.CoveragePlan

variable {α β γ : Type}

namespace Action

/-- Whether work over a list comes to a member, with the progress that those before it have left. -/
inductive ComesTo (work : β → Action α γ) : List β → Progress α → β → Progress α → Prop
  | here {b : β} {rest : List β} {s : Progress α} : ComesTo work (b :: rest) s b s
  | later {first b : β} {rest : List β} {s s₁ before : Progress α} {c : γ}
    (hfirst : (work first).outcome s = (.ok c, s₁)) (hrest : ComesTo work rest s₁ b before) :
    ComesTo work (first :: rest) s b before

/-- Work over a list goes on with the rest once it has succeeded for the first member. -/
theorem outcome_mapM_cons {work : β → Action α γ} {first : β} {s s₁ : Progress α} {c : γ}
    (hfirst : (work first).outcome s = (.ok c, s₁)) (rest : List β) :
    ((first :: rest).mapM work).outcome s =
      match (rest.mapM work).outcome s₁ with
      | (.ok cs, s₂) => (.ok (c :: cs), s₂)
      | (.error failure, s₂) => (.error failure, s₂) := by
  rw [List.mapM_cons, outcome_bind, hfirst]
  dsimp only
  rw [outcome_bind]
  rcases (rest.mapM work).outcome s₁ with ⟨failure | cs, s₂⟩ <;> rfl

/-- Work over a list fails exactly where it comes to a member it fails for. -/
theorem outcome_mapM_eq_error_iff {work : β → Action α γ} {bs : List β} {s after : Progress α}
    {failure : Failure α} :
    (bs.mapM work).outcome s = (.error failure, after) ↔
      ∃ b before, ComesTo work bs s b before ∧
        (work b).outcome before = (.error failure, after) := by
  constructor
  · intro hfails
    induction bs generalizing s with
    | nil => cases hfails
    | cons first rest ih =>
        rcases hfirst : (work first).outcome s with ⟨own | c, s₁⟩
        · rw [List.mapM_cons, outcome_bind, hfirst] at hfails
          cases hfails
          exact ⟨first, s, .here, hfirst⟩
        · rw [outcome_mapM_cons hfirst] at hfails
          rcases hrest : (rest.mapM work).outcome s₁ with ⟨own | cs, s₂⟩ <;> rw [hrest] at hfails
          · cases hfails
            obtain ⟨b, before, hcomes, hb⟩ := ih hrest
            exact ⟨b, before, .later hfirst hcomes, hb⟩
          · cases hfails
  · rintro ⟨b, before, hcomes, hb⟩
    induction hcomes with
    | here => rw [List.mapM_cons, outcome_bind, hb]
    | later hfirst _ ih => rw [outcome_mapM_cons hfirst, ih hb]

/-- Work forgets nothing that has been asked of the reader. -/
def Grows (work : Action α β) : Prop :=
  ∀ s, ∃ more, (work.outcome s).2.requests = s.requests ++ more

namespace Grows

theorem bind {work : Action α β} {next : β → Action α γ} (hwork : work.Grows)
    (hnext : ∀ b, (next b).Grows) : (work >>= next).Grows := by
  intro s
  obtain ⟨first, hfirst⟩ := hwork s
  rw [outcome_bind]
  rcases hresult : work.outcome s with ⟨failure | b, s₁⟩ <;> rw [hresult] at hfirst
  · exact ⟨first, hfirst⟩
  · obtain ⟨second, hsecond⟩ := hnext b s₁
    exact ⟨first ++ second, by rw [hsecond, hfirst, List.append_assoc]⟩

theorem of_quiet {work : Action α β} (hquiet : work.Quiet) : work.Grows :=
  fun s => ⟨[], by rw [hquiet s, List.append_nil]⟩

theorem mapM {work : β → Action α γ} (hwork : ∀ b, (work b).Grows) (bs : List β) :
    (bs.mapM work).Grows := by
  induction bs with
  | nil => exact of_quiet (.pure _)
  | cons b rest ih =>
      rw [List.mapM_cons]
      exact .bind (hwork b) fun _ => .bind ih fun _ => of_quiet (.pure _)

end Grows

/-- What is asked for a member that work comes to is asked for the list. -/
theorem ComesTo.exists_requests {work : β → Action α γ} (hwork : ∀ b, (work b).Grows)
    {bs : List β} {s before : Progress α} {b : β} (hcomes : ComesTo work bs s b before) :
    ∃ later, ((bs.mapM work).outcome s).2.requests =
      ((work b).outcome before).2.requests ++ later := by
  induction hcomes with
  | @here b rest s =>
      rw [List.mapM_cons, outcome_bind]
      rcases (work b).outcome s with ⟨failure | c, s₁⟩
      · exact ⟨[], by simp⟩
      · exact Grows.bind (.mapM hwork rest) (fun _ => .of_quiet (.pure _)) s₁
  | later hfirst _ ih =>
      obtain ⟨later, hlater⟩ := ih
      refine ⟨later, ?_⟩
      rw [outcome_mapM_cons hfirst, ← hlater]
      split
      next heq => rw [heq]
      next heq => rw [heq]

end Action

variable [Scalar α] (setting : Setting α) (p : CoveragePlan α) (r : Rendering α)
  (options : ReadOptions)

/-! ## What is asked -/

/-- What is asked of the reader for a grid, unless its data are known to lie elsewhere. -/
def asksFor (g : Grid α) : List (ReadRequest α) :=
  match overlaps setting.atlas p.reader g.envelope with
  | .ok false => []
  | _ =>
    [{ grid := some g, resampling := options.resampling.getD (.method p.resampling),
       others := options.others }]

theorem requests_readGrid (g : Grid α) (s : Progress α) :
    ((p.readGrid setting.atlas options g).outcome s).2.requests =
      s.requests ++ p.asksFor setting options g := by
  unfold readGrid asksFor
  rcases overlaps setting.atlas p.reader g.envelope with failure | _ | _
  · rfl
  · exact (List.append_nil _).symm
  · rfl

/-- Handing out asks for the grid and for nothing else. -/
theorem requests_handOut (g : Grid α) (s : Progress α) :
    ((p.handOut setting r options g).outcome s).2.requests =
      s.requests ++ p.asksFor setting options g := by
  have hasked := p.requests_readGrid setting options g s
  unfold handOut
  rw [Action.outcome_bind]
  rcases hresult : (p.readGrid setting.atlas options g).outcome s with ⟨failure | found, s₁⟩ <;>
    rw [hresult] at hasked
  · exact hasked
  · refine Eq.trans ?_ hasked
    cases found with
    | none => rfl
    | some coverage =>
        refine Action.Quiet.bind (.ofRendering _) (fun revision => ?_) s₁
        dsimp only
        split
        · exact .pure _
        · exact .lift _

variable [PlanarLength α]

theorem grows_readQuery (query : Envelope α) : (p.readQuery setting options r query).Grows := by
  rw [readQuery_eq]
  refine .bind (.of_quiet (quiet_readingGrid setting p r query)) fun found => ?_
  cases found with
  | none => exact .of_quiet (.pure _)
  | some g =>
      exact .bind (.of_quiet (.lift _)) fun padded s =>
        ⟨_, p.requests_handOut setting r options padded s⟩

/-! ## All queries -/

/-- Whether reading the coverages of a map comes to a query. -/
def ComesToQuery (progress : Progress α) (query : Envelope α) (before : Progress α) : Prop :=
  ∃ queries start, (ofRendering (r.queries setting)).outcome progress = (.ok queries, start) ∧
    Action.ComesTo (p.readQuery setting options r) queries start query before

/-- Reading coverages fails with the queries, or where it comes to one that fails. -/
theorem readCoverages_eq_error_iff {progress after : Progress α} {failure : Failure α} :
    (p.readCoverages setting options (some r)).outcome progress = (.error failure, after) ↔
      (ofRendering (r.queries setting)).outcome progress = (.error failure, after) ∨
        ∃ query before, p.ComesToQuery setting r options progress query before ∧
          (p.readQuery setting options r query).outcome before = (.error failure, after) := by
  rw [readCoverages, Action.outcome_bind]
  rcases hqueries : (ofRendering (r.queries setting)).outcome progress with ⟨own | queries, start⟩
  · simp [ComesToQuery, hqueries]
  · have hcomes (query : Envelope α) (before : Progress α) :
        p.ComesToQuery setting r options progress query before ↔
          Action.ComesTo (p.readQuery setting options r) queries start query before := by
      simp [ComesToQuery, hqueries]
    simp only [hcomes, ← Action.outcome_mapM_eq_error_iff, Prod.mk.injEq, reduceCtorEq, false_and,
      false_or]
    rw [Action.outcome_bind]
    rcases (queries.mapM (p.readQuery setting options r)).outcome start with ⟨own | batches, s₂⟩
    · simp only [Prod.mk.injEq, Except.error.injEq]
    · exact iff_of_false (by simp [Action.outcome_pure]) (by simp)

/-- What is asked for a query that reading comes to is asked for the map. -/
theorem exists_requests_readCoverages {progress before : Progress α} {query : Envelope α}
    (hcomes : p.ComesToQuery setting r options progress query before) :
    ∃ later, ((p.readCoverages setting options (some r)).outcome progress).2.requests =
      ((p.readQuery setting options r query).outcome before).2.requests ++ later := by
  obtain ⟨queries, start, hqueries, hcomes⟩ := hcomes
  obtain ⟨later, hlater⟩ := hcomes.exists_requests (p.grows_readQuery setting r options)
  refine ⟨later, ?_⟩
  rw [readCoverages, Action.outcome_bind, hqueries, ← hlater]
  dsimp only
  rw [Action.outcome_bind]
  rcases (queries.mapM (p.readQuery setting options r)).outcome start with ⟨own | batches, s₂⟩ <;>
    rfl

/-- Reading comes to a geographic view that is narrower than a turn, once the queries are planned:
it is the first of them. -/
theorem comesToQuery_view {K : Type} [Field K] [LinearOrder K] [FloorRing K]
    [IsStrictOrderedRing K] [PlanarLength (Extended K)] (setting : Setting (Extended K))
    (p : CoveragePlan (Extended K)) (options : ReadOptions) {view : Envelope K}
    {source target : Crs} (hglobe : Rendering.SameGlobe view source target)
    (hocc : view.Occupied) (hnarrow : view.maxx - view.minx < 360) (cap : Int)
    (relation : Transform (Extended K)) :
    let r := Rendering.geographic view.finite source.horizontal target.horizontal cap relation
    p.ComesToQuery setting r options { rendering := r.start }
      (view.labelled source.horizontal).finite
      ((ofRendering (r.queries setting)).outcome { rendering := r.start }).2 := by
  intro r
  obtain ⟨rest, hplan⟩ := Rendering.exists_plan_cons setting relation cap hglobe hocc hnarrow
  have hmade : r.plan setting r.makesCopies =
      .ok ((view.labelled source.horizontal :: rest).map Envelope.finite) := hplan
  have hqueries : ((ofRendering (r.queries setting)).outcome { rendering := r.start }).1 =
      .ok ((view.labelled source.horizontal :: rest).map Envelope.finite) := by
    have hplanned : Rendering.Planned setting r r.start := Rendering.plannedAs_start setting r _
    rw [Action.outcome_ofRendering, hplanned.outcome_queries, hmade]
  exact ⟨_, _, Prod.ext hqueries rfl, .here⟩

end Antimeridian.CoveragePlan
