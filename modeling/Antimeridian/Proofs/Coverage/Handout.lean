import Antimeridian.Proofs.Coverage.Footprint
import Antimeridian.Proofs.Coverage.Outcome
import Antimeridian.Proofs.Raster.Windows

/-!
# Coverages that are handed out

A reader may answer a request with more than was asked for, with something else, or with a part of
it. Whatever it answers, a coverage that is handed out for a query is a window of the answer to the
one request made for that query, and reaches beyond the grid of the request by less than a pixel on
each side. The coverages stand in the order of the queries.
-/

namespace Antimeridian

/-- Whether the pixels of every answer of a reader lie along the axes of their system. -/
def CoverageReader.AnswersAlongAxes {K : Type} [Field K] [LinearOrder K]
    (reader : CoverageReader (Extended K)) : Prop :=
  ∀ request whole, reader.read request = .ok (some whole) →
    ∃ axes : PixelAxes K, whole.transform = axes.affine

namespace CoveragePlan

/-! ## One query -/

section Quiet

variable {α β γ : Type}

namespace Action

/-- Work asks nothing of the reader. -/
def Quiet (work : Action α β) : Prop := ∀ s, (work.outcome s).2.requests = s.requests

namespace Quiet

theorem pure (b : β) : Quiet (α := α) (pure b) := fun _ => rfl

theorem lift (result : Except (Failure α) β) : Quiet (liftM result : Action α β) := fun _ => rfl

theorem ofRendering (act : Rendering.Action α β) : Quiet (ofRendering act) := fun _ => rfl

theorem bind {work : Action α β} {next : β → Action α γ} (hwork : work.Quiet)
    (hnext : ∀ b, (next b).Quiet) : (work >>= next).Quiet := by
  intro s
  have hmiddle := hwork s
  rw [outcome_bind]
  rcases hresult : work.outcome s with ⟨failure | b, s₁⟩ <;> rw [hresult] at hmiddle
  · exact hmiddle
  · exact (hnext b s₁).trans hmiddle

theorem requests_eq {work : Action α β} (hwork : work.Quiet) {b : β} {s s' : Progress α}
    (hok : work.outcome s = (.ok b, s')) : s'.requests = s.requests := by
  rw [← hwork s, hok]

end Quiet

end Action

variable [Scalar α] (setting : Setting α) (p : CoveragePlan α) (r : Rendering α)

theorem quiet_readingGrid [PlanarLength α] (query : Envelope α) :
    (p.readingGrid setting r query).Quiet := by
  unfold readingGrid
  split
  · refine .bind (.lift _) fun rect => ?_
    split
    · exact .pure _
    · exact .bind (.lift _) fun _ => .pure _
  · refine .bind ?_ fun reduced => ?_
    · exact .bind (.ofRendering _) fun _ => .pure _
    · cases reduced with
      | none => exact .pure _
      | some reduced => exact .lift _

/-- Reading a grid asks for it once, unless the reader is left alone. -/
theorem asked_of_readGrid {options : ReadOptions} {g : Grid α} {answer : Option (Raster α)}
    {s s' : Progress α} (hok : (p.readGrid setting.atlas options g).outcome s = (.ok answer, s')) :
    answer = none ∧ s'.requests = s.requests ∨ ∃ request : ReadRequest α,
      request.grid = some g ∧ p.reader.read request = .ok answer ∧
        s'.requests = s.requests ++ [request] := by
  unfold readGrid at hok
  split at hok
  · cases hok
    exact .inl ⟨rfl, rfl⟩
  · obtain ⟨_, s₁, hasked, hok⟩ := Action.exists_of_bind hok
    cases hasked
    rw [Action.outcome_lift, Prod.mk.injEq] at hok
    obtain ⟨hread, rfl⟩ := hok
    exact .inr ⟨_, rfl, hread, rfl⟩

theorem reader_of_make {reader : CoverageReader α} {area : PixelRect} {extent : Envelope α}
    {resampling : Resampling} {padding : Int} {plan : CoveragePlan α}
    (hok : make reader area extent resampling padding = .ok plan) : plan.reader = reader := by
  obtain ⟨grid, -, hok⟩ := bind_eq_ok_iff.mp hok
  dsimp only at hok
  split at hok
  · obtain ⟨padded, -, hok⟩ := bind_eq_ok_iff.mp hok
    cases hok
    rfl
  · cases hok
    rfl

/-- What is handed out of the reader's answer on a grid. -/
def handOut (options : ReadOptions) (g : Grid α) : Action α (List (Raster α)) := do
  let some coverage ← p.readGrid setting.atlas options g | return []
  let outline := coverage.envelope.toPolygon
  let revision ← ofRendering (r.preProcess setting (some outline))
  let processed := revision.applyTo outline
  if processed.isEmpty then return []
  let kept := match revision with
    | .kept => true
    | .replaced _ => false
  keptParts setting g.envelope coverage outline processed kept

/-- A grid with the gutter of the plan, if it needs one. -/
def padded (g : Grid α) : Except (Failure α) (Grid α) :=
  if p.paddingRequired then g.withGutter p.padding else .ok g

/-- A query is read on its grid, grown by the gutter where the plan needs one. -/
theorem readQuery_eq [PlanarLength α] (options : ReadOptions) (query : Envelope α) :
    p.readQuery setting options r query = (do
      let some g ← p.readingGrid setting r query | return []
      p.handOut setting r options (← p.padded g)) := by
  unfold readQuery
  congr 1
  funext found
  cases found with
  | none => rfl
  | some g =>
      dsimp only [padded]
      split <;> rfl

end Quiet

variable {K : Type} [Field K] [LinearOrder K] [FloorRing K] [IsStrictOrderedRing K]
  {setting : Setting (Extended K)} {plan : CoveragePlan (Extended K)}
  {r : Rendering (Extended K)} {options : ReadOptions} {coverage : Raster (Extended K)}
  {reading : Envelope (Extended K)} {parts : List (Raster (Extended K))}

/-- Cropping to what lies in the envelope that was read hands out windows. -/
theorem isWindow_of_cropTo {axes : PixelAxes K} (hcoverage : coverage.transform = axes.affine)
    {e : Envelope (Extended K)}
    (he : e.isEmpty = false → ∃ g : Envelope K, e = g.finite ∧ g.Occupied ∧ reading.Encloses g)
    (hok : cropTo coverage e = .ok parts) :
    ∀ part ∈ parts,
      (∃ column row, part.IsWindow coverage column row) ∧ part.WithinPixel reading := by
  rw [cropTo] at hok
  split at hok
  next harea =>
    obtain ⟨g, rfl, hocc, hencloses⟩ := he (Envelope.isEmpty_of_hasArea harea)
    cases hcrop : coverage.crop g.finite with
    | error failure =>
        rw [hcrop] at hok
        contradiction
    | ok part =>
        rw [hcrop] at hok
        cases hok
        simpa using Raster.exists_isWindow_of_crop hcoverage hocc hencloses hcrop
  next =>
    cases hok
    simp

/-- All three ways in which a coverage is kept hand out windows: as it is, cropped to what was
asked for, or cropped for each polygon that is left of its outline. -/
theorem isWindow_of_keptParts {axes : PixelAxes K} (hcoverage : coverage.transform = axes.affine)
    {outline processed : Geometry (Extended K)} {kept : Bool}
    (hok : keptParts setting reading coverage outline processed kept = .ok parts) :
    ∀ part ∈ parts,
      (∃ column row, part.IsWindow coverage column row) ∧ part.WithinPixel reading := by
  have hown := Raster.envelope_between hcoverage
  rw [keptParts] at hok
  split at hok
  next =>
    split at hok
    next hcontains =>
      cases hok
      simpa using ⟨⟨0, 0, coverage.isWindow_self⟩,
        Raster.withinPixel_of_contains hcoverage hcontains⟩
    next =>
      rw [hown] at hok
      exact isWindow_of_cropTo hcoverage Envelope.exists_of_intersection_left hok
  next =>
    obtain ⟨pieces, hpieces, hok⟩ := bind_eq_ok_iff.mp hok
    cases hok
    intro part hpart
    obtain ⟨piece, hpiece, hpart⟩ := List.mem_flatten.mp hpart
    obtain ⟨rings, -, hcropped⟩ :=
      exists_mem_of_forall₂ (forall₂_of_mapM hpieces).flip piece hpiece
    refine isWindow_of_cropTo hcoverage (fun hne => ?_) hcropped part hpart
    -- what is left of the outline shares numbers as bounds with the coverage
    have hshared : ((Envelope.ofGeometry (.polygon rings) coverage.envelope.crs).intersection
        coverage.envelope).isEmpty = false := Envelope.isEmpty_of_intersection hne
    rw [hown] at hne hshared ⊢
    obtain ⟨g, hg, -⟩ := Envelope.exists_of_intersection_left hshared
    rw [hg] at hne ⊢
    exact Envelope.exists_of_intersection hne

theorem exists_asked_of_handOut (halong : plan.reader.AnswersAlongAxes) {g : Grid (Extended K)}
    {before after : Progress (Extended K)}
    (hok : (plan.handOut setting r options g).outcome before = (.ok parts, after)) :
    ∃ asked, after.requests = before.requests ++ asked ∧ ∀ part ∈ parts, ∃ request whole,
      asked = [request] ∧ request.grid = some g ∧ plan.reader.read request = .ok (some whole) ∧
        (∃ column row, part.IsWindow whole column row) ∧ part.WithinPixel g.envelope := by
  obtain ⟨answer, s₁, hanswer, hok⟩ := Action.exists_of_bind hok
  have hasked := asked_of_readGrid setting plan hanswer
  cases answer with
  | none =>
      cases hok
      rcases hasked with ⟨-, hrequests⟩ | ⟨request, -, -, hrequests⟩
      · exact ⟨[], by simp [hrequests], by simp⟩
      · exact ⟨[request], hrequests, by simp⟩
  | some whole =>
      obtain ⟨request, hgrid, hread, hrequests⟩ := hasked.resolve_left (by simp)
      obtain ⟨axes, haxes⟩ := halong request whole hread
      obtain ⟨revision, s₂, hrevision, hok⟩ := Action.exists_of_bind hok
      have hquiet := (Action.Quiet.ofRendering _).requests_eq hrevision
      dsimp only at hok
      split at hok
      · cases hok
        exact ⟨[request], hquiet.trans hrequests, by simp⟩
      · rw [Action.outcome_lift, Prod.mk.injEq] at hok
        obtain ⟨hkept, rfl⟩ := hok
        refine ⟨[request], hquiet.trans hrequests, fun part hpart => ?_⟩
        exact ⟨request, whole, rfl, hgrid, hread, isWindow_of_keptParts haxes hkept part hpart⟩

/-! ## All queries -/

/-- How a query was read: what was asked of the reader for it, and what was handed out. -/
structure QueryRead (α : Type) where
  query : Envelope α
  asked : List (ReadRequest α)
  parts : List (Raster α)

/-- Everything that was handed out for a query is a window of the answer to the one request made for
it, and reaches beyond the grid of the request by less than a pixel. -/
def QueryRead.Wanted (reader : CoverageReader (Extended K)) (read : QueryRead (Extended K)) :
    Prop :=
  ∀ part ∈ read.parts, ∃ request g whole, read.asked = [request] ∧ request.grid = some g ∧
    reader.read request = .ok (some whole) ∧ (∃ column row, part.IsWindow whole column row) ∧
    part.WithinPixel g.envelope

variable [PlanarLength (Extended K)]

variable (setting plan options r) in
/-- A query was read with what was asked and handed out. -/
def QueryRead.Happened (read : QueryRead (Extended K)) : Prop :=
  ∃ before after, (plan.readQuery setting options r read.query).outcome before =
    (.ok read.parts, after) ∧ after.requests = before.requests ++ read.asked

theorem exists_wanted_of_readQuery (halong : plan.reader.AnswersAlongAxes)
    {query : Envelope (Extended K)} {before after : Progress (Extended K)}
    (hok : (plan.readQuery setting options r query).outcome before = (.ok parts, after)) :
    ∃ asked, after.requests = before.requests ++ asked ∧
      QueryRead.Wanted plan.reader ⟨query, asked, parts⟩ := by
  rw [readQuery_eq] at hok
  obtain ⟨found, s₁, hfound, hok⟩ := Action.exists_of_bind hok
  have hquiet := (quiet_readingGrid setting plan r query).requests_eq hfound
  cases found with
  | none =>
      cases hok
      exact ⟨[], by simp [hquiet], by simp [QueryRead.Wanted]⟩
  | some g =>
      obtain ⟨padded, s₂, hpadded, hok⟩ := Action.exists_of_bind hok
      have hstill := (Action.Quiet.lift _).requests_eq hpadded
      obtain ⟨asked, hrequests, hwindows⟩ := exists_asked_of_handOut halong hok
      refine ⟨asked, by rw [hrequests, hstill, hquiet], fun part hpart => ?_⟩
      obtain ⟨request, whole, hasked, hgrid, hrest⟩ := hwindows part hpart
      exact ⟨request, padded, whole, hasked, hgrid, hrest⟩

/-- Reading queries one after the other hands out what each was read for, in their order. -/
theorem exists_reads_of_mapM (halong : plan.reader.AnswersAlongAxes)
    {queries : List (Envelope (Extended K))} {batches : List (List (Raster (Extended K)))}
    {before after : Progress (Extended K)}
    (hok : (queries.mapM (plan.readQuery setting options r)).outcome before =
      (.ok batches, after)) :
    ∃ reads : List (QueryRead (Extended K)), reads.map (·.query) = queries ∧
      reads.map (·.parts) = batches ∧
      after.requests = before.requests ++ reads.flatMap (·.asked) ∧
      ∀ read ∈ reads, read.Happened setting plan r options ∧ read.Wanted plan.reader := by
  induction queries generalizing batches before with
  | nil =>
      cases hok
      exact ⟨[], rfl, rfl, by simp, by simp⟩
  | cons query rest ih =>
      rw [List.mapM_cons] at hok
      obtain ⟨parts, s₁, hparts, hok⟩ := Action.exists_of_bind hok
      obtain ⟨others, s₂, hothers, hok⟩ := Action.exists_of_bind hok
      cases hok
      obtain ⟨asked, hrequests, hwanted⟩ := exists_wanted_of_readQuery halong hparts
      obtain ⟨reads, hqueries, hbatches, hrest, hall⟩ := ih hothers
      refine ⟨⟨query, asked, parts⟩ :: reads, ?_, ?_, ?_,
        List.forall_mem_cons.mpr ⟨⟨⟨before, s₁, hparts, hrequests⟩, hwanted⟩, hall⟩⟩
      · rw [List.map_cons, hqueries]
      · rw [List.map_cons, hbatches]
      · rw [hrest, hrequests, List.flatMap_cons, List.append_assoc]

/-- Whatever a reader answers, coverages are handed out in the order of the queries, and those of a
query are windows of the answer to the one request made for it, which reach beyond the grid of the
request by less than a pixel on each side. -/
theorem readCoverages_hands_out_windows (halong : plan.reader.AnswersAlongAxes)
    {progress progress' : Progress (Extended K)} {coverages : List (Raster (Extended K))}
    (hok : (plan.readCoverages setting options (some r)).outcome progress =
      (.ok coverages, progress')) :
    ∃ reads : List (QueryRead (Extended K)),
      ((r.queries setting).outcome progress.rendering).1 = .ok (reads.map (·.query)) ∧
      coverages = reads.flatMap (·.parts) ∧
      progress'.requests = progress.requests ++ reads.flatMap (·.asked) ∧
      ∀ read ∈ reads, read.Happened setting plan r options ∧ read.Wanted plan.reader := by
  obtain ⟨queries, s₁, hqueries, hok⟩ := Action.exists_of_bind hok
  obtain ⟨batches, s₂, hbatches, hok⟩ := Action.exists_of_bind hok
  cases hok
  have hquiet := (Action.Quiet.ofRendering _).requests_eq hqueries
  rw [Action.outcome_ofRendering, Prod.mk.injEq] at hqueries
  obtain ⟨reads, hmap, rfl, hrequests, hall⟩ := exists_reads_of_mapM halong hbatches
  refine ⟨reads, by rw [hmap, hqueries.1], ?_, by rw [hrequests, hquiet], hall⟩
  rw [List.flatMap_def]

/-- Of a raster that reaches one and a half pixels beyond a view on every side, the pixels in the
view are handed out, whole or in part. -/
theorem over_read_coverage_is_cropped :
    let crs := Crs.ofFrame Crs.Registry.wgs84
    let mapping : Mapping (Extended ℚ) := ⟨fun x y => (x, y), fun _ _ => false, true⟩
    let setting : Setting (Extended ℚ) := ⟨⟨fun _ _ => some mapping⟩,
      ⟨fun _ => true, clipOutlines, fun _ _ => false, fun _ _ => true⟩⟩
    let axes : PixelAxes ℚ := ⟨-35, 25, 10, -10, false, by decide, by decide⟩
    let whole : Raster (Extended ℚ) :=
      { bands := 1, rows := 5, columns := 7, pixel := fun _ row column => .whole (row * 7 + column),
        pixelType := .int16, transform := axes.affine, crs }
    let reader : CoverageReader (Extended ℚ) :=
      ⟨crs, .ok whole.envelope, [], fun _ => .ok (some whole)⟩
    let area : Envelope ℚ := ⟨-20, -10, 20, 10, some crs⟩
    let _ : PlanarLength (Extended ℚ) := ⟨fun x y => Scalar.max (Scalar.abs x) (Scalar.abs y)⟩
    ∃ plan r start coverages progress,
      make reader ⟨0, 0, 4, 2⟩ area.finite .nearest 10 = .ok plan ∧
      Rendering.find setting (some area.finite) (.ok (some crs)) true 1 = .ok (some (r, start)) ∧
      (plan.readCoverages setting {} (some r)).outcome { rendering := start } =
        (.ok coverages, progress) ∧
      ∃ part ∈ coverages, part.columns = 5 ∧ part.rows = 3 ∧
        ∃ column row, part.IsWindow whole column row := by
  intro crs mapping setting axes whole reader area _
  let same : Transform (Extended ℚ) := .direct crs crs true mapping
  let r := Rendering.geographic area.finite crs.horizontal crs.horizontal 1 same
  have hocc : area.Occupied := by norm_num [area, Envelope.Occupied]
  have hfind : Rendering.find setting (some area.finite) (.ok (some crs)) true 1 =
      .ok (some (r, r.start)) := by
    rw [Rendering.find_geographic rfl rfl (Envelope.isEmpty_finite hocc) (by decide)]
    rfl
  have hreads : ((make reader ⟨0, 0, 4, 2⟩ area.finite .nearest 10).toOption.any fun plan =>
      ((plan.readCoverages setting {} (some r)).outcome { rendering := r.start }).1.toOption.any
        fun coverages => coverages.any fun part => part.columns == 5 && part.rows == 3) = true := by
    decide +kernel
  cases hmake : make reader ⟨0, 0, 4, 2⟩ area.finite .nearest 10 with
  | error failure => simp [hmake, Except.toOption] at hreads
  | ok plan =>
      rw [hmake] at hreads
      rcases hwork : (plan.readCoverages setting {} (some r)).outcome { rendering := r.start } with
        ⟨failure | coverages, progress⟩
      · simp [hwork, Except.toOption] at hreads
      · simp only [hwork, Except.toOption, Option.any_some, List.any_eq_true, Bool.and_eq_true,
          beq_iff_eq] at hreads
        obtain ⟨part, hpart, hcolumns, hrows⟩ := hreads
        refine ⟨plan, r, r.start, coverages, progress, rfl, hfind, hwork, part, hpart, hcolumns,
          hrows, ?_⟩
        have hreader := reader_of_make hmake
        have halong : plan.reader.AnswersAlongAxes := by
          rw [hreader]
          rintro request answer ⟨⟩
          exact ⟨axes, rfl⟩
        obtain ⟨reads, -, rfl, -, hall⟩ := readCoverages_hands_out_windows halong hwork
        obtain ⟨read, hread, hpart⟩ := List.mem_flatMap.mp hpart
        obtain ⟨request, g, answer, -, -, hanswer, hwindow, -⟩ := (hall read hread).2 part hpart
        rw [hreader] at hanswer
        cases hanswer
        exact hwindow

end CoveragePlan

end Antimeridian
