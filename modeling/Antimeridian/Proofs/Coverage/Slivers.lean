import Antimeridian.Proofs.Coverage.Queries
import Antimeridian.Proofs.Raster.Slivers

/-!
# Reading that stops at a sliver

Coverages are cropped to envelopes that have an area and lie in them. Such an envelope can keep
within a millionth of a pixel of an edge between pixels. A coverage cannot be cropped to it then,
and reading fails with everything that was found before. Nothing else about cropping makes reading
fail.
-/

namespace Antimeridian

/-- Work over a list fails exactly with the first of its members that it fails for. -/
theorem mapM_eq_error_iff {ε β γ : Type} {f : β → Except ε γ} {bs : List β} {failure : ε} :
    bs.mapM f = .error failure ↔ ∃ done b rest, bs = done ++ b :: rest ∧
      (∀ d ∈ done, ∃ c, f d = .ok c) ∧ f b = .error failure := by
  induction bs with
  | nil =>
      refine iff_of_false (by simp [pure, Except.pure]) ?_
      rintro ⟨done, b, rest, hnil, -⟩
      simp at hnil
  | cons first others ih =>
      rw [List.mapM_cons]
      cases hfirst : f first with
      | error own =>
          simp only [bind, Except.bind, Except.error.injEq]
          constructor
          · rintro rfl
            exact ⟨[], first, others, rfl, by simp, hfirst⟩
          · rintro ⟨done, b, rest, hsplit, hdone, hb⟩
            cases done with
            | nil =>
                obtain ⟨rfl, -⟩ := List.cons_eq_cons.mp hsplit
                exact Except.error.inj (hfirst.symm.trans hb)
            | cons d done =>
                obtain ⟨rfl, -⟩ := List.cons_eq_cons.mp hsplit
                obtain ⟨c, hc⟩ := hdone first List.mem_cons_self
                rw [hfirst] at hc
                cases hc
      | ok c =>
          have hrest : (Except.ok c >>= fun c => others.mapM f >>= fun cs => pure (c :: cs)) =
              (.error failure : Except ε (List γ)) ↔ others.mapM f = .error failure := by
            cases others.mapM f <;> simp [bind, Except.bind, pure, Except.pure]
          rw [hrest, ih]
          constructor
          · rintro ⟨done, b, rest, rfl, hdone, hb⟩
            exact ⟨first :: done, b, rest, rfl,
              List.forall_mem_cons.mpr ⟨⟨c, hfirst⟩, hdone⟩, hb⟩
          · rintro ⟨done, b, rest, hsplit, hdone, hb⟩
            cases done with
            | nil =>
                obtain ⟨rfl, -⟩ := List.cons_eq_cons.mp hsplit
                rw [hfirst] at hb
                cases hb
            | cons d done =>
                obtain ⟨rfl, rfl⟩ := List.cons_eq_cons.mp hsplit
                exact ⟨done, b, rest, rfl, (List.forall_mem_cons.mp hdone).2, hb⟩

namespace CoveragePlan

/-- A coverage that was read for a query, and what the rendering request leaves of its outline. -/
structure Found (α : Type) where
  /-- The envelope that was asked for. -/
  reading : Envelope α
  coverage : Raster α
  processed : Geometry α
  /-- Whether the request has left the outline alone. -/
  kept : Bool

section Work

variable {α : Type} [Scalar α] (setting : Setting α)

namespace Found

/-- The envelopes with an area that a coverage is cropped to, unless all of it is handed out. -/
def areas (found : Found α) : List (Envelope α) :=
  let e := found.coverage.envelope
  (if found.kept || setting.overlay.sameArea found.processed e.toPolygon then
    if found.reading.contains e then [] else [found.reading.intersection e]
  else
    found.processed.extractPolygons.map fun rings =>
      ((Envelope.ofGeometry (.polygon rings) e.crs).intersection e).intersection
        found.reading).filter (·.hasArea)

/-- What is handed out of a coverage. -/
def parts (found : Found α) : Except (Failure α) (List (Raster α)) :=
  keptParts setting found.reading found.coverage found.coverage.envelope.toPolygon found.processed
    found.kept

end Found

theorem flatten_mapM_cropTo (coverage : Raster α) (es : List (Envelope α)) :
    (do return (← es.mapM (cropTo coverage)).flatten) =
      (es.filter (·.hasArea)).mapM coverage.crop := by
  induction es with
  | nil => rfl
  | cons e rest ih =>
      rw [List.mapM_cons, List.filter_cons, cropTo]
      cases e.hasArea with
      | false =>
          rw [if_neg Bool.false_ne_true, if_neg Bool.false_ne_true, ← ih]
          cases rest.mapM (cropTo coverage) <;> rfl
      | true =>
          rw [if_pos rfl, if_pos rfl, List.mapM_cons, ← ih]
          cases coverage.crop e with
          | error failure => rfl
          | ok part => cases rest.mapM (cropTo coverage) <;> rfl

/-- Handing out parts of a coverage fails exactly where cropping it does. -/
theorem Found.parts_eq_error_iff (found : Found α) {failure : Failure α} :
    found.parts setting = .error failure ↔
      (found.areas setting).mapM found.coverage.crop = .error failure := by
  rw [parts, keptParts, areas]
  split
  · split
    · exact iff_of_false (by simp [pure, Except.pure]) (by simp [pure, Except.pure])
    · rw [← flatten_mapM_cropTo, List.mapM_cons, List.mapM_nil]
      cases cropTo found.coverage
          (found.reading.intersection found.coverage.envelope) with
      | error own => rfl
      | ok pieces => exact iff_of_false (by simp) (by simp [bind, Except.bind, pure, Except.pure])
  · rw [← flatten_mapM_cropTo, List.mapM_map]
    rfl

variable (p : CoveragePlan α) (r : Rendering α) (options : ReadOptions) [PlanarLength α]

/-- The coverage for a query, unless nothing is found or nothing of it is kept. -/
def lookUp (query : Envelope α) : Action α (Option (Found α)) := do
  let some g ← p.readingGrid setting r query | return none
  let g ← p.padded g
  let some coverage ← p.readGrid setting.atlas options g | return none
  let revision ← ofRendering (r.preProcess setting (some coverage.envelope.toPolygon))
  let processed := revision.applyTo coverage.envelope.toPolygon
  if processed.isEmpty then return none
  let kept := match revision with
    | .kept => true
    | .replaced _ => false
  return some { reading := g.envelope, coverage, processed, kept }

/-- For a query a coverage is looked up first, and parts of it are handed out then. -/
theorem readQuery_eq_lookUp (query : Envelope α) :
    p.readQuery setting options r query = (do
      let some found ← p.lookUp setting r options query | return []
      found.parts setting) := by
  rw [readQuery_eq, lookUp, bind_assoc]
  congr 1
  funext found
  cases found with
  | none => rfl
  | some g =>
      simp only [bind_assoc]
      congr 1
      funext g
      rw [handOut]
      congr 1
      funext answer
      cases answer with
      | none => rfl
      | some coverage =>
          simp only [bind_assoc]
          congr 1
          funext revision
          split <;> rfl

/-- Reading a query fails where looking it up does, or where cropping what was looked up does. -/
theorem readQuery_eq_error_iff {query : Envelope α} {before after : Progress α}
    {failure : Failure α} :
    (p.readQuery setting options r query).outcome before = (.error failure, after) ↔
      (p.lookUp setting r options query).outcome before = (.error failure, after) ∨
        ∃ found, (p.lookUp setting r options query).outcome before = (.ok (some found), after) ∧
          (found.areas setting).mapM found.coverage.crop = .error failure := by
  rw [readQuery_eq_lookUp, Action.outcome_bind]
  rcases (p.lookUp setting r options query).outcome before with ⟨own | _ | found, s₁⟩
  · simp
  · simp [Action.outcome_pure]
  · simp only [Action.outcome_lift, Prod.mk.injEq, reduceCtorEq, false_and, false_or,
      Except.ok.injEq, Option.some.injEq, ← Found.parts_eq_error_iff]
    constructor
    · rintro ⟨hparts, rfl⟩
      exact ⟨found, ⟨rfl, rfl⟩, hparts⟩
    · rintro ⟨_, ⟨rfl, rfl⟩, hparts⟩
      exact ⟨hparts, rfl⟩

/-- What is found for a query is an answer of the reader. -/
theorem exists_answer_of_lookUp {query : Envelope α} {before after : Progress α} {found : Found α}
    (hok : (p.lookUp setting r options query).outcome before = (.ok (some found), after)) :
    ∃ request, p.reader.read request = .ok (some found.coverage) := by
  obtain ⟨reading, s₁, -, hok⟩ := Action.exists_of_bind hok
  cases reading with
  | none => cases hok
  | some g =>
      obtain ⟨g, s₂, -, hok⟩ := Action.exists_of_bind hok
      obtain ⟨answer, s₃, hanswer, hok⟩ := Action.exists_of_bind hok
      cases answer with
      | none => cases hok
      | some coverage =>
          obtain ⟨revision, s₄, -, hok⟩ := Action.exists_of_bind hok
          dsimp only at hok
          split at hok
          · cases hok
          · cases hok
            obtain ⟨hnone, -⟩ | ⟨request, -, hread, -⟩ := asked_of_readGrid setting p hanswer
            · cases hnone
            · exact ⟨request, hread⟩

end Work

variable {K : Type} [Field K] [LinearOrder K] [FloorRing K] [IsStrictOrderedRing K]
  {setting : Setting (Extended K)} {found : Found (Extended K)} {axes : PixelAxes K}

omit [IsStrictOrderedRing K] in
/-- A coverage is cropped to envelopes that have an area and lie in it. -/
theorem Found.contains_of_mem_areas (hcoverage : found.coverage.transform = axes.affine)
    {area : Envelope (Extended K)} (harea : area ∈ found.areas setting) :
    area.hasArea = true ∧ found.coverage.envelope.contains area = true := by
  obtain ⟨harea, hsized⟩ := List.mem_filter.mp harea
  refine ⟨hsized, ?_⟩
  have hne := Envelope.isEmpty_of_hasArea hsized
  rw [Raster.envelope_between hcoverage] at harea ⊢
  split at harea
  · split at harea
    · simp at harea
    · obtain rfl := List.mem_singleton.mp harea
      exact Envelope.contains_intersection hne
  · obtain ⟨rings, -, rfl⟩ := List.mem_map.mp harea
    exact Envelope.contains_intersection_of_contains
      (Envelope.contains_intersection (Envelope.isEmpty_of_intersection hne)) hne

/-- Whether cropping stops at an envelope that keeps near one edge between pixels: the first one
that does. -/
structure Found.StopsAt (found : Found (Extended K)) (setting : Setting (Extended K))
    (axes : PixelAxes K) (area : Envelope K) : Prop where
  hugs : axes.Hugs area
  first : ∃ done rest, found.areas setting = done ++ area.finite :: rest ∧
    ∀ other : Envelope K, other.finite ∈ done → ¬axes.Hugs other

theorem Found.crops_eq_error_iff (hcoverage : found.coverage.transform = axes.affine)
    {failure : Failure (Extended K)} :
    (found.areas setting).mapM found.coverage.crop = .error failure ↔
      ∃ area, found.StopsAt setting axes area ∧
        failure = .noOverlap area.finite found.coverage.envelope := by
  have hcontains (area : Envelope (Extended K)) (harea : area ∈ found.areas setting) :=
    (Found.contains_of_mem_areas hcoverage harea).2
  rw [mapM_eq_error_iff]
  constructor
  · rintro ⟨done, area, rest, hareas, hdone, hfails⟩
    have hwithin := hcontains area (by simp [hareas])
    obtain ⟨g, rfl⟩ := Raster.exists_finite_of_contains hcoverage hwithin
    have hhugs : axes.Hugs g := by
      by_contra hfar
      obtain ⟨part, hpart⟩ := (Raster.exists_crop_iff hcoverage hwithin).mpr hfar
      rw [hpart] at hfails
      cases hfails
    refine ⟨g, ⟨hhugs, done, rest, hareas, fun other hother => ?_⟩, ?_⟩
    · exact (Raster.exists_crop_iff hcoverage (hcontains _ (by simp [hareas, hother]))).mp
        (hdone _ hother)
    · rw [Raster.crop_of_hugs hcoverage hwithin hhugs] at hfails
      exact (Except.error.inj hfails).symm
  · rintro ⟨area, ⟨hhugs, done, rest, hareas, hdone⟩, rfl⟩
    refine ⟨done, area.finite, rest, hareas, fun other hother => ?_,
      Raster.crop_of_hugs hcoverage (hcontains _ (by simp [hareas])) hhugs⟩
    have hwithin := hcontains other (by simp [hareas, hother])
    obtain ⟨g, rfl⟩ := Raster.exists_finite_of_contains hcoverage hwithin
    exact (Raster.exists_crop_iff hcoverage hwithin).mpr (hdone g hother)

/-- A raster can be cropped to an envelope that lies in it unless that keeps within a millionth of
a pixel of one edge between pixels, as some envelope with an area does in every raster. Reading
coverages therefore fails where planning the queries fails, where looking up one of them does, or
where a coverage that was found would be cropped to such an envelope, and in no other way. -/
theorem readCoverages_fails_iff_sliver :
    (∀ (coverage : Raster (Extended K)) (axes : PixelAxes K), coverage.transform = axes.affine →
      (∀ e, coverage.envelope.contains e = true →
        ∃ g : Envelope K, e = g.finite ∧ ((∃ part, coverage.crop e = .ok part) ↔ ¬axes.Hugs g) ∧
          (axes.Hugs g → coverage.crop e = .error (.noOverlap e coverage.envelope))) ∧
      (0 < coverage.columns → 0 < coverage.rows →
        ∃ e, e.hasArea = true ∧ coverage.envelope.contains e = true ∧
          coverage.crop e = .error (.noOverlap e coverage.envelope))) ∧
    ∀ [PlanarLength (Extended K)] (setting : Setting (Extended K))
      (plan : CoveragePlan (Extended K)) (r : Rendering (Extended K)) (options : ReadOptions),
      plan.reader.AnswersAlongAxes →
      ∀ (progress after : Progress (Extended K)) (failure : Failure (Extended K)),
        (plan.readCoverages setting options (some r)).outcome progress = (.error failure, after) ↔
          (ofRendering (r.queries setting)).outcome progress = (.error failure, after) ∨
          ∃ query before, plan.ComesToQuery setting r options progress query before ∧
            ((plan.lookUp setting r options query).outcome before = (.error failure, after) ∨
              ∃ found axes area,
                (plan.lookUp setting r options query).outcome before = (.ok (some found), after) ∧
                found.coverage.transform = axes.affine ∧ found.StopsAt setting axes area ∧
                failure = .noOverlap area.finite found.coverage.envelope) := by
  refine ⟨fun coverage axes hcoverage =>
    ⟨fun e hcontains => ?_, Raster.exists_not_cropped hcoverage⟩, ?_⟩
  · obtain ⟨g, rfl⟩ := Raster.exists_finite_of_contains hcoverage hcontains
    exact ⟨g, rfl, Raster.exists_crop_iff hcoverage hcontains,
      Raster.crop_of_hugs hcoverage hcontains⟩
  intro _ setting plan r options halong progress after failure
  rw [readCoverages_eq_error_iff]
  refine or_congr_right (exists₂_congr fun query before => and_congr_right fun _ => ?_)
  rw [readQuery_eq_error_iff]
  refine or_congr_right (exists_congr fun found => ?_)
  constructor
  · rintro ⟨hfound, hcrops⟩
    obtain ⟨request, hread⟩ := exists_answer_of_lookUp setting plan r options hfound
    obtain ⟨axes, haxes⟩ := halong request found.coverage hread
    obtain ⟨area, hstops, hfailure⟩ := (Found.crops_eq_error_iff haxes).mp hcrops
    exact ⟨axes, area, hfound, haxes, hstops, hfailure⟩
  · rintro ⟨axes, area, hfound, haxes, hstops, hfailure⟩
    exact ⟨hfound, (Found.crops_eq_error_iff haxes).mpr ⟨area, hstops, hfailure⟩⟩

/-- A reader answers with a raster that starts a hundred-millionth of a pixel before the eastern
edge of a view. What it shares with the view has an area, but it cannot be cropped to that, and
reading fails. -/
theorem edge_of_view_stops_reading :
    let crs := Crs.ofFrame Crs.Registry.wgs84
    let mapping : Mapping (Extended ℚ) := ⟨fun x y => (x, y), fun _ _ => false, true⟩
    let setting : Setting (Extended ℚ) := ⟨⟨fun _ _ => some mapping⟩,
      ⟨fun _ => true, clipOutlines, fun _ _ => false, fun _ _ => true⟩⟩
    let axes : PixelAxes ℚ := ⟨20 - 1 / 10 ^ 7, 10, 10, -10, false, by decide, by decide⟩
    let whole : Raster (Extended ℚ) :=
      { bands := 1, rows := 2, columns := 3, pixel := fun _ row column => .whole (row * 3 + column),
        pixelType := .int16, transform := axes.affine, crs }
    let reader : CoverageReader (Extended ℚ) :=
      ⟨crs, .ok whole.envelope, [], fun _ => .ok (some whole)⟩
    let view : Envelope ℚ := ⟨-20, -10, 20, 10, some crs⟩
    let _ : PlanarLength (Extended ℚ) := ⟨fun x y => Scalar.max (Scalar.abs x) (Scalar.abs y)⟩
    ∃ plan r start after sliver,
      make reader ⟨0, 0, 4, 2⟩ view.finite .nearest 10 = .ok plan ∧
      Rendering.find setting (some view.finite) (.ok (some crs)) true 1 = .ok (some (r, start)) ∧
      sliver.hasArea = true ∧ whole.envelope.contains sliver = true ∧
      whole.crop sliver = .error (.noOverlap sliver whole.envelope) ∧
      (plan.readCoverages setting {} (some r)).outcome { rendering := start } =
        (.error (.noOverlap sliver whole.envelope), after) := by
  intro crs mapping setting axes whole reader view _
  let same : Transform (Extended ℚ) := .direct crs crs true mapping
  let r := Rendering.geographic view.finite crs.horizontal crs.horizontal 1 same
  let before : Progress (Extended ℚ) :=
    ((ofRendering (r.queries setting)).outcome { rendering := r.start }).2
  have hocc : view.Occupied := by norm_num [view, Envelope.Occupied]
  have hfind : Rendering.find setting (some view.finite) (.ok (some crs)) true 1 =
      .ok (some (r, r.start)) := by
    rw [Rendering.find_geographic rfl rfl (Envelope.isEmpty_finite hocc) (by decide)]
    rfl
  have hglobe : Rendering.SameGlobe view crs crs := ⟨rfl, by decide, by decide, by decide +kernel⟩
  have hlooked : ((make reader ⟨0, 0, 4, 2⟩ view.finite .nearest 10).toOption.any fun plan =>
      ((plan.lookUp setting r {} view.finite).outcome before).1.toOption.any fun found =>
        found.any fun found => (found.areas setting).length == 1 &&
          (found.areas setting).all fun e =>
            e.minx == .finite (20 - 1 / 10 ^ 7) && e.maxx == .finite 20) = true := by
    decide +kernel
  obtain ⟨hcrops, hreads⟩ := readCoverages_fails_iff_sliver (K := ℚ)
  cases hmake : make reader ⟨0, 0, 4, 2⟩ view.finite .nearest 10 with
  | error failure => simp [hmake, Except.toOption] at hlooked
  | ok plan =>
      rw [hmake] at hlooked
      rcases hfound : (plan.lookUp setting r {} view.finite).outcome before with
        ⟨failure | _ | found, after⟩
      · simp [hfound, Except.toOption] at hlooked
      · simp [hfound, Except.toOption] at hlooked
      · simp only [hfound, Except.toOption, Option.any_some, Bool.and_eq_true, beq_iff_eq,
          List.length_eq_one_iff, List.all_eq_true] at hlooked
        obtain ⟨⟨area, hareas⟩, hbounds⟩ := hlooked
        have hreader := reader_of_make hmake
        have halong : plan.reader.AnswersAlongAxes := by
          rw [hreader]
          rintro request answer ⟨⟩
          exact ⟨axes, rfl⟩
        obtain ⟨request, hread⟩ := exists_answer_of_lookUp setting plan r {} hfound
        rw [hreader] at hread
        have hcoverage : found.coverage = whole := (Option.some.inj (Except.ok.inj hread)).symm
        have haxes : found.coverage.transform = axes.affine := by rw [hcoverage]
        have hmem : area ∈ found.areas setting := by simp [hareas]
        obtain ⟨harea, hcontains⟩ := Found.contains_of_mem_areas haxes hmem
        rw [hcoverage] at hcontains
        obtain ⟨sliver, rfl, -, hcrop⟩ := (hcrops whole axes rfl).1 area hcontains
        have hhugs : axes.Hugs sliver := by
          obtain ⟨hwest, heast⟩ := hbounds _ hmem
          simp only [Envelope.finite_minx, Envelope.finite_maxx, Extended.finite_beq_finite,
            decide_eq_true_eq] at hwest heast
          exact .inl ⟨0, by norm_num [axes, hwest], by norm_num [axes, heast]⟩
        have hstops : found.StopsAt setting axes sliver := ⟨hhugs, [], [], hareas, by simp⟩
        have hcomes := comesToQuery_view setting plan {} hglobe hocc (by norm_num [view]) 1 same
        have hfails := (hreads setting plan r {} halong { rendering := r.start } after _).mpr
          (.inr ⟨view.finite, before, hcomes,
            .inr ⟨found, axes, sliver, hfound, haxes, hstops, rfl⟩⟩)
        rw [hcoverage] at hfails
        exact ⟨plan, r, r.start, after, sliver.finite, rfl, hfind, harea, hcontains,
          hcrop hhugs, hfails⟩

end CoveragePlan

end Antimeridian
