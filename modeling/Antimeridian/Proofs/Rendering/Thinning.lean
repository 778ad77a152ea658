import Antimeridian.Proofs.Envelope.Image
import Antimeridian.Proofs.Envelope.Pieces
import Antimeridian.Proofs.Rendering.Request
import Antimeridian.Rendering.Queries

/-!
# Queries that are left out

Planning carries the pieces of the geographic area to the system of the data one after another, and
leaves out what an envelope kept earlier covers up to rounding. Whatever the pieces are carried to,
what is kept is kept in order, none of it lies in what was kept before it, and whatever is left out
lies in something that is kept, but for the rounding.
-/

namespace Antimeridian.Rendering

open Envelope

/-! ## Leaving out what is covered -/

section Uncovered

variable {α : Type} [Scalar α]

/-- Those of some envelopes that are covered neither by an envelope found before nor by one of them
that was kept earlier. -/
def uncovered (found : List (Envelope α)) : List (Envelope α) → List (Envelope α)
  | [] => []
  | e :: rest =>
    if found.any (covers · e) then uncovered found rest
    else e :: uncovered (found ++ [e]) rest

theorem uncovered_sublist (found es : List (Envelope α)) : (uncovered found es).Sublist es := by
  induction es generalizing found with
  | nil => exact .slnil
  | cons e rest ih =>
      rw [uncovered]
      split
      · exact (ih found).cons e
      · exact (ih (found ++ [e])).cons_cons e

/-- An envelope is kept, or covered by one that was found before or is kept. -/
theorem mem_uncovered_or {es : List (Envelope α)} {e : Envelope α} (he : e ∈ es)
    (found : List (Envelope α)) :
    e ∈ uncovered found es ∨ ∃ outer ∈ found ++ uncovered found es, covers outer e = true := by
  induction es generalizing found with
  | nil => contradiction
  | cons first rest ih =>
      rw [uncovered]
      split
      next hcovered =>
        rcases List.mem_cons.mp he with rfl | he
        · obtain ⟨outer, houter, hcovers⟩ := List.any_eq_true.mp hcovered
          exact .inr ⟨outer, List.mem_append_left _ houter, hcovers⟩
        · exact ih he found
      next =>
        rcases List.mem_cons.mp he with rfl | he
        · exact .inl List.mem_cons_self
        · rw [← List.singleton_append, ← List.append_assoc]
          exact (ih he (found ++ [first])).imp_left (List.mem_append_right _)

/-- What is kept is not covered by what was kept before it. -/
theorem pairwise_uncovered {found : List (Envelope α)}
    (hfound : found.Pairwise fun earlier later => covers earlier later = false)
    (es : List (Envelope α)) :
    (found ++ uncovered found es).Pairwise fun earlier later => covers earlier later = false := by
  induction es generalizing found with
  | nil => rwa [uncovered, List.append_nil]
  | cons e rest ih =>
      rw [uncovered]
      split
      · exact ih hfound
      next hnone =>
        rw [List.append_cons]
        apply ih
        rw [List.pairwise_append]
        refine ⟨hfound, List.pairwise_singleton _ _, ?_⟩
        simpa using hnone

end Uncovered

/-! ## Planning -/

section Planning

variable {α : Type} [Scalar α]

/-- Projecting carries all pieces to the system of the data and leaves out what is covered. -/
theorem projectPieces_eq (setting : Setting α) (source : Crs) (found pieces : List (Envelope α)) :
    projectPieces setting source found pieces = do
      let images ← pieces.mapM (·.transform setting.atlas source)
      return found ++ uncovered found images := by
  induction pieces generalizing found with
  | nil => exact congrArg Except.ok (List.append_nil found).symm
  | cons piece rest ih =>
      rw [projectPieces, List.mapM_cons]
      cases piece.transform setting.atlas source with
      | error failure => rfl
      | ok e =>
          simp only [bind, Except.bind, ih]
          cases rest.mapM (·.transform setting.atlas source) with
          | error failure => split <;> rfl
          | ok images =>
              simp only [pure, Except.pure, uncovered]
              split
              · rfl
              · rw [List.append_assoc, List.singleton_append]

/-- What of a geographic area lies in the valid one. -/
def clipped (r : Rendering α) (geographic : Envelope α) : Envelope α :=
  (r.validArea.map geographic.intersection).getD geographic

/-- The pieces in the stored range of what of the geographic area lies in the valid one. -/
def pieces (setting : Setting α) (r : Rendering α) : Except (Failure α) (List (Envelope α)) := do
  (r.clipped (← r.geographicArea setting)).splitAcrossDateline r.cap

/-- The envelopes to query where `image` carries the pieces to the system of the data. -/
def planThrough (setting : Setting α) (r : Rendering α)
    (image : Envelope α → Except (Failure α) (Envelope α)) :
    Except (Failure α) (List (Envelope α)) := do
  let images ← (← r.pieces setting).mapM image
  return uncovered [] images

theorem planWithin_eq (setting : Setting α) (r : Rendering α) (geographic : Envelope α) :
    r.planWithin setting true geographic = do
      let pieces ← (r.clipped geographic).splitAcrossDateline r.cap
      return uncovered [] (← pieces.mapM (·.transform setting.atlas r.source)) := by
  have hpieces : r.planWithin setting true geographic =
      if r.validArea.isSome && (r.clipped geographic).isEmpty then .ok []
      else (r.clipped geographic).splitAcrossDateline r.cap >>=
        fun pieces => projectPieces setting r.source [] pieces := rfl
  simp only [hpieces, projectPieces_eq, List.nil_append]
  split
  next hnone =>
    -- nothing is split into no pieces
    rw [splitAcrossDateline, (Bool.and_eq_true_iff.mp hnone).2]
    rfl
  next => rfl

theorem plan_eq_planThrough (setting : Setting α) (r : Rendering α) :
    r.plan setting true = r.planThrough setting (·.transform setting.atlas r.source) := by
  rw [plan, Bool.not_true, Bool.and_false, planThrough, pieces]
  cases r.geographicArea setting with
  | error failure => rfl
  | ok geographic => exact planWithin_eq setting r geographic

end Planning

/-! ## Areas of geographic systems -/

section Geographic

variable {K : Type} [Field K] [LinearOrder K] [FloorRing K]

/-- An area of a geographic system is its own geographic area. -/
theorem geographicArea_geographic (setting : Setting (Extended K)) {area : Envelope K}
    {source target : Crs} {cap : Int} {relation : Transform (Extended K)}
    (hcrs : area.crs = some target) (hgeographic : target.isGeographic = true) :
    geographicArea setting
        (geographic area.finite source.horizontal target.horizontal cap relation) =
      .ok (area.labelled target.horizontal).finite := by
  have hsame : target.same target.horizontal.horizontal = true := by
    simpa using Crs.same_self_of_isGeographic hgeographic
  have harea : area.finite.transform setting.atlas target.horizontal.horizontal =
      .ok (area.labelled target.horizontal).finite := by
    rw [transform_of_same (e := area.finite) hcrs hsame, Crs.horizontal_horizontal,
      Crs.horizontal_horizontal]
    rfl
  have hgeographic' : target.horizontal.isGeographic = true := by
    rw [Crs.isGeographic_horizontal, hgeographic]
  rw [geographicArea]
  simp only [geographic, harea, bind, Except.bind, hgeographic']
  rfl

end Geographic

/-! ## Rounding -/

section Rounding

variable {K : Type} [Field K] [LinearOrder K]

/-- The rounding up to which an envelope counts as covered. -/
def tolerance (e : Envelope K) : K := 1 / 10 ^ 9 * max (e.maxx - e.minx) (e.maxy - e.miny)

variable [IsStrictOrderedRing K]

theorem tolerance_nonneg {e : Envelope K} (hocc : e.Occupied) : 0 ≤ tolerance e :=
  mul_nonneg (by positivity) (le_max_of_le_left (sub_nonneg.mpr hocc.1))

theorem covers_finite [FloorRing K] {outer inner : Envelope K} (houter : outer.Occupied)
    (hinner : inner.Occupied) :
    covers outer.finite inner.finite = true ↔
      (outer.minx - tolerance outer ≤ inner.minx ∧ inner.maxx ≤ outer.maxx + tolerance outer) ∧
        outer.miny - tolerance outer ≤ inner.miny ∧ inner.maxy ≤ outer.maxy + tolerance outer := by
  have htol : (1e-9 : Extended K) * Scalar.max outer.finite.width outer.finite.height =
      .finite (tolerance outer) := by
    rw [width_finite houter, height_finite houter, Extended.max_finite, Extended.ofScientific_eq,
      Extended.finite_mul, tolerance, Nat.cast_one]
  have hnonneg := tolerance_nonneg houter
  have hexpand : outer.finite.expandBy (.finite (tolerance outer)) (.finite (tolerance outer)) =
      (⟨outer.minx - tolerance outer, outer.miny - tolerance outer, outer.maxx + tolerance outer,
        outer.maxy + tolerance outer, outer.crs⟩ : Envelope K).finite := by
    rw [expandBy, isEmpty_finite houter]
    simp [finite]
  rw [covers, htol, hexpand, contains_finite ⟨?_, ?_⟩ hinner]
  · simp only
    linarith [houter.1]
  · simp only
    linarith [houter.2]

variable [FloorRing K] {outer inner e : Envelope (Extended K)}

/-- An envelope covers what it contains. -/
theorem covers_of_contains (houter : outer.IsBounded) (hinner : inner.IsBounded)
    (hcontains : outer.contains inner = true) : covers outer inner = true := by
  rcases houter.cases with hempty | ⟨f, rfl, hf⟩
  · simp [contains, hempty] at hcontains
  · rcases hinner.cases with hempty | ⟨g, rfl, hg⟩
    · simp [contains, hempty] at hcontains
    · obtain ⟨⟨hwest, heast⟩, hsouth, hnorth⟩ := (contains_finite hf hg).mp hcontains
      have hnonneg := tolerance_nonneg hf
      exact (covers_finite hf hg).mpr ⟨⟨by linarith, by linarith⟩, by linarith, by linarith⟩

theorem covers_self (hbounded : e.IsBounded) (hne : e.isEmpty = false) : covers e e = true := by
  rcases hbounded.cases with hempty | ⟨f, rfl, hf⟩
  · exact absurd (hempty.symm.trans hne) (by decide)
  · exact covers_of_contains hbounded hbounded
      ((contains_finite hf hf).mpr ⟨⟨le_rfl, le_rfl⟩, le_rfl, le_rfl⟩)

/-- Leaving out what is covered loses no area: wherever the pieces of the area are carried to, every
image with points lies in one that is kept, once that is grown by a billionth of its longer side.
None that is kept is contained in one that is kept before it. -/
theorem leaving_out_covered_loses_nothing (setting : Setting (Extended K))
    (r : Rendering (Extended K))
    {image : Envelope (Extended K) → Except (Failure (Extended K)) (Envelope (Extended K))}
    {pieces images : List (Envelope (Extended K))} (hpieces : r.pieces setting = .ok pieces)
    (himages : pieces.mapM image = .ok images) (hbounded : ∀ e ∈ images, e.IsBounded) :
    r.plan setting true = r.planThrough setting (·.transform setting.atlas r.source) ∧
      ∃ queries, r.planThrough setting image = .ok queries ∧ queries.Sublist images ∧
        (∀ e ∈ images, e.isEmpty = false → ∃ query ∈ queries,
          let margin := 1e-9 * Scalar.max query.width query.height
          (query.expandBy margin margin).contains e = true) ∧
        queries.Pairwise fun earlier later => earlier.contains later = false := by
  have hsub := uncovered_sublist [] images
  have hplan : r.planThrough setting image = .ok (uncovered [] images) := by
    rw [planThrough, hpieces]
    simp only [bind, Except.bind, himages]
    rfl
  refine ⟨plan_eq_planThrough setting r, _, hplan, hsub, ?_, ?_⟩
  · intro e he hne
    rcases mem_uncovered_or he [] with hkept | ⟨outer, houter, hcovers⟩
    · exact ⟨e, hkept, covers_self (hbounded e he) hne⟩
    · exact ⟨outer, houter, hcovers⟩
  · have hapart := pairwise_uncovered List.Pairwise.nil images
    refine hapart.imp_of_mem fun {earlier later} hearlier hlater hnot => ?_
    rw [← Bool.not_eq_true] at hnot ⊢
    exact fun hcontains => hnot (covers_of_contains (hbounded _ (hsub.subset hearlier))
      (hbounded _ (hsub.subset hlater)) hcontains)

end Rounding

/-- Beyond the antimeridian the area is split into two pieces. A chart that tells places by their
latitudes alone shows both as the same square, which is queried once. -/
theorem pieces_shown_alike_are_queried_once :
    let setting : Setting (Extended ℚ) := ⟨⟨fun _ _ => none⟩,
      ⟨fun _ => true, fun g _ => g, fun _ _ => false, fun _ _ => true⟩⟩
    let area : Envelope ℚ := ⟨170, -10, 190, 10, some Crs.wgs84⟩
    let square : Envelope ℚ := ⟨-10, -10, 10, 10, some Crs.wgs84⟩
    let same : Transform (Extended ℚ) :=
      .direct Crs.wgs84 Crs.wgs84 true ⟨fun x y => (x, y), fun _ _ => false, true⟩
    let r := geographic area.finite Crs.wgs84.horizontal Crs.wgs84.horizontal 10 same
    let image : Envelope (Extended ℚ) → Except (Failure (Extended ℚ)) (Envelope (Extended ℚ)) :=
      fun e => .ok { e with minx := e.miny, maxx := e.maxy }
    r.pieces setting =
        .ok [area.finite, (⟨-180, -10, -170, 10, some Crs.wgs84⟩ : Envelope ℚ).finite] ∧
      r.planThrough setting image = .ok [square.finite] := by
  intro setting area square same r image
  have hocc : area.Occupied := by norm_num [area, Occupied]
  have hgeographic : r.geographicArea setting = .ok area.finite :=
    geographicArea_geographic setting (show area.crs = some Crs.wgs84 from rfl) rfl
  obtain ⟨turns, hnearer, hmem, hsplit⟩ :=
    exists_splitAcrossDateline hocc (by norm_num [area]) 10
  have hturns : turns = [-1] := by
    apply eq_of_pairwise_nearer hnearer (List.pairwise_singleton _ _)
    intro k
    rw [hmem, List.mem_singleton]
    constructor
    · rintro ⟨hzero, -, -, hwest, heast⟩
      change (-180 : ℚ) < 190 + 360 * k at hwest
      change (170 : ℚ) + 360 * k < 180 at heast
      have hwest' : -180 < 190 + 360 * k := by exact_mod_cast hwest
      have heast' : 170 + 360 * k < 180 := by exact_mod_cast heast
      omega
    · rintro rfl
      norm_num [area, Reaches]
  have hpieces : r.pieces setting =
      .ok [area.finite, (⟨-180, -10, -170, 10, some Crs.wgs84⟩ : Envelope ℚ).finite] := by
    have hclipped : r.clipped area.finite = area.finite := rfl
    simp only [pieces, hgeographic, bind, Except.bind, hclipped]
    rw [hturns] at hsplit
    refine Eq.trans hsplit ?_
    norm_num [area, storedPart]
  have himages : [area.finite, (⟨-180, -10, -170, 10, some Crs.wgs84⟩ : Envelope ℚ).finite].mapM
      image = .ok [square.finite, square.finite] := by
    simp only [List.mapM_cons, List.mapM_nil, image, area, square, Envelope.finite, bind,
      Except.bind, pure, Except.pure]
  have hbounded : ∀ e ∈ [square.finite, square.finite], e.IsBounded := by
    simp [IsBounded]
  obtain ⟨-, queries, hplan, hsub, hreached, hapart⟩ :=
    leaving_out_covered_loses_nothing setting r hpieces himages hbounded
  have hall : ∀ query ∈ queries, query = square.finite := by
    intro query hquery
    simpa using hsub.subset hquery
  have hsquare : square.finite.contains square.finite = true := by decide +kernel
  obtain ⟨query, hquery, -⟩ := hreached square.finite List.mem_cons_self (by decide +kernel)
  refine ⟨hpieces, hplan.trans ?_⟩
  cases hapart with
  | nil => exact absurd hquery List.not_mem_nil
  | @cons first rest hfirst _ =>
      obtain ⟨hsame, hrest⟩ := List.forall_mem_cons.mp hall
      cases rest with
      | nil => rw [hsame]
      | cons second rest =>
          have hnot := hfirst second List.mem_cons_self
          rw [hsame, hrest second List.mem_cons_self, hsquare] at hnot
          exact absurd hnot (by decide)

end Antimeridian.Rendering
