import Antimeridian.Proofs.Coverage.Queries

/-!
# A query for the whole map

The pixels of a map divide its extent, and the pixels that cover the extent are these again, from
whatever column and row they are counted. A map and data in one system are therefore read on the
same pixels whether the map is read in one go or for a query that is its whole extent, with a gutter
or without one.
-/

namespace Antimeridian

namespace PixelRect

/-- Whether there are pixels in a rectangle. -/
abbrev HasPixels (rect : PixelRect) : Prop := 0 < rect.width ∧ 0 < rect.height

/-- The rectangle with a gutter of some pixels on every side, or without one. -/
def bordered (rect : PixelRect) (gutter : Bool) (padding : Int) : PixelRect :=
  if gutter then
    ⟨rect.column - padding, rect.row - padding, rect.width + 2 * padding, rect.height + 2 * padding⟩
  else rect

theorem HasPixels.bordered {rect : PixelRect} (hsize : rect.HasPixels) (gutter : Bool)
    {padding : Int} (hpadding : 0 ≤ padding) : (rect.bordered gutter padding).HasPixels := by
  cases gutter with
  | false => exact hsize
  | true =>
      simp only [HasPixels, PixelRect.bordered, if_true] at hsize ⊢
      omega

end PixelRect

namespace Grid

variable {α : Type}

/-- The grid of a rectangle that holds pixels. -/
def ofRect {rect : PixelRect} (hsize : rect.HasPixels) (transform : Affine α)
    (crs : Crs) : Grid α :=
  ⟨rect.column, rect.row, rect.width, rect.height, transform, crs, hsize.1, hsize.2⟩

theorem make_of_hasPixels {rect : PixelRect} (hsize : rect.HasPixels)
    (transform : Affine α) (crs : Crs) :
    make rect transform (.ok crs) = .ok (ofRect hsize transform crs) := by
  rw [make, dif_pos hsize]
  rfl

theorem withGutter_of_rect {rect : PixelRect} (hsize : rect.HasPixels)
    (transform : Affine α) (crs : Crs) (gutter : Bool) {padding : Int} (hpadding : 0 ≤ padding) :
    (if gutter then (ofRect hsize transform crs).withGutter padding
      else .ok (ofRect hsize transform crs)) =
        .ok (ofRect (hsize.bordered gutter hpadding) transform crs) := by
  cases gutter with
  | false => rfl
  | true => exact make_of_hasPixels (hsize.bordered true hpadding) transform crs

end Grid

variable {K : Type} [Field K] [LinearOrder K] [FloorRing K] [IsStrictOrderedRing K]
  {e : Envelope K} {crs : Crs} {rect : PixelRect}

namespace NorthUp

/-- The grid that divides an envelope. -/
def dividingGrid (harea : e.HasArea) (hsize : rect.HasPixels) (crs : Crs) :
    Grid (Extended K) := Grid.ofRect hsize (dividing harea hsize).affine crs

theorem ofEnvelope_eq_ok (harea : e.HasArea) (hcrs : e.crs = some crs)
    (hsize : rect.HasPixels) :
    Grid.ofEnvelope e.finite rect = .ok (dividingGrid harea hsize crs) := by
  rw [ofEnvelope_eq harea hsize, hcrs]
  exact Grid.make_of_hasPixels hsize _ crs

/-- It takes up the envelope. -/
theorem envelope_dividingGrid (harea : e.HasArea) (hcrs : e.crs = some crs)
    (hsize : rect.HasPixels) :
    (dividingGrid harea hsize crs).envelope = e.finite := by
  have hlabelled : ({ e with crs := none } : Envelope K).labelled crs = e := by
    rw [Envelope.labelled, ← hcrs]
  rw [(dividing harea hsize).grid_envelope_eq rfl]
  exact congrArg Envelope.finite
    ((congrArg (Envelope.labelled · crs) (extent_dividing harea hsize)).trans hlabelled)

/-- The pixels that cover it are its own, however many of them a grid has. -/
theorem pixelsOf_dividing (harea : e.HasArea) (hsize : rect.HasPixels)
    {g : Grid (Extended K)} (hg : g.transform = (dividing harea hsize).affine) :
    g.pixelsOf e.finite = .ok rect := by
  have hcovering := (dividing harea hsize).covering_extent hsize.1.le hsize.2.le
  rw [extent_dividing] at hcovering
  rw [(dividing harea hsize).pixelsOf_eq hg]
  exact congrArg Except.ok hcovering

end NorthUp

namespace CoveragePlan

theorem Action.liftM_ok {α β : Type} (b : β) :
    (liftM (.ok b : Except (Failure α) β) : Action α β) = pure b := rfl

open NorthUp

variable {reader : CoverageReader (Extended K)} {resampling : Resampling} {padding : Int}
  {plan : CoveragePlan (Extended K)}

variable (reader resampling) in
/-- The plan for a map has the grid that divides its extent, with a gutter if it needs one. -/
theorem exists_make (harea : e.HasArea) (hcrs : e.crs = some crs)
    (hsize : rect.HasPixels) (hpadding : 0 ≤ padding) :
    ∃ plan, make reader rect e.finite resampling padding = .ok plan ∧ plan.reader = reader ∧
      plan.sameCrs = crs.same reader.crs ∧ plan.padding = padding ∧
      plan.paddingRequired = needsGutter (crs.same reader.crs) resampling ∧
      plan.grid = Grid.ofRect (hsize.bordered plan.paddingRequired hpadding)
        (dividing harea hsize).affine crs := by
  have hsame : Crs.same? e.finite.crs (some reader.crs) = crs.same reader.crs := by
    rw [Envelope.finite_crs, hcrs]
    rfl
  have hgrid := Grid.withGutter_of_rect hsize (dividing harea hsize).affine crs
    (needsGutter (crs.same reader.crs) resampling) hpadding
  have hmake : make reader rect e.finite resampling padding =
      (if needsGutter (crs.same reader.crs) resampling then
        (dividingGrid harea hsize crs).withGutter padding
      else .ok (dividingGrid harea hsize crs)) >>= fun grid =>
        .ok { reader, grid, sameCrs := crs.same reader.crs, resampling, padding } := by
    rw [make, ofEnvelope_eq_ok harea hcrs hsize, hsame]
    simp only [bind, Except.bind]
    split <;> rfl
  rw [hmake, dividingGrid, hgrid]
  exact ⟨_, rfl, rfl, rfl, rfl, rfl, rfl⟩

variable [PlanarLength (Extended K)] (setting : Setting (Extended K)) (r : Rendering (Extended K))

omit [IsStrictOrderedRing K] in
/-- Where map and data are in one system, a query is read on the pixels of the map that cover it. -/
theorem readingGrid_of_same (hsame : plan.sameCrs = true) (query : Envelope (Extended K)) :
    plan.readingGrid setting r query = (do
      let rect ← plan.grid.pixelsOf query
      if rect.width ≤ 0 || rect.height ≤ 0 then return none
      return some (← Grid.make rect plan.grid.transform (.ok plan.reader.crs))) := by
  rw [readingGrid, if_pos hsame]

/-- The pixels that cover the extent of the map are those of the map without its gutter. -/
theorem readingGrid_whole (harea : e.HasArea) (hsize : rect.HasPixels)
    (hsame : plan.sameCrs = true)
    (htransform : plan.grid.transform = (dividing harea hsize).affine) :
    plan.readingGrid setting r e.finite =
      pure (some (Grid.ofRect hsize (dividing harea hsize).affine plan.reader.crs)) := by
  have hwide : (rect.width ≤ 0 || rect.height ≤ 0) = false := by simp [hsize.1, hsize.2]
  rw [readingGrid_of_same setting r hsame, pixelsOf_dividing harea hsize htransform,
    Action.liftM_ok, pure_bind, hwide, htransform, Grid.make_of_hasPixels hsize, Action.liftM_ok]
  rfl

/-- With the gutter that the plan needs they are the pixels of the map. -/
theorem readQuery_whole (harea : e.HasArea) (hsize : rect.HasPixels)
    (hpadding : 0 ≤ plan.padding) (hsame : plan.sameCrs = true)
    (hgrid : plan.grid = Grid.ofRect (hsize.bordered plan.paddingRequired hpadding)
      (dividing harea hsize).affine crs) (options : ReadOptions) :
    plan.readQuery setting options r e.finite =
      plan.handOut setting r options { plan.grid with crs := plan.reader.crs } := by
  have htransform : plan.grid.transform = (dividing harea hsize).affine := by rw [hgrid]; rfl
  have hpadded : plan.padded (Grid.ofRect hsize (dividing harea hsize).affine plan.reader.crs) =
      .ok { plan.grid with crs := plan.reader.crs } := by
    rw [padded, Grid.withGutter_of_rect hsize _ _ _ hpadding, hgrid]
    rfl
  rw [readQuery_eq, readingGrid_whole setting r harea hsize hsame htransform, pure_bind]
  dsimp only
  rw [hpadded]
  rfl

variable (e rect crs) in
/-- The grid of a map takes up its extent, and the pixels that cover the extent are those of the
grid. Where the data are in the system of the map, with a gutter or without one, a query that is
the whole extent is therefore read on the rectangle and with the transform of the map in one go. -/
theorem whole_query_asks_for_grid_of_map (harea : e.HasArea) (hcrs : e.crs = some crs)
    (hsize : rect.HasPixels) :
    (∃ g, Grid.ofEnvelope e.finite rect = .ok g ∧ g.rect = rect ∧ g.envelope = e.finite ∧
      g.pixelsOf e.finite = .ok rect) ∧
    ∀ (reader : CoverageReader (Extended K)) (resampling : Resampling) (padding : Int),
      crs.same reader.crs = true → 0 ≤ padding →
      ∃ plan part, make reader rect e.finite resampling padding = .ok plan ∧
        plan.grid.rect = rect.bordered (needsGutter true resampling) padding ∧
        part.rect = plan.grid.rect ∧ part.transform = plan.grid.transform ∧
        ∀ (setting : Setting (Extended K)) (options : ReadOptions)
          (progress : Progress (Extended K)),
          ((plan.readCoverage setting.atlas options).outcome progress).2.requests =
            progress.requests ++ plan.asksFor setting options plan.grid ∧
          ∀ (r : Rendering (Extended K)) (before : Progress (Extended K)),
            plan.ComesToQuery setting r options progress e.finite before →
            ∃ later, ((plan.readCoverages setting options (some r)).outcome progress).2.requests =
              before.requests ++ plan.asksFor setting options part ++ later := by
  refine ⟨⟨dividingGrid harea hsize crs, ofEnvelope_eq_ok harea hcrs hsize, rfl,
    envelope_dividingGrid harea hcrs hsize, pixelsOf_dividing harea hsize rfl⟩, ?_⟩
  intro reader resampling padding hsame hpadding
  obtain ⟨plan, hmake, -, hplan, rfl, hrequired, hgrid⟩ :=
    exists_make reader resampling harea hcrs hsize hpadding
  have hrect : plan.grid.rect = rect.bordered (needsGutter true resampling) plan.padding := by
    rw [← hsame, ← hrequired, hgrid]
    rfl
  refine ⟨plan, { plan.grid with crs := plan.reader.crs }, hmake, hrect, rfl, rfl,
    fun setting options progress => ⟨plan.requests_readGrid setting options plan.grid progress, ?_⟩⟩
  intro r before hcomes
  obtain ⟨later, hlater⟩ := plan.exists_requests_readCoverages setting r options hcomes
  rw [readQuery_whole setting r harea hsize hpadding (hplan.trans hsame) hgrid,
    requests_handOut] at hlater
  exact ⟨later, hlater⟩

/-- A map across the antimeridian that starts three columns right of the origin and two rows above
it, with a gutter of ten pixels for interpolation. Its first query is the whole map. -/
theorem interpolated_view_asks_for_grid_of_map :
    let crs := Crs.ofFrame Crs.Registry.wgs84
    let mapping : Mapping (Extended ℚ) := ⟨fun x y => (x, y), fun _ _ => false, true⟩
    let setting : Setting (Extended ℚ) := ⟨⟨fun _ _ => some mapping⟩,
      ⟨fun _ => true, clipOutlines, fun _ _ => false, fun _ _ => true⟩⟩
    let e : Envelope ℚ := ⟨160, -10, 200, 10, some crs⟩
    let reader : CoverageReader (Extended ℚ) := ⟨crs, .ok e.finite, [], fun _ => .ok none⟩
    let _ : PlanarLength (Extended ℚ) := ⟨fun x y => Scalar.max (Scalar.abs x) (Scalar.abs y)⟩
    ∃ plan part r start later,
      make reader ⟨3, -2, 4, 2⟩ e.finite .bilinear 10 = .ok plan ∧
      Rendering.find setting (some e.finite) (.ok (some crs)) true 1 = .ok (some (r, start)) ∧
      part.rect = ⟨-7, -12, 24, 22⟩ ∧ part.transform = plan.grid.transform ∧
      ((plan.readCoverage setting.atlas {}).outcome { rendering := start }).2.requests =
        plan.asksFor setting {} plan.grid ∧
      ((plan.readCoverages setting {} (some r)).outcome { rendering := start }).2.requests =
        plan.asksFor setting {} part ++ later := by
  intro crs mapping setting e reader _
  let same : Transform (Extended ℚ) := .direct crs crs true mapping
  let r := Rendering.geographic e.finite crs.horizontal crs.horizontal 1 same
  have harea : e.HasArea := by norm_num [e, Envelope.HasArea]
  have hfind : Rendering.find setting (some e.finite) (.ok (some crs)) true 1 =
      .ok (some (r, r.start)) := by
    rw [Rendering.find_geographic rfl rfl (Envelope.isEmpty_finite harea.occupied) (by decide)]
    rfl
  obtain ⟨-, hplans⟩ := whole_query_asks_for_grid_of_map e crs ⟨3, -2, 4, 2⟩ harea rfl (by decide)
  obtain ⟨plan, part, hmake, hrect, hpart, htransform, hasked⟩ :=
    hplans reader .bilinear 10 (by decide +kernel) (by decide)
  obtain ⟨hwhole, hqueries⟩ := hasked setting {} { rendering := r.start }
  have hglobe : Rendering.SameGlobe e crs crs := ⟨rfl, by decide, by decide, by decide +kernel⟩
  have hcomes := comesToQuery_view setting plan {} hglobe harea.occupied (by norm_num [e]) 1 same
  obtain ⟨later, hlater⟩ := hqueries r _ hcomes
  rw [Action.Quiet.ofRendering] at hlater
  exact ⟨plan, part, r, r.start, later, hmake, hfind, hpart.trans hrect, htransform, hwhole,
    hlater⟩

end CoveragePlan

end Antimeridian
