import Antimeridian.Proofs.Coverage.Footprint
import Antimeridian.Proofs.Coverage.NativeReads
import Antimeridian.Proofs.Coverage.Outcome

/-!
# Coverages for a map lose nothing

A map and a north-up raster file share a geographic system. Reading the file for the queries of a
request snaps to the pixels of the map, then to those of the file, brings them to the resolution of
the map, cuts the outline of what was read to the queries, and crops to the pixels that were read.
Each of these may lose slivers of a pixel. A point that lies deeper than that in the file, and some
turns away in the map, lies in one of the coverages.
-/

namespace Antimeridian

/-- Whether the pixels of a transform are no larger than a limit along either axis. -/
def Affine.SidesWithin {α : Type} [Scalar α] (t : Affine α) (limit : α) : Prop :=
  Scalar.abs t.a ≤ limit ∧ Scalar.abs t.e ≤ limit

instance {α : Type} [Scalar α] (t : Affine α) (limit : α) : Decidable (t.SidesWithin limit) :=
  inferInstanceAs (Decidable (_ ∧ _))

variable {K : Type} [Field K] [LinearOrder K] [FloorRing K] [IsStrictOrderedRing K]

theorem NorthUp.sidesWithin_affine (u : NorthUp K) (limit : K) :
    u.affine.SidesWithin (.finite limit) ↔ u.width ≤ limit ∧ u.height ≤ limit := by
  simp [Affine.SidesWithin, affine, abs_of_pos u.width_pos, abs_of_pos u.height_pos]

/-- Of a point that lies deep in an area, some turns away, a query holds the surroundings. -/
theorem Rendering.Holds.exists_deep {area : Envelope K} {cap : Int} {queries : List (Envelope K)}
    (hqueries : Holds area cap queries) {d m : K} {p : K × K} {k : Int} (hk : |k| ≤ cap)
    (hdeep : area.Deep d (p.1 + 360 * k, p.2)) (hwest : -180 + d ≤ p.1) (heast : p.1 + d ≤ 180)
    (hm : 0 ≤ m) (hmd : m < d) : ∃ query ∈ queries, query.Deep m p := by
  obtain ⟨⟨hleft, hright⟩, hbottom, htop⟩ := hdeep
  let around : Envelope K := ⟨p.1 + 360 * k - m, p.2 - m, p.1 + 360 * k + m, p.2 + m, none⟩
  obtain ⟨query, hquery, ⟨hqwest, hqeast⟩, hqsouth, hqnorth⟩ :=
    hqueries.reach around ⟨by simp only [around]; linarith, by simp only [around]; linarith⟩
      (by simp only [around]; linarith) (by simp only [around]; linarith)
      (by simp only [around]; linarith) (by simp only [around]; linarith) k hk
      (by simp only [around]; linarith) (by simp only [around]; linarith)
  simp only [around] at hqwest hqeast hqsouth hqnorth
  refine ⟨query, hquery, ⟨?_, ?_⟩, ?_, ?_⟩ <;> linarith

namespace CoveragePlan

/-- A plan to read a north-up raster file for a map in the system of the file. -/
structure Plain (setting : Setting (Extended K)) (plan : CoveragePlan (Extended K))
    (reader : FileReader (Extended K)) (map data : NorthUp K) : Prop where
  reader_eq : plan.reader = reader.toCoverageReader setting.atlas (.raster reader.file)
  data_eq : reader.file.contents.transform = data.affine
  map_eq : plan.grid.transform = map.affine
  sameCrs_eq : plan.sameCrs = true
  resampling_eq : plan.resampling = .nearest

variable {setting : Setting (Extended K)} {plan : CoveragePlan (Extended K)}
  {reader : FileReader (Extended K)} {map data : NorthUp K} {m s : K} {p : K × K}

theorem exists_plain_of_make {area : Envelope K} (harea : area.HasArea)
    (hdata : reader.file.contents.transform = data.affine)
    (hsame : Crs.same? area.crs (some reader.file.contents.crs) = true) {rect : PixelRect}
    {padding : Int}
    (hok : make (reader.toCoverageReader setting.atlas (.raster reader.file)) rect area.finite
      .nearest padding = .ok plan) : ∃ map : NorthUp K, plan.Plain setting reader map data := by
  obtain ⟨g, hgrid, hok⟩ := bind_eq_ok_iff.mp hok
  have hsameCrs : Crs.same? area.finite.crs
      (some (reader.toCoverageReader setting.atlas (.raster reader.file)).crs) = true := hsame
  have hplain : needsGutter true .nearest = false := rfl
  simp only [hsameCrs, hplain, Bool.false_eq_true, if_false] at hok
  cases hok
  obtain ⟨map, hmap, -⟩ := NorthUp.exists_of_ofEnvelope harea hgrid
  exact ⟨map, rfl, hdata, hmap, rfl, rfl⟩

namespace Plain

/-- A query is read on the pixels of the map that cover it. -/
theorem exists_of_readingGrid [PlanarLength (Extended K)]
    (hplan : plan.Plain setting reader map data) {query : Envelope K} (hdeep : query.Deep m p)
    (hs : 0 ≤ s) (hsm : s < m)
    (hwidth : map.width ≤ 10 ^ 6 * s) (hheight : map.height ≤ 10 ^ 6 * s)
    {r : Rendering (Extended K)} {answer : Option (Grid (Extended K))}
    {progress progress' : Progress (Extended K)}
    (hok : (plan.readingGrid setting r query.finite).outcome progress = (.ok answer, progress')) :
    ∃ g, ∃ e : Envelope K, answer = some g ∧ g.envelope = e.finite ∧ e.crs = some g.crs ∧
      g.crs = reader.file.contents.crs ∧ e.Deep (m - s) p := by
  have hocc := (hdeep.hasArea (hs.trans_lt hsm)).occupied
  have hcovering := NorthUp.deep_covering hocc hdeep hwidth hheight
  have harea := hcovering.hasArea (sub_pos.mpr hsm)
  have hpixels := map.pixelsOf_eq hplan.map_eq query
  unfold readingGrid at hok
  rw [if_pos hplan.sameCrs_eq, hpixels] at hok
  obtain ⟨rect, progress₁, hrect, hok⟩ := Action.exists_of_bind hok
  cases hrect
  split at hok
  next hnone =>
    have hsize := map.size_pos harea
    simp only [Bool.or_eq_true, decide_eq_true_eq] at hnone
    omega
  next =>
    obtain ⟨g, progress₂, hg, hok⟩ := Action.exists_of_bind hok
    cases hok
    rw [Action.outcome_lift] at hg
    obtain ⟨-, htransform, hrect, hcrs⟩ := Grid.make_eq_ok (Prod.mk.inj hg).1
    have hown : g.crs = reader.file.contents.crs := by
      rw [hplan.reader_eq] at hcrs
      exact (Except.ok.inj hcrs).symm
    refine ⟨g, _, rfl, map.grid_envelope_eq (htransform.trans hplan.map_eq), rfl, hown, ?_⟩
    rw [hrect]
    exact hcovering

/-- A grid in the system of the file is read as whole pixels of the file. -/
theorem exists_of_readGrid (hplan : plan.Plain setting reader map data)
    (hgeographic : reader.file.contents.crs.isGeographic = true) {g : Grid (Extended K)}
    {e : Envelope K} (hg : g.envelope = e.finite) (hcrs : e.crs = some g.crs)
    (hown : g.crs = reader.file.contents.crs) (he : e.Deep m p)
    (hdata : (data.extent reader.file.contents.whole).Deep m p) (hs : 0 ≤ s) (hsm : s < m)
    (hwidth : data.width ≤ 10 ^ 6 * s) (hheight : data.height ≤ 10 ^ 6 * s) {options : ReadOptions}
    {answer : Option (Raster (Extended K))} {progress progress' : Progress (Extended K)}
    (hok : (plan.readGrid setting.atlas options g).outcome progress = (.ok answer, progress')) :
    ∃ coverage, ∃ v : NorthUp K, answer = some coverage ∧
      coverage.crs = reader.file.contents.crs ∧ coverage.transform = v.affine ∧
      (v.extent coverage.whole).Deep (m - s) p := by
  have hm := hs.trans hsm.le
  have hsame : reader.file.contents.crs.same reader.file.contents.crs = true :=
    Crs.same_self_of_isGeographic hgeographic
  have hmeets : overlaps setting.atlas plan.reader g.envelope = .ok true := by
    have hsame? : Crs.same? (some reader.file.contents.crs) (some g.crs) = true := by
      rwa [hown]
    have hmeets := Envelope.intersects_finite_iff.mpr ⟨p, hdata.mem_region hm, he.mem_region hm⟩
    rw [hplan.reader_eq, hg]
    simp only [overlaps, FileReader.toCoverageReader, Raster.envelope_eq hplan.data_eq,
      Envelope.finite_crs, Envelope.labelled, hcrs, bind, Except.bind, hsame?, if_true]
    exact congrArg Except.ok hmeets
  unfold readGrid at hok
  rw [hmeets] at hok
  dsimp only at hok
  obtain ⟨_, progress₁, -, hok⟩ := Action.exists_of_bind hok
  rw [Action.outcome_lift, hplan.reader_eq] at hok
  have hread := (Prod.mk.inj hok).1
  simp only [FileReader.toCoverageReader, FileReader.read, hown, hsame, if_true] at hread
  exact FileReader.exists_of_readNative hplan.data_eq hg he hdata hs hsm hwidth hheight hread

variable {area : Envelope K} {target : Crs} {relation : Transform (Extended K)} {cap : Int}
  {r : Rendering (Extended K)} {queries : List (Envelope K)}

/-- Of the coverages of a query one is what was read, or is cropped from it around a point that lies
deep in the query and in the file. -/
theorem exists_of_readQuery [PlanarLength (Extended K)] (hplan : plan.Plain setting reader map data)
    (hclips : setting.overlay.ClipsOutlines)
    (hgeographic : reader.file.contents.crs.isGeographic = true)
    (hr : r = .geographic area.finite reader.file.contents.crs.horizontal target.horizontal cap
      relation)
    (hqueries : r.plan setting true = .ok (queries.map Envelope.finite))
    (hocc : ∀ query ∈ queries, query.Occupied) {query : Envelope K} (hquery : query ∈ queries)
    (hdeep : query.Deep m p) (hdata : (data.extent reader.file.contents.whole).Deep m p)
    (hs : 0 ≤ s) (hsm : 2 * s < m) (hmap : map.width ≤ 10 ^ 6 * s ∧ map.height ≤ 10 ^ 6 * s)
    (hfile : data.width ≤ 10 ^ 6 * s ∧ data.height ≤ 10 ^ 6 * s) {options : ReadOptions}
    {parts : List (Raster (Extended K))} {progress progress' : Progress (Extended K)}
    (hplanned : Rendering.Planned setting r progress.rendering)
    (hok : (plan.readQuery setting options r query.finite).outcome progress =
      (.ok parts, progress')) :
    ∃ coverage, ∃ v : NorthUp K, coverage.transform = v.affine ∧
      (v.extent coverage.whole).Deep (m - 2 * s) p ∧ ∃ part ∈ parts, part = coverage ∨
        ∃ f : Envelope K, f.Deep (m - 2 * s) p ∧ coverage.crop f.finite = .ok part := by
  have hpositive : 0 < m - 2 * s := sub_pos.mpr hsm
  unfold readQuery at hok
  obtain ⟨reading, progress₁, hreading, hok⟩ := Action.exists_of_bind hok
  have hplanned₁ := keeps_readingGrid setting plan r query.finite progress hplanned
  rw [hreading] at hplanned₁
  obtain ⟨g, e, rfl, hg, hcrs, hown, he⟩ :=
    hplan.exists_of_readingGrid hdeep hs (by linarith) hmap.1 hmap.2 hreading
  have hgutter : plan.paddingRequired = false := by
    rw [paddingRequired, hplan.sameCrs_eq, hplan.resampling_eq]
    rfl
  simp only [hgutter, Bool.false_eq_true, if_false, pure_bind] at hok
  obtain ⟨coverage, progress₂, hcoverage, hok⟩ := Action.exists_of_bind hok
  have hplanned₂ := keeps_readGrid setting plan options g _ progress₁ hplanned₁
  rw [hcoverage] at hplanned₂
  obtain ⟨coverage, v, rfl, hcoverageCrs, hv, hextent⟩ :=
    hplan.exists_of_readGrid hgeographic hg hcrs hown he (hdata.mono (by linarith)) hs
      (by linarith) hfile.1 hfile.2 hcoverage
  rw [sub_sub, ← two_mul] at hextent
  refine ⟨coverage, v, hv, hextent, ?_⟩
  have henvelope := Raster.envelope_eq hv
  have hreads : e.Deep (m - 2 * s) p := he.mono (by linarith)
  -- what is kept is found from the outline of what was read
  obtain ⟨revision, progress₃, hrevision, hok⟩ := Action.exists_of_bind hok
  rw [Action.outcome_ofRendering, henvelope] at hrevision
  have hleft := Rendering.exists_of_preProcess
    (e := (v.extent coverage.whole).labelled coverage.crs) hr hgeographic hqueries hocc hclips
    hquery (hdeep.mono (by linarith)) hextent hpositive coverage.crs hplanned₂
    (Prod.ext (Prod.mk.inj hrevision).1 rfl)
  have harea : ((v.extent coverage.whole).labelled coverage.crs).HasArea :=
    hextent.hasArea hpositive
  rw [hg, henvelope, Envelope.toPolygon_finite harea] at hok
  rcases hleft with rfl | ⟨h, rfl, rings, hrings, hbounds⟩
  · exact exists_of_keptParts henvelope rfl hextent hreads hpositive (.inl rfl)
      (Prod.mk.inj hok).1
  · have hne := (Geometry.isEmptyPolygon_of_mem hrings).2
    simp only [Revision.applyTo, Geometry.isEmpty_finite, hne] at hok
    exact exists_of_keptParts henvelope rfl hextent hreads hpositive
      (.inr ⟨h, rfl, rings, hrings, hbounds⟩) (Prod.mk.inj hok).1

end Plain

/-- What was read, or is cropped from it, holds a point that lies deep enough in both. -/
theorem covers_of_crop_or_eq {coverage part : Raster (Extended K)} {v : NorthUp K}
    (hv : coverage.transform = v.affine) (hextent : (v.extent coverage.whole).Deep m p)
    (hpart : part = coverage ∨
      ∃ f : Envelope K, f.Deep m p ∧ coverage.crop f.finite = .ok part)
    (hs : 0 ≤ s) (hsm : s < m) (hsides : part.transform.SidesWithin (.finite (10 ^ 6 * s))) :
    part.envelope.covers (.finite p.1) (.finite p.2) = true := by
  rcases hpart with rfl | ⟨f, hf, hcrop⟩
  · exact Raster.covers_of_deep hv (hs.trans hsm.le) hextent
  · obtain ⟨hx, hy⟩ := Raster.sides_of_crop hv hcrop
    have hsize : v.width ≤ 10 ^ 6 * s ∧ v.height ≤ 10 ^ 6 * s := by
      rwa [← NorthUp.sidesWithin_affine, Affine.SidesWithin, NorthUp.affine, ← hx, ← hy]
    exact Raster.covers_of_crop hv hcrop hf hextent hs hsm hsize.1 hsize.2

/-- A point of the file that some turns up to the cap move into the map lies in a coverage, unless
it lies within a hundred-thousandth of a pixel from an edge of the file or of the map. -/
theorem readCoverages_loses_nothing [PlanarLength (Extended K)]
    (hclips : setting.overlay.ClipsOutlines)
    -- a north-up file in a geographic system, between half a turn west and half a turn east
    (hdata : reader.file.contents.transform = data.affine)
    (hstored : -180 ≤ (data.extent reader.file.contents.whole).minx ∧
      (data.extent reader.file.contents.whole).maxx ≤ 180)
    -- a map in the same system
    {area : Envelope K} {target : Crs}
    (hglobe : Rendering.SameGlobe area reader.file.contents.crs target)
    (harea : area.HasArea) (hlatitudes : -90 ≤ area.miny ∧ area.maxy ≤ 90)
    (hwidth : area.maxx - area.minx ≤ 359 ∨ 360 ≤ area.maxx - area.minx)
    {rect : PixelRect} {padding : Int}
    (hplan : make (reader.toCoverageReader setting.atlas (.raster reader.file)) rect area.finite
      .nearest padding = .ok plan)
    -- a request with copies, and what reading comes to
    {cap : Int} (hcap : 1 ≤ cap) {r : Rendering (Extended K)} {start : Rendering.State (Extended K)}
    (hfind : Rendering.find setting (some area.finite) (.ok (some reader.file.contents.crs)) true
      cap = .ok (some (r, start)))
    {options : ReadOptions} {coverages : List (Raster (Extended K))}
    {progress : Progress (Extended K)}
    (hread : (plan.readCoverages setting options (some r)).outcome { rendering := start } =
      (.ok coverages, progress))
    {d : K} (hsides : ∀ t ∈ plan.grid.transform :: reader.file.contents.transform ::
      coverages.map (·.transform), t.SidesWithin (.finite (10 ^ 5 * d)))
    {k : Int} (hk : |k| ≤ cap)
    (hdeep : (data.extent reader.file.contents.whole).Deep d p)
    (hvisible : area.Deep d (p.1 + 360 * k, p.2)) :
    ∃ coverage ∈ coverages, coverage.envelope.covers (.finite p.1) (.finite p.2) = true := by
  obtain ⟨map, hplain⟩ := exists_plain_of_make harea hdata
    (by rw [hglobe.crs_eq]; exact hglobe.same) hplan
  -- a tenth of the depth for each of the places where pixels are snapped
  have hscale : (10 : K) ^ 5 * d = 10 ^ 6 * (d / 10) := by ring
  rw [hscale] at hsides
  obtain ⟨hmap, hfile, hcoverages⟩ : _ ∧ _ ∧ _ := by
    simpa only [List.forall_mem_cons] using hsides
  rw [hplain.map_eq, NorthUp.sidesWithin_affine] at hmap
  rw [hdata, NorthUp.sidesWithin_affine] at hfile
  have hd : 0 < d := by linarith [data.width_pos, hfile.1]
  obtain ⟨relation, hr, hstart⟩ := Rendering.eq_geographic_of_find hglobe (by omega) hfind
  obtain ⟨queries, hqueries, hholds⟩ := Rendering.exists_holds setting relation cap hglobe
    harea.occupied (by linarith [hlatitudes.1, hlatitudes.2]) hwidth
  rw [← hr] at hqueries
  obtain ⟨query, hquery, hquerydeep⟩ := hholds.exists_deep hk hvisible
    (by linarith [hstored.1, hdeep.1.1]) (by linarith [hstored.2, hdeep.1.2])
    (show 0 ≤ 9 / 10 * d by positivity) (by linarith)
  have hcopies : r.makesCopies = true := by
    rw [hr]
    rfl
  have hplanned : Rendering.Planned setting r start := by
    rw [hstart]
    exact Rendering.plannedAs_start setting r _
  obtain ⟨parts, before, after, hbefore, hparts, hsubset⟩ := exists_of_readCoverages setting plan r
    hread hplanned (hcopies ▸ hqueries) (List.mem_map_of_mem hquery)
  obtain ⟨coverage, v, hv, hextent, part, hpart, hcropped⟩ := hplain.exists_of_readQuery hclips
    hglobe.geographic_source hr hqueries hholds.occupied hquery hquerydeep
    (hdeep.mono (by linarith)) (show 0 ≤ d / 10 by positivity) (by linarith) hmap hfile hbefore
    hparts
  have hmem := hsubset hpart
  exact ⟨part, hmem, covers_of_crop_or_eq hv hextent hcropped (by positivity) (by linarith)
    (hcoverages _ (List.mem_map_of_mem hmem))⟩

/-- A place of a world-wide file that a map shows a turn to the east lies in the coverage for it. -/
theorem reads_place_a_turn_away :
    let crs := Crs.ofFrame Crs.Registry.wgs84
    let mapping : Mapping (Extended ℚ) := ⟨fun x y => (x, y), fun _ _ => false, true⟩
    let setting : Setting (Extended ℚ) := ⟨⟨fun _ _ => some mapping⟩,
      ⟨fun _ => true, clipOutlines, fun _ _ => true, fun _ _ => true⟩⟩
    let data : NorthUp ℚ := ⟨-180, 90, 1, 1, one_pos, one_pos⟩
    let contents : Raster (Extended ℚ) :=
      { bands := 1, rows := 180, columns := 360, pixel := fun _ _ column => .whole column,
        pixelType := .int16, transform := data.affine, crs }
    let reader : FileReader (Extended ℚ) :=
      ⟨"world.tif", ⟨contents, [none], []⟩, [.whole 1], MemoryCheck.defaultFactor, 2 ^ 30⟩
    let area : Envelope ℚ := ⟨0, -80, 360, 80, some crs⟩
    let _ : PlanarLength (Extended ℚ) := ⟨fun x y => Scalar.max (Scalar.abs x) (Scalar.abs y)⟩
    ∃ plan r start coverages progress,
      make (reader.toCoverageReader setting.atlas (.raster reader.file)) ⟨0, 0, 36, 16⟩ area.finite
        .nearest 10 = .ok plan ∧
      Rendering.find setting (some area.finite) (.ok (some crs)) true 1 = .ok (some (r, start)) ∧
      (plan.readCoverages setting {} (some r)).outcome { rendering := start } =
        (.ok coverages, progress) ∧
      ∃ coverage ∈ coverages, coverage.envelope.covers (.finite (-170)) (.finite 0) = true := by
  intro crs mapping setting data contents reader area _
  let same : Transform (Extended ℚ) := .direct crs crs true mapping
  let r := Rendering.geographic area.finite crs.horizontal crs.horizontal 1 same
  have harea : area.HasArea := by norm_num [area, Envelope.HasArea]
  have hglobe : Rendering.SameGlobe area crs crs := ⟨rfl, rfl, rfl, rfl⟩
  have hfind : Rendering.find setting (some area.finite) (.ok (some crs)) true 1 =
      .ok (some (r, r.start)) := by
    rw [Rendering.find_geographic rfl rfl (Envelope.isEmpty_finite harea.occupied) (by decide)]
    rfl
  let world := (Envelope.stored (area.labelled crs.horizontal)).finite
  have hqueries : r.plan setting r.makesCopies = .ok [world] :=
    Rendering.plan_of_wide setting same 1 hglobe harea.occupied (by norm_num [area])
  let queried : Progress (Extended ℚ) := { rendering := { r.start with queries := some [world] } }
  let limit : Extended ℚ := .finite (10 ^ 5 * (1 / 1000))
  let reads (plan : CoveragePlan (Extended ℚ)) : Action (Extended ℚ) (List (Raster (Extended ℚ))) :=
    return (← [world].mapM (plan.readQuery setting {} r)).flatten
  have hreads : ((make (reader.toCoverageReader setting.atlas (.raster reader.file))
      ⟨0, 0, 36, 16⟩ area.finite .nearest 10).toOption.any fun plan =>
        ((reads plan).outcome queried).1.toOption.any fun coverages =>
          (plan.grid.transform :: contents.transform :: coverages.map (·.transform)).all fun t =>
            t.SidesWithin limit) = true := by
    decide +kernel
  cases hmake : make (reader.toCoverageReader setting.atlas (.raster reader.file)) ⟨0, 0, 36, 16⟩
    area.finite .nearest 10 with
  | error failure => simp [hmake, Except.toOption] at hreads
  | ok plan =>
      simp only [hmake, Except.toOption, Option.any_some] at hreads
      rcases hwork : (reads plan).outcome queried with ⟨failure | coverages, progress⟩
      · rw [hwork] at hreads
        contradiction
      · rw [hwork] at hreads
        have hread : (plan.readCoverages setting {} (some r)).outcome { rendering := r.start } =
            (.ok coverages, progress) :=
          (outcome_readCoverages setting plan r {} (Rendering.plannedAs_start setting r _)
            hqueries).trans hwork
        have hsides : ∀ t ∈ plan.grid.transform :: contents.transform ::
            coverages.map (·.transform), t.SidesWithin limit := by
          simpa only [Option.any_some, List.all_eq_true, decide_eq_true_eq] using hreads
        refine ⟨plan, r, r.start, coverages, progress, rfl, hfind, hread, ?_⟩
        have hdata : reader.file.contents.transform = data.affine := rfl
        have hstored : -180 ≤ (data.extent reader.file.contents.whole).minx ∧
            (data.extent reader.file.contents.whole).maxx ≤ 180 := by
          norm_num [NorthUp.extent, data, Raster.whole, reader, contents]
        have hdeep : (data.extent reader.file.contents.whole).Deep (1 / 1000) (-170, 0) := by
          norm_num [Envelope.Deep, NorthUp.extent, data, Raster.whole, reader, contents]
        have hvisible : area.Deep (1 / 1000) (-170 + 360 * (1 : Int), 0) := by
          norm_num [Envelope.Deep, area]
        exact readCoverages_loses_nothing (clipsOutlines_of_outlines rfl) hdata hstored hglobe harea
          (by norm_num [area]) (by norm_num [area]) hmake le_rfl hfind hread hsides (by norm_num)
          hdeep hvisible

end CoveragePlan

end Antimeridian
