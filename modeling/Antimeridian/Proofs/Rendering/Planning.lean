import Antimeridian.Proofs.Rendering.Outcome
import Antimeridian.Proofs.Rendering.Thinning

/-!
# Queries that reach everything visible

Data are stored between half a turn west and half a turn east. For a geographic area the planned
queries reach, once they are grown by their margin, every stored place that some turns up to the
cap move into the area: a piece that is left out lies, but for a tolerance far below the margin, in
a query that is kept.
-/

namespace Antimeridian.Rendering

open Envelope

/-! ## Pieces that are left out -/

section Margin

variable {K : Type} [Field K] [LinearOrder K]

/-- The envelope grown by a tenth of its extent on each side. -/
def grown (e : Envelope K) : Envelope K :=
  ⟨e.minx - (e.maxx - e.minx) / 10, e.miny - (e.maxy - e.miny) / 10,
    e.maxx + (e.maxx - e.minx) / 10, e.maxy + (e.maxy - e.miny) / 10, e.crs⟩

variable [IsStrictOrderedRing K]

theorem region_subset_grown {e : Envelope K} (hocc : e.Occupied) :
    e.region ⊆ (grown e).region := by
  intro p hp
  rw [mem_region] at hp ⊢
  have hwidth := sub_nonneg.mpr hocc.1
  have hheight := sub_nonneg.mpr hocc.2
  simp only [grown]
  exact ⟨⟨by linarith, by linarith⟩, by linarith, by linarith⟩

/-- Suppose a part were covered by a piece of other turns that is thinner than ten tolerances. Then
the envelope would fall short of a turn by less than the tolerance, so that the two would lie at
opposite ends of the stored range. -/
theorem tolerance_le_margin {e q : Envelope K} {i k : Int} {tol : K}
    (hsmall : tol ≤ 1 / 10 ^ 6) (hreach : e.Reaches k) (hne : i ≠ k)
    (hq : q = e ∧ i = 0 ∨ q = e.storedPart i) (hwest : q.minx - tol ≤ (e.storedPart k).minx)
    (heast : (e.storedPart k).maxx ≤ q.maxx + tol) : tol ≤ (q.maxx - q.minx) / 10 := by
  by_contra hthin
  push Not at hthin
  have hwidth := storedPart_minx_lt_maxx_iff.mpr hreach
  have hpart : e.WithinTurn k (e.storedPart k) := withinTurn_storedPart
  have hpiece : e.WithinTurn i q := by
    rcases hq with ⟨rfl, rfl⟩ | rfl
    · simp [WithinTurn]
    · exact withinTurn_storedPart
  obtain ⟨hpartwest, hparteast⟩ := hpart
  obtain ⟨hpiecewest, hpieceeast⟩ := hpiece
  -- a part that is cut at one edge of the range and a piece that is cut at the other are far apart
  rcases lt_or_gt_of_ne hne with hlt | hgt
  · have hturn : (i : K) + 1 ≤ k := by exact_mod_cast hlt
    rcases hq with ⟨rfl, rfl⟩ | rfl
    · linarith
    · have hend : (e.storedPart k).maxx = 180 := by
        refine (min_choice _ _).resolve_left fun heq => ?_
        have hmax : (e.storedPart k).maxx = e.maxx + 360 * k := heq
        linarith
      have hstart : (e.storedPart i).minx = e.minx + 360 * i := by
        refine (max_choice _ _).resolve_right fun heq => ?_
        have hmin : (e.storedPart i).minx = -180 := heq
        linarith
      linarith
  · have hturn : (k : K) + 1 ≤ i := by exact_mod_cast hgt
    rcases hq with ⟨rfl, rfl⟩ | rfl
    · linarith
    · have hend : (e.storedPart k).minx = -180 := by
        refine (max_choice _ _).resolve_left fun heq => ?_
        have hmin : (e.storedPart k).minx = e.minx + 360 * k := heq
        linarith
      have hstart : (e.storedPart i).maxx = e.maxx + 360 * i := by
        refine (min_choice _ _).resolve_right fun heq => ?_
        have hmax : (e.storedPart i).maxx = 180 := heq
        linarith
      linarith

theorem tolerance_le {e : Envelope K} (hwidth : e.maxx - e.minx ≤ 360)
    (hheight : e.maxy - e.miny ≤ 180) : tolerance e ≤ 1 / 10 ^ 6 := by
  have hmax : max (e.maxx - e.minx) (e.maxy - e.miny) ≤ 360 := by
    rw [max_le_iff]
    constructor <;> linarith
  have hscale := mul_le_mul_of_nonneg_left hmax (show (0 : K) ≤ 1 / 10 ^ 9 by positivity)
  rw [tolerance]
  norm_num at hscale ⊢
  linarith

/-- A query within the tolerance of which a part lies reaches that part with its margin. -/
theorem region_subset_grown_of_covers [FloorRing K] {e q : Envelope K} {i k : Int}
    (hocc : e.Occupied) (hnarrow : e.maxx - e.minx < 360) (hlow : e.maxy - e.miny ≤ 180)
    (hreach : e.Reaches k) (hzero : k ≠ 0)
    (hq : q = e ∧ i = 0 ∨ q = e.storedPart i ∧ e.Reaches i)
    (hcovers : covers q.finite (e.storedPart k).finite = true) :
    (e.storedPart k).region ⊆ (grown q).region := by
  have hqocc : q.Occupied := by
    rcases hq with ⟨rfl, -⟩ | ⟨rfl, hi⟩
    · exact hocc
    · exact hi.occupied hocc
  have hpart := hreach.occupied hocc
  by_cases heq : i = k
  · rcases hq with ⟨-, rfl⟩ | ⟨rfl, -⟩
    · exact (hzero heq.symm).elim
    · rw [heq]
      exact region_subset_grown hpart
  · have hheights : q.miny = e.miny ∧ q.maxy = e.maxy := by
      rcases hq with ⟨rfl, -⟩ | ⟨rfl, -⟩ <;> exact ⟨rfl, rfl⟩
    have hwidth : q.maxx - q.minx ≤ e.maxx - e.minx := by
      rcases hq with ⟨rfl, -⟩ | ⟨rfl, -⟩
      · exact le_rfl
      · have hwithin : e.WithinTurn i (e.storedPart i) := withinTurn_storedPart
        linarith [hwithin.1, hwithin.2]
    have hsmall : tolerance q ≤ 1 / 10 ^ 6 := by
      apply tolerance_le
      · linarith
      · rwa [hheights.1, hheights.2]
    obtain ⟨⟨hwest, heast⟩, -⟩ := (covers_finite hqocc hpart).mp hcovers
    have hmargin := tolerance_le_margin hsmall hreach heq (hq.imp_right And.left) hwest heast
    intro p hp
    rw [mem_region] at hp ⊢
    obtain ⟨⟨hpwest, hpeast⟩, hpsouth, hpnorth⟩ := hp
    have hheight := sub_nonneg.mpr hocc.2
    simp only [grown, storedPart, hheights.1, hheights.2] at hpsouth hpnorth ⊢
    exact ⟨⟨by linarith, by linarith⟩, by linarith, by linarith⟩

end Margin

/-! ## Planned queries -/

section Plan

variable {K : Type} [Field K] [LinearOrder K] [FloorRing K]

variable (setting : Setting (Extended K)) {own source : Crs}

theorem transform_piece (hsame : own.same source = true) {piece : Envelope K}
    (hpiece : piece.crs = some own) :
    piece.finite.transform setting.atlas source = .ok (piece.labelled source.horizontal).finite :=
  transform_of_same hpiece hsame

theorem projectPieces_first (hsame : own.same source = true) {piece : Envelope K}
    (hpiece : piece.crs = some own) (rest : List (Envelope K)) :
    projectPieces setting source [] ((piece :: rest).map finite) =
      projectPieces setting source ([piece.labelled source.horizontal].map finite)
        (rest.map finite) := by
  rw [List.map_cons, projectPieces, transform_piece setting hsame hpiece]
  rfl

theorem mapM_transform_pieces (hsame : own.same source = true) {pieces : List (Envelope K)}
    (hpieces : ∀ piece ∈ pieces, piece.crs = some own) :
    (pieces.map finite).mapM (·.transform setting.atlas source) =
      .ok ((pieces.map (·.labelled source.horizontal)).map finite) := by
  induction pieces with
  | nil => rfl
  | cons piece rest ih =>
      obtain ⟨hpiece, hrest⟩ := List.forall_mem_cons.mp hpieces
      rw [List.map_cons, List.mapM_cons, transform_piece setting hsame hpiece, ih hrest]
      rfl

/-- Of pieces in the system of the data, each is a query or covered by one. -/
theorem exists_projectPieces (hsame : own.same source = true) {pieces : List (Envelope K)}
    (hpieces : ∀ piece ∈ pieces, piece.crs = some own) (found : List (Envelope K)) :
    ∃ queries : List (Envelope K),
      projectPieces setting source (found.map finite) (pieces.map finite) =
        .ok (queries.map finite) ∧
      found <+: queries ∧
      (∀ query ∈ queries, query ∈ found ∨
        ∃ piece ∈ pieces, query = piece.labelled source.horizontal) ∧
      ∀ piece ∈ pieces, piece.labelled source.horizontal ∈ queries ∨ ∃ query ∈ queries,
        covers query.finite (piece.labelled source.horizontal).finite = true := by
  obtain ⟨kept, hkept, heq⟩ := List.sublist_map_iff.mp (uncovered_sublist (found.map finite)
    ((pieces.map (·.labelled source.horizontal)).map finite))
  refine ⟨found ++ kept, ?_, List.prefix_append _ _, ?_, ?_⟩
  · rw [projectPieces_eq, mapM_transform_pieces setting hsame hpieces, List.map_append, ← heq]
    rfl
  · intro query hquery
    refine (List.mem_append.mp hquery).imp_right fun hnew => ?_
    obtain ⟨piece, hpiece, rfl⟩ := List.mem_map.mp (hkept.subset hnew)
    exact ⟨piece, hpiece, rfl⟩
  · intro piece hpiece
    have himage := List.mem_map_of_mem (f := finite)
      (List.mem_map_of_mem (f := (·.labelled source.horizontal)) hpiece)
    rcases mem_uncovered_or himage (found.map finite) with hmem | ⟨outer, houter, hcovers⟩
    · rw [heq, List.mem_map_of_injective Envelope.finite_injective] at hmem
      exact .inl (List.mem_append_right _ hmem)
    · rw [heq, ← List.map_append] at houter
      obtain ⟨query, hquery, rfl⟩ := List.mem_map.mp houter
      exact .inr ⟨query, hquery, hcovers⟩

/-- A request that renders geographic data in an area of the same system. -/
structure SameGlobe (area : Envelope K) (source target : Crs) : Prop where
  crs_eq : area.crs = some target
  geographic_target : target.isGeographic = true
  geographic_source : source.isGeographic = true
  same : target.same source = true

variable {area : Envelope K} {target : Crs} {relation : Transform (Extended K)} {cap : Int}

/-- Queries that reach, grown by their margin, every stored place that some turns up to the cap move
into an area. -/
structure Serves (area : Envelope K) (cap : Int) (queries : List (Envelope K)) : Prop where
  occupied : ∀ query ∈ queries, query.Occupied
  hasArea : area.HasArea → ∀ query ∈ queries, query.HasArea
  reach : ∀ p : K × K, area.minx < p.1 → p.1 < area.maxx → area.miny < p.2 → p.2 < area.maxy →
    ∀ k : Int, |k| ≤ cap → -180 ≤ p.1 - 360 * k → p.1 - 360 * k ≤ 180 →
      ∃ query ∈ queries, (p.1 - 360 * k, p.2) ∈ (grown query).region

/-- Planning splits the area and expresses its pieces in the system of the data. -/
theorem plan_geographic (hglobe : SameGlobe area source target) :
    (geographic area.finite source.horizontal target.horizontal cap relation).plan setting true =
      (area.labelled target.horizontal).finite.splitAcrossDateline cap >>=
        projectPieces setting source.horizontal [] := by
  rw [plan, geographicArea_geographic setting hglobe.crs_eq hglobe.geographic_target]
  rfl

theorem eq_geographic_of_find {setting : Setting (Extended K)} {r : Rendering (Extended K)}
    {s : State (Extended K)} (hglobe : SameGlobe area source target) (hcap : 0 < cap)
    (hfind : find setting (some area.finite) (.ok (some source)) true cap = .ok (some (r, s))) :
    ∃ relation, r = geographic area.finite source.horizontal target.horizontal cap relation ∧
      s = r.start := by
  have hcrs : area.finite.crs = some target := hglobe.crs_eq
  have hocc := Envelope.isEmpty_finite (occupied_of_find hfind)
  rw [find_geographic hcrs hglobe.geographic_target hocc hcap] at hfind
  cases hrelation : setting.atlas.find source.horizontal target.horizontal with
  | error failure => simp [hrelation, bind, Except.bind] at hfind
  | ok relation =>
      simp only [hrelation, bind, Except.bind, pure, Except.pure, Except.ok.injEq,
        Option.some.injEq, Prod.mk.injEq] at hfind
      obtain ⟨rfl, rfl⟩ := hfind
      exact ⟨relation, rfl, rfl⟩

variable [IsStrictOrderedRing K]

omit [IsStrictOrderedRing K] in
/-- For an area as wide as a turn the whole stored range is the only query. -/
theorem plan_of_wide (relation : Transform (Extended K)) (cap : Int)
    (hglobe : SameGlobe area source target) (hocc : area.Occupied)
    (hwide : 360 ≤ area.maxx - area.minx) :
    (geographic area.finite source.horizontal target.horizontal cap relation).plan setting true =
      .ok [(stored (area.labelled source.horizontal)).finite] := by
  have hsame : target.horizontal.same source.horizontal = true := by simpa using hglobe.same
  have hcrs : (stored (area.labelled target.horizontal)).crs = some target.horizontal := rfl
  have hsplit := splitAcrossDateline_of_wide (e := area.labelled target.horizontal) hocc hwide cap
  have hproject := projectPieces_first setting hsame hcrs []
  rw [Crs.horizontal_horizontal] at hproject
  rw [plan_geographic setting hglobe, hsplit]
  exact hproject

theorem exists_queries_of_wide (relation : Transform (Extended K)) (cap : Int)
    (hglobe : SameGlobe area source target) (hocc : area.Occupied)
    (hwide : 360 ≤ area.maxx - area.minx) :
    ∃ queries : List (Envelope K),
      (geographic area.finite source.horizontal target.horizontal cap relation).plan setting true =
        .ok (queries.map finite) ∧ Serves area cap queries := by
  have hstored : (stored (area.labelled source.horizontal)).Occupied :=
    ⟨by norm_num [stored], hocc.2⟩
  refine ⟨[stored (area.labelled source.horizontal)],
    plan_of_wide setting relation cap hglobe hocc hwide, ?_, ?_, ?_⟩
  · intro query hquery
    rw [List.mem_singleton.mp hquery]
    exact hstored
  · intro harea query hquery
    rw [List.mem_singleton.mp hquery]
    exact ⟨by norm_num [stored], harea.2⟩
  · intro p _ _ hsouth hnorth k _ hlow hhigh
    refine ⟨_, List.mem_singleton_self _, region_subset_grown hstored ?_⟩
    rw [mem_region]
    exact ⟨⟨hlow, hhigh⟩, hsouth.le, hnorth.le⟩

omit [FloorRing K] in
/-- What some turns move into an envelope lies in the part of it that they move back. -/
theorem mem_storedPart {e : Envelope K} {p : K × K} (hwest : e.minx < p.1) (heast : p.1 < e.maxx)
    (hsouth : e.miny < p.2) (hnorth : p.2 < e.maxy) {k : Int} (hlow : -180 ≤ p.1 - 360 * k)
    (hhigh : p.1 - 360 * k ≤ 180) :
    e.Reaches (-k) ∧ (p.1 - 360 * k, p.2) ∈ (e.storedPart (-k)).region := by
  refine ⟨⟨hwest.trans heast, ?_, ?_⟩, ?_⟩
  · push_cast
    linarith
  · push_cast
    linarith
  · rw [mem_region]
    simp only [storedPart, max_le_iff, le_min_iff]
    push_cast
    exact ⟨⟨⟨by linarith, hlow⟩, by linarith, hhigh⟩, hsouth.le, hnorth.le⟩

/-- The queries for an envelope narrower than a turn: the envelope itself, and those of its parts
that none of them covers. -/
structure Narrow (e : Envelope K) (cap : Int) (queries : List (Envelope K)) : Prop where
  whole : e ∈ queries
  kind : ∀ query ∈ queries, query = e ∨ ∃ i, query = e.storedPart i ∧ e.Reaches i
  part : ∀ k : Int, k ≠ 0 → |k| ≤ cap → e.Reaches k → e.storedPart k ∈ queries ∨
    ∃ query ∈ queries, covers query.finite (e.storedPart k).finite = true

theorem exists_narrow_split (hsame : own.same source = true) {e : Envelope K}
    (hcrs : e.crs = some own) (hocc : e.Occupied) (hnarrow : e.maxx - e.minx < 360) (cap : Int) :
    ∃ queries : List (Envelope K),
      e.finite.splitAcrossDateline cap >>= projectPieces setting source [] =
        .ok (queries.map finite) ∧ Narrow (e.labelled source.horizontal) cap queries := by
  obtain ⟨turns, -, hturns, hsplit⟩ := exists_splitAcrossDateline hocc hnarrow cap
  have hparts : ∀ piece ∈ turns.map e.storedPart, piece.crs = some own := by
    simp [storedPart, hcrs]
  have hfirst := projectPieces_first setting hsame hcrs (turns.map e.storedPart)
  obtain ⟨queries, hok, hfound, horigin, hreached⟩ :=
    exists_projectPieces setting hsame hparts [e.labelled source.horizontal]
  refine ⟨queries, ?_, ⟨hfound.subset (List.mem_singleton_self _), ?_, ?_⟩⟩
  · rw [hsplit]
    exact hfirst.trans hok
  · intro query hquery
    refine (horigin query hquery).imp List.mem_singleton.mp ?_
    rintro ⟨piece, hpiece, rfl⟩
    obtain ⟨i, hi, rfl⟩ := List.mem_map.mp hpiece
    exact ⟨i, rfl, ((hturns i).mp hi).2.2⟩
  · intro k hzero hk hreach
    exact hreached _ (List.mem_map_of_mem ((hturns k).mpr ⟨hzero, hk, hreach⟩))

theorem exists_narrow (relation : Transform (Extended K)) (cap : Int)
    (hglobe : SameGlobe area source target) (hocc : area.Occupied)
    (hnarrow : area.maxx - area.minx < 360) :
    ∃ queries : List (Envelope K),
      (geographic area.finite source.horizontal target.horizontal cap relation).plan setting true =
        .ok (queries.map finite) ∧ Narrow (area.labelled source.horizontal) cap queries := by
  have hsame : target.horizontal.same source.horizontal = true := by simpa using hglobe.same
  have hsplit := exists_narrow_split setting hsame (e := area.labelled target.horizontal) rfl hocc
    hnarrow cap
  rw [plan_geographic setting hglobe]
  rwa [Crs.horizontal_horizontal] at hsplit

/-- The first query for an area narrower than a turn is the area itself. -/
theorem exists_plan_cons (relation : Transform (Extended K)) (cap : Int)
    (hglobe : SameGlobe area source target) (hocc : area.Occupied)
    (hnarrow : area.maxx - area.minx < 360) :
    ∃ rest : List (Envelope K),
      (geographic area.finite source.horizontal target.horizontal cap relation).plan setting true =
        .ok ((area.labelled source.horizontal :: rest).map finite) := by
  have hsame : target.horizontal.same source.horizontal = true := by simpa using hglobe.same
  obtain ⟨turns, -, -, hsplit⟩ :=
    exists_splitAcrossDateline (e := area.labelled target.horizontal) hocc hnarrow cap
  have hparts : ∀ piece ∈ turns.map (area.labelled target.horizontal).storedPart,
      piece.crs = some target.horizontal := by
    simp [storedPart, labelled]
  obtain ⟨queries, hok, ⟨rest, rfl⟩, -⟩ := exists_projectPieces setting hsame hparts
    [(area.labelled target.horizontal).labelled source.horizontal.horizontal]
  have hcrs : (area.labelled target.horizontal).crs = some target.horizontal := rfl
  have hfirst := projectPieces_first setting hsame hcrs
    (turns.map (area.labelled target.horizontal).storedPart)
  refine ⟨rest, ?_⟩
  rw [plan_geographic setting hglobe, hsplit]
  refine (hfirst.trans hok).trans ?_
  rw [Crs.horizontal_horizontal]
  rfl

omit [IsStrictOrderedRing K] in
/-- A query is the envelope itself, or its part for some turns. -/
theorem Narrow.exists_turns {e query : Envelope K} {queries : List (Envelope K)}
    (hqueries : Narrow e cap queries) (hquery : query ∈ queries) :
    ∃ i, query = e ∧ i = 0 ∨ query = e.storedPart i ∧ e.Reaches i := by
  rcases hqueries.kind query hquery with heq | ⟨i, heq, hi⟩
  · exact ⟨0, .inl ⟨heq, rfl⟩⟩
  · exact ⟨i, .inr ⟨heq, hi⟩⟩

theorem Narrow.occupied {e : Envelope K} {queries : List (Envelope K)}
    (hqueries : Narrow e cap queries) (hocc : e.Occupied) : ∀ query ∈ queries, query.Occupied := by
  intro query hquery
  rcases hqueries.kind query hquery with rfl | ⟨i, rfl, hreach⟩
  · exact hocc
  · exact hreach.occupied hocc

theorem Narrow.hasArea {e : Envelope K} {queries : List (Envelope K)}
    (hqueries : Narrow e cap queries) (harea : e.HasArea) :
    ∀ query ∈ queries, query.HasArea := by
  intro query hquery
  rcases hqueries.kind query hquery with rfl | ⟨i, rfl, hreach⟩
  · exact harea
  · exact ⟨storedPart_minx_lt_maxx_iff.mpr hreach, harea.2⟩

/-- A narrower area is served by its queries: a part that was left out is reached by the query that
covers it, with its margin. -/
theorem exists_queries_of_narrow (relation : Transform (Extended K)) (cap : Int)
    (hglobe : SameGlobe area source target) (hocc : area.Occupied)
    (hheight : area.maxy - area.miny ≤ 180) (hnarrow : area.maxx - area.minx < 360) :
    ∃ queries : List (Envelope K),
      (geographic area.finite source.horizontal target.horizontal cap relation).plan setting true =
        .ok (queries.map finite) ∧ Serves area cap queries := by
  obtain ⟨queries, hplan, hqueries⟩ := exists_narrow setting relation cap hglobe hocc hnarrow
  refine ⟨queries, hplan, hqueries.occupied hocc, hqueries.hasArea, ?_⟩
  intro p hwest heast hsouth hnorth k hk hlow hhigh
  by_cases hzero : k = 0
  · subst hzero
    refine ⟨_, hqueries.whole, region_subset_grown hocc ?_⟩
    rw [mem_region]
    simp only [Int.cast_zero, mul_zero, sub_zero]
    exact ⟨⟨hwest.le, heast.le⟩, hsouth.le, hnorth.le⟩
  · obtain ⟨hreach, hmem⟩ := mem_storedPart (e := area.labelled source.horizontal) hwest heast
      hsouth hnorth hlow hhigh
    rcases hqueries.part (-k) (neg_ne_zero.mpr hzero) (by rwa [abs_neg]) hreach with
      hquery | ⟨query, hquery, hcovers⟩
    · exact ⟨_, hquery, region_subset_grown (hreach.occupied hocc) hmem⟩
    · obtain ⟨i, hi⟩ := hqueries.exists_turns hquery
      exact ⟨query, hquery, region_subset_grown_of_covers (e := area.labelled source.horizontal)
        hocc hnarrow hheight hreach (neg_ne_zero.mpr hzero) hi hcovers hmem⟩

/-- A geographic area is served by the queries that are planned for it. -/
theorem exists_queries (relation : Transform (Extended K)) (cap : Int)
    (hglobe : SameGlobe area source target) (hocc : area.Occupied)
    (hheight : area.maxy - area.miny ≤ 180) :
    ∃ queries : List (Envelope K),
      (geographic area.finite source.horizontal target.horizontal cap relation).plan setting true =
        .ok (queries.map finite) ∧ Serves area cap queries := by
  rcases le_or_gt 360 (area.maxx - area.minx) with hwide | hnarrow
  · exact exists_queries_of_wide setting relation cap hglobe hocc hwide
  · exact exists_queries_of_narrow setting relation cap hglobe hocc hheight hnarrow

/-! ## Areas with a gap of a degree -/

/-- Where an envelope falls short of a turn by a degree, no part of other turns is near enough to
count as covered. -/
theorem eq_of_covers {e q : Envelope K} {i k : Int} (hocc : e.Occupied)
    (hheight : e.maxy - e.miny ≤ 180) (hgap : e.maxx - e.minx ≤ 359) (hreach : e.Reaches k)
    (hq : q = e ∧ i = 0 ∨ q = e.storedPart i ∧ e.Reaches i)
    (hcovers : covers q.finite (e.storedPart k).finite = true) : i = k := by
  have hqocc : q.Occupied := by
    rcases hq with ⟨rfl, -⟩ | ⟨rfl, hi⟩
    · exact hocc
    · exact hi.occupied hocc
  have hpiece : e.WithinTurn i q := by
    rcases hq with ⟨rfl, rfl⟩ | ⟨rfl, -⟩
    · simp [WithinTurn]
    · exact withinTurn_storedPart
  have hheights : q.maxy - q.miny = e.maxy - e.miny := by
    rcases hq with ⟨rfl, -⟩ | ⟨rfl, -⟩ <;> rfl
  obtain ⟨hpiecewest, hpieceeast⟩ := hpiece
  obtain ⟨hpartwest, hparteast⟩ := withinTurn_storedPart (e := e) (k := k)
  have hwidth := storedPart_minx_lt_maxx_iff.mpr hreach
  have hsmall : tolerance q ≤ 1 / 10 ^ 6 := by
    apply tolerance_le
    · linarith
    · rwa [hheights]
  obtain ⟨⟨hwest, heast⟩, -⟩ := (covers_finite hqocc (hreach.occupied hocc)).mp hcovers
  rcases lt_trichotomy i k with hlt | heq | hgt
  · have hturn : (i : K) + 1 ≤ k := by exact_mod_cast hlt
    norm_num at hsmall
    linarith
  · exact heq
  · have hturn : (k : K) + 1 ≤ i := by exact_mod_cast hgt
    norm_num at hsmall
    linarith

/-- Queries that hold, without their margin, every stored rectangle that some turns up to the cap
move into an area. -/
structure Holds (area : Envelope K) (cap : Int) (queries : List (Envelope K)) : Prop where
  occupied : ∀ query ∈ queries, query.Occupied
  hasArea : area.HasArea → ∀ query ∈ queries, query.HasArea
  reach : ∀ t : Envelope K, t.Occupied → area.minx < t.minx → t.maxx < area.maxx →
    area.miny ≤ t.miny → t.maxy ≤ area.maxy → ∀ k : Int, |k| ≤ cap →
      -180 ≤ t.minx - 360 * k → t.maxx - 360 * k ≤ 180 →
        ∃ query ∈ queries, (query.minx ≤ t.minx - 360 * k ∧ t.maxx - 360 * k ≤ query.maxx) ∧
          query.miny ≤ t.miny ∧ t.maxy ≤ query.maxy

theorem Narrow.part_mem {e : Envelope K} {queries : List (Envelope K)}
    (hqueries : Narrow e cap queries) (hocc : e.Occupied) (hheight : e.maxy - e.miny ≤ 180)
    (hgap : e.maxx - e.minx ≤ 359) {k : Int} (hzero : k ≠ 0) (hk : |k| ≤ cap)
    (hreach : e.Reaches k) : e.storedPart k ∈ queries := by
  rcases hqueries.part k hzero hk hreach with hquery | ⟨query, hquery, hcovers⟩
  · exact hquery
  · obtain ⟨i, hi⟩ := hqueries.exists_turns hquery
    have heq := eq_of_covers hocc hheight hgap hreach hi hcovers
    subst heq
    rcases hi with ⟨-, hnone⟩ | ⟨rfl, -⟩
    · exact (hzero hnone).elim
    · exact hquery

theorem Narrow.holds {e : Envelope K} {queries : List (Envelope K)}
    (hqueries : Narrow e cap queries) (hocc : e.Occupied) (hheight : e.maxy - e.miny ≤ 180)
    (hgap : e.maxx - e.minx ≤ 359) : Holds e cap queries := by
  refine ⟨hqueries.occupied hocc, hqueries.hasArea, ?_⟩
  intro t ht hwest heast hsouth hnorth k hk hlow hhigh
  by_cases hzero : k = 0
  · subst hzero
    refine ⟨_, hqueries.whole, ?_⟩
    simp only [Int.cast_zero, mul_zero, sub_zero]
    exact ⟨⟨hwest.le, heast.le⟩, hsouth, hnorth⟩
  · have hreach : e.Reaches (-k) := by
      refine ⟨?_, ?_, ?_⟩
      · linarith [ht.1]
      · push_cast
        linarith [ht.1]
      · push_cast
        linarith [ht.1]
    refine ⟨_, hqueries.part_mem hocc hheight hgap (neg_ne_zero.mpr hzero) (by rwa [abs_neg])
      hreach, ?_⟩
    simp only [storedPart, max_le_iff, le_min_iff]
    push_cast
    exact ⟨⟨⟨by linarith, hlow⟩, by linarith, hhigh⟩, hsouth, hnorth⟩

/-- An area as wide as a turn, or with a gap of a degree, is held by the queries that are planned
for it. -/
theorem exists_holds (relation : Transform (Extended K)) (cap : Int)
    (hglobe : SameGlobe area source target) (hocc : area.Occupied)
    (hheight : area.maxy - area.miny ≤ 180)
    (hwidth : area.maxx - area.minx ≤ 359 ∨ 360 ≤ area.maxx - area.minx) :
    ∃ queries : List (Envelope K),
      (geographic area.finite source.horizontal target.horizontal cap relation).plan setting true =
        .ok (queries.map finite) ∧ Holds area cap queries := by
  rcases hwidth with hgap | hwide
  · obtain ⟨queries, hplan, hqueries⟩ :=
      exists_narrow setting relation cap hglobe hocc (by linarith)
    obtain ⟨hoccupied, hasArea, hreach⟩ :=
      hqueries.holds (e := area.labelled source.horizontal) hocc hheight hgap
    exact ⟨queries, hplan, hoccupied, hasArea, hreach⟩
  · refine ⟨[stored (area.labelled source.horizontal)],
      plan_of_wide setting relation cap hglobe hocc hwide, ?_, ?_, ?_⟩
    · intro query hquery
      rw [List.mem_singleton.mp hquery]
      exact ⟨by norm_num [stored], hocc.2⟩
    · intro harea query hquery
      rw [List.mem_singleton.mp hquery]
      exact ⟨by norm_num [stored], harea.2⟩
    · intro t _ _ _ hsouth hnorth k _ hlow hhigh
      exact ⟨_, List.mem_singleton_self _, ⟨hlow, hhigh⟩, hsouth, hnorth⟩

end Plan

end Antimeridian.Rendering
