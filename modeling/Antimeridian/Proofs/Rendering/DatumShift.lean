import Antimeridian.Proofs.Geometry.Unwrapping
import Antimeridian.Proofs.Rendering.Stitching

/-!
# Shifts of datum

Between two geographic systems a transform is made to keep whole turns, so that it tears nothing.
What it gives goes through stitching all the same, and what is more than half a turn wide, but not
as wide as a turn, is taken for torn. Such a geometry keeps its shape only where unwrapping it
succeeds, closes no ring along a pole and leaves it wider than half a turn.
-/

namespace Antimeridian.Rendering

open Antimeridian.Geometry

section Comparing

variable {α : Type}

/-- Whether work on a geometry makes of it what other work does. -/
def Agrees (work other : Action α (Revision α)) (g : Geometry α) (s : State α) : Prop :=
  ∃ rev rev' s₁ s₂, work.outcome s = (.ok rev, s₁) ∧ other.outcome s = (.ok rev', s₂) ∧
    rev.applyTo g = rev'.applyTo g

theorem agrees_congr {work work' other other' : Action α (Revision α)} {s : State α}
    (hwork : work.outcome s = work'.outcome s) (hother : other.outcome s = other'.outcome s)
    (g : Geometry α) : Agrees work other g s ↔ Agrees work' other' g s := by
  rw [Agrees, Agrees, hwork, hother]

theorem agrees_self_iff {work : Action α (Revision α)} {g : Geometry α} {s : State α} :
    Agrees work work g s ↔ ∃ rev s', work.outcome s = (.ok rev, s') := by
  constructor
  · rintro ⟨rev, -, s', -, hrev, -⟩
    exact ⟨rev, s', hrev⟩
  · rintro ⟨rev, s', hrev⟩
    exact ⟨rev, rev, s', s', hrev, hrev, rfl⟩

/-- Of an area, only its western and eastern edge matter. -/
theorem postProcess_congr [Scalar α] {r r' : Rendering α} (hcycle : r'.cycle = r.cycle)
    (hcap : r'.cap = r.cap) (hwest : r'.area.minx = r.area.minx)
    (heast : r'.area.maxx = r.area.maxx) (setting : Setting α) :
    r'.postProcess setting = r.postProcess setting := by
  have hreplicate : r'.replicate = r.replicate := by
    unfold replicate
    rw [hcap, visibleOffsets_congr hwest heast]
  unfold postProcess visibleOnce
  rw [hcycle, hwest, heast, hreplicate]

end Comparing

variable {K : Type} [Field K] [LinearOrder K] [FloorRing K]
  {setting : Setting (Extended K)} {r : Rendering (Extended K)} {cycle : Cycle (Extended K)}
  {area : Envelope K} {radius south north : K} {t : Transform (Extended K)} {g u h : Geometry K}
  {ks js : List Int} {s s' : State (Extended K)}

/-! ## Requests between geographic systems -/

theorem exists_cycle_of_wrapping {source : Except (Failure (Extended K)) Crs}
    {validArea : Option (Envelope (Extended K))} {area : Envelope (Extended K)} {family : Family}
    {cap : Int} (hr : wrapping setting source validArea (some area) family cap = .ok r)
    (htarget : r.target.isGeographic = true) : r.cycle = some geographicCycle ∧ 0 ≤ r.cap := by
  obtain ⟨plainly, cycle, -, hcap, hcycle, rfl⟩ := wrapping_eq hr
  rw [if_pos htarget] at hcycle
  rw [hcycle]
  exact ⟨rfl, hcap⟩

/-- Between different geographic systems, the transform that renders is made to keep turns. -/
theorem renderingTransform_of_differ (hcycle : r.cycle = some cycle)
    (hsource : r.source.isGeographic = true) (htarget : r.target.isGeographic = true)
    (hdiffer : r.source.same r.target = false) {atlas : Atlas (Extended K)}
    {base : Transform (Extended K)} (hbase : atlas.find r.source r.target = .ok base) :
    base.isIdentity = false ∧ r.renderingTransform base = .preserving base Longitude.turn := by
  rw [Atlas.find] at hbase
  cases hrelation : atlas.relation? r.source.horizontal r.target.horizontal with
  | none => simp [hrelation] at hbase
  | some mapping =>
      simp only [hrelation, Crs.same_horizontal_left, Crs.same_horizontal_right, hdiffer] at hbase
      cases hbase
      simp [renderingTransform, makesCopies, hcycle, Transform.source, Transform.target,
        Transform.isIdentity, hsource, htarget]

/-- Where a geometry is replicated, the edges of the area are numbers. -/
theorem exists_edges_of_outcome (hcycle : r.cycle = some cycle)
    (hradius : cycle.radius = .finite radius) (hne : g.isEmpty = false)
    {whole : Revision (Extended K)}
    (hwhole : (r.postProcess setting none (some g.finite)).outcome s = (.ok whole, s')) :
    ∃ west east, r.area.minx = .finite west ∧ r.area.maxx = .finite east := by
  rw [outcome_postProcess_of_cycle hcycle hradius hne] at hwhole
  split at hwhole
  next honce => exact exists_edges_of_visibleOnce honce
  next =>
    rw [if_neg (by simp)] at hwhole
    unfold replicate at hwhole
    rw [Action.outcome_bind, Action.outcome_lift] at hwhole
    cases hoffsets : visibleOffsets r.area cycle.radius r.cap (.finite g.west) (.finite g.east) with
    | error failure => simp [hoffsets] at hwhole
    | ok offsets =>
        rw [hradius] at hoffsets
        obtain ⟨lowest, hlowest, hoffsets⟩ := bind_eq_ok_iff.mp hoffsets
        obtain ⟨highest, hhighest, -⟩ := bind_eq_ok_iff.mp hoffsets
        simp only [Extended.ofNat_eq, Extended.finite_mul] at hlowest hhighest
        obtain ⟨west, hwest⟩ :=
          Extended.exists_eq_finite_of_div (Extended.isFinite_of_ofFinite hlowest)
        obtain ⟨east, heast⟩ :=
          Extended.exists_eq_finite_of_div (Extended.isFinite_of_ofFinite hhighest)
        exact ⟨west, east, hwest, heast⟩

variable [IsStrictOrderedRing K]

/-! ## Copies of two geometries -/

omit [FloorRing K] in
/-- Geometries with as many parts have as many vertices, and the same width, if their copies are
the same. -/
theorem width_eq_of_gathered (hks : ks ≠ []) (hjs : js ≠ [])
    (hu : gathered (ks.map fun (k : Int) => u.translate (2 * radius * k)) = .ok h)
    (hg : gathered (js.map fun (k : Int) => g.translate (2 * radius * k)) = .ok h)
    (hlength : u.occupied.length = g.occupied.length) (hne : g.isEmpty = false) :
    u.outline.length = g.outline.length ∧ u.east - u.west = g.east - g.west := by
  obtain ⟨k, ks, rfl⟩ := List.exists_cons_of_ne_nil hks
  obtain ⟨j, js, rfl⟩ := List.exists_cons_of_ne_nil hjs
  have hune : u.isEmpty = false := by
    rw [← Bool.not_eq_true, ← occupied_eq_nil_iff, ← List.length_eq_zero_iff, hlength,
      List.length_eq_zero_iff, occupied_eq_nil_iff, hne]
    exact Bool.false_ne_true
  have heq := (occupied_gathered hu).symm.trans (occupied_gathered hg)
  rw [List.map_cons, List.map_cons, List.flatMap_cons, List.flatMap_cons] at heq
  -- the first copies have as many parts, so that they are made of the same ones
  have hfirst := List.append_inj_left heq (by simp [Geometry.translate, occupied_map, hlength])
  have houtline := congrArg (List.flatMap outline) hfirst
  rw [occupied_flatMap_outline, occupied_flatMap_outline] at houtline
  have hwest : (u.translate (2 * radius * k)).west = (g.translate (2 * radius * j)).west := by
    rw [west, west, houtline]
  have heast : (u.translate (2 * radius * k)).east = (g.translate (2 * radius * j)).east := by
    rw [east, east, houtline]
  simp only [Geometry.translate, outline_map] at houtline
  refine ⟨by simpa using congrArg List.length houtline, ?_⟩
  rw [Geometry.translate, Geometry.translate, west_map hune fun _ _ => rfl,
    west_map hne fun _ _ => rfl] at hwest
  rw [Geometry.translate, Geometry.translate, east_map hune fun _ _ => rfl,
    east_map hne fun _ _ => rfl] at heast
  linarith

/-! ## Shapes that are kept -/

/-- Stitching and replicating does not come to copies of the geometry that was given, if stitching
has narrowed it or closed it along a pole. -/
theorem not_agrees_of_stitched (hr : Repeats r cycle area radius)
    {current : Revision (Extended K)} {atPole : Bool}
    (hcurrent : current.applyTo g.finite = u.finite) (hu : Unwraps g u atPole)
    (hne : g.isEmpty = false) (hflat : ∀ v ∈ g.vertices, v.z = none)
    (hlow : radius < g.east - g.west) (haccepted : u.east - u.west ≤ radius ∨ atPole = true)
    (s : State (Extended K)) :
    ¬Agrees (r.replicate cycle current g.finite (.finite u.west) (.finite u.east))
      (r.replicate cycle .kept g.finite (.finite g.west) (.finite g.east)) g.finite s := by
  rintro ⟨rev, whole, s₁, s₂, hrev, hwhole, heq⟩
  obtain ⟨offsets, hoffsets, -⟩ := hr.exists_visibleOffsets u.west u.east
  obtain ⟨offsets', hoffsets', -⟩ := hr.exists_visibleOffsets g.west g.east
  obtain ⟨h, ks, hh, hks, hgathered⟩ := exists_gathered_of_replicate hcurrent
    (.inl (hu.flat hflat)) hr.radius_eq hoffsets hrev
  obtain ⟨h', js, hh', hjs, hgathered'⟩ := exists_gathered_of_replicate rfl (.inl hflat)
    hr.radius_eq hoffsets' hwhole
  have hsame : h = h' := Geometry.finite_injective (by rw [← hh, heq, hh'])
  subst hsame
  obtain ⟨hlength, hwidth⟩ :=
    width_eq_of_gathered hks hjs hgathered hgathered' hu.occupied_length hne
  rcases haccepted with hnarrow | rfl
  · linarith
  · have hlonger := hu.outline_length
    rw [Bool.toNat_true, hlength] at hlonger
    omega

/-- Whether unwrapping a geometry succeeds, closes no ring along a pole and leaves it wider than
half a period. -/
def StaysWide (valid : List (List (Vertex (Extended K))) → Bool) (radius south north : K)
    (g : Geometry K) : Prop :=
  ∃ current, ∃ u : Geometry K,
    Unwrap.geometry valid (.finite radius) (some (.finite south, .finite north)) g.finite =
      .ok (current, false) ∧
    current.applyTo g.finite = u.finite ∧ radius < u.east - u.west

omit [IsStrictOrderedRing K] in
theorem staysWide_iff {valid : List (List (Vertex (Extended K))) → Bool}
    {current : Revision (Extended K)} {atPole : Bool}
    (hunwrap : Unwrap.geometry valid (.finite radius) (some (.finite south, .finite north))
      g.finite = .ok (current, atPole)) (hcurrent : current.applyTo g.finite = u.finite) :
    StaysWide valid radius south north g ↔ ¬(u.east - u.west ≤ radius ∨ atPole = true) := by
  rw [not_or, not_le, Bool.not_eq_true]
  constructor
  · rintro ⟨current', u', hok, hcurrent', hwide⟩
    cases hunwrap.symm.trans hok
    rw [Geometry.finite_injective (hcurrent.symm.trans hcurrent')]
    exact ⟨hwide, rfl⟩
  · rintro ⟨hwide, rfl⟩
    exact ⟨current, u, hunwrap, hcurrent, hwide⟩

theorem agrees_iff_of_whole (hr : Repeats r cycle area radius) (hne : g.isEmpty = false)
    (hwhole : g.east - g.west ≤ radius ∨ 2 * radius ≤ g.east - g.west) (s : State (Extended K)) :
    Agrees (r.postProcess setting (some t) (some g.finite))
        (r.postProcess setting none (some g.finite)) g.finite s ↔
      ∃ whole s', (r.postProcess setting none (some g.finite)).outcome s = (.ok whole, s') := by
  have hnone : (r.postProcess setting none (some g.finite)).outcome s =
      (r.replicate cycle .kept g.finite (.finite g.west) (.finite g.east)).outcome s :=
    outcome_postProcess_of_whole hr hne (by simp) s
  have hsome : (r.postProcess setting (some t) (some g.finite)).outcome s =
      (r.replicate cycle .kept g.finite (.finite g.west) (.finite g.east)).outcome s :=
    outcome_postProcess_of_whole hr hne (fun _ => hwhole) s
  rw [agrees_congr (hsome.trans hnone.symm) rfl, agrees_self_iff]

/-- What goes through stitching comes out as if it had not been reprojected exactly if it stays
wide. -/
theorem agrees_iff_of_torn (hr : Repeats r cycle area radius)
    (hpoles : (cycle.south, cycle.north) = (.finite south, .finite north))
    (ht : t.isIdentity = false) (hne : g.isEmpty = false) (hflat : ∀ v ∈ g.vertices, v.z = none)
    (hlow : radius < g.east - g.west) (hhigh : g.east - g.west < 2 * radius)
    (s : State (Extended K)) :
    Agrees (r.postProcess setting (some t) (some g.finite))
        (r.postProcess setting none (some g.finite)) g.finite s ↔
      (∃ whole s', (r.postProcess setting none (some g.finite)).outcome s = (.ok whole, s')) ∧
        StaysWide setting.overlay.isValidPolygon radius south north g := by
  have hwhole : (r.postProcess setting none (some g.finite)).outcome s =
      (r.replicate cycle .kept g.finite (.finite g.west) (.finite g.east)).outcome s :=
    outcome_postProcess_of_whole hr hne (by simp) s
  have htorn : (r.postProcess setting (some t) (some g.finite)).outcome s = _ :=
    outcome_postProcess_of_torn hr hne ht hlow hhigh s
  cases hunwrap : Unwrap.geometry setting.overlay.isValidPolygon (.finite radius)
      (some (.finite south, .finite north)) g.finite with
  | error failure =>
      rw [stitch, hr.radius_eq, hpoles, hunwrap] at htorn
      refine iff_of_false ?_ ?_
      · rintro ⟨rev, -, s₁, -, hrev, -⟩
        cases htorn.symm.trans hrev
      · rintro ⟨-, current, u, hok, -⟩
        cases hunwrap.symm.trans hok
  | ok result =>
      obtain ⟨current, atPole⟩ := result
      obtain ⟨u, hcurrent, hu⟩ := exists_unwraps (some (south, north)) hunwrap
      rw [stitch_of_unwrap hr (hpoles ▸ hunwrap) hcurrent (hu.isEmpty_eq.trans hne)] at htorn
      rw [staysWide_iff hunwrap hcurrent]
      by_cases haccepted : u.east - u.west ≤ radius ∨ atPole = true
      · rw [if_pos haccepted] at htorn
        rw [agrees_congr htorn hwhole]
        exact iff_of_false (not_agrees_of_stitched hr hcurrent hu hne hflat hlow haccepted s)
          fun hall => hall.2 haccepted
      · rw [if_neg haccepted] at htorn
        rw [agrees_congr (htorn.trans hwhole.symm) rfl, agrees_self_iff]
        exact (and_iff_left haccepted).symm

/-- A shift of datum keeps turns. It leaves a geometry as if it had not been reprojected exactly if
the geometry is at most half a turn wide, at least a turn, or stays wide. -/
theorem postProcess_keeps_shape_iff {source : Except (Failure (Extended K)) Crs}
    {validArea : Option (Envelope (Extended K))} {area : Envelope (Extended K)} {family : Family}
    {cap : Int} (hr : wrapping setting source validArea (some area) family cap = .ok r)
    (hsource : r.source.isGeographic = true) (htarget : r.target.isGeographic = true)
    (hdiffer : r.source.same r.target = false) {atlas : Atlas (Extended K)}
    {base : Transform (Extended K)} (hbase : atlas.find r.source r.target = .ok base)
    {own : Geometry (Extended K)} (hown : own.isEmpty = false)
    (himage : (r.renderingTransform base).geometry own = .ok g.finite) (s : State (Extended K)) :
    r.renderingTransform base = .preserving base Longitude.turn ∧
    (Agrees (r.postProcess setting (some (r.renderingTransform base)) (some g.finite))
        (r.postProcess setting none (some g.finite)) g.finite s ↔
      (∃ whole s', (r.postProcess setting none (some g.finite)).outcome s = (.ok whole, s')) ∧
        (180 < g.east - g.west → g.east - g.west < 360 →
          StaysWide setting.overlay.isValidPolygon 180 (-90) 90 g)) := by
  obtain ⟨hcycle, hcap⟩ := exists_cycle_of_wrapping hr htarget
  obtain ⟨hmoves, hpreserving⟩ :=
    renderingTransform_of_differ hcycle hsource htarget hdiffer hbase
  refine ⟨hpreserving, ?_⟩
  have ht : (r.renderingTransform base).isIdentity = false := by rwa [hpreserving]
  have hflat := flat_of_image ht himage
  have hne : g.isEmpty = false := by
    rw [← isEmpty_finite, ← isEmpty_of_image himage, hown]
  have hradius : (geographicCycle : Cycle (Extended K)).radius = .finite 180 :=
    Extended.ofNat_eq 180
  have hpoles : ((geographicCycle : Cycle (Extended K)).south,
      (geographicCycle : Cycle (Extended K)).north) = (.finite (-90), .finite 90) := by
    simp [geographicCycle]
  generalize r.renderingTransform base = t at *
  by_cases hedges : ∃ west east, r.area.minx = .finite west ∧ r.area.maxx = .finite east
  · obtain ⟨west, east, hwest, heast⟩ := hedges
    let area' : Envelope K := ⟨west, 0, east, 0, none⟩
    let r' : Rendering (Extended K) := { r with area := area'.finite }
    have hr' : Repeats r' geographicCycle area' 180 := ⟨rfl, hcycle, hradius, by norm_num, hcap⟩
    rw [← @postProcess_congr _ _ r r' rfl rfl hwest.symm heast.symm setting]
    have hperiod : (2 * 180 : K) = 360 := by norm_num
    by_cases htorn : 180 < g.east - g.west ∧ g.east - g.west < 360
    · rw [agrees_iff_of_torn hr' hpoles ht hne hflat htorn.1 (hperiod ▸ htorn.2)]
      exact and_congr_right' ⟨fun hstays _ _ => hstays, fun hall => hall htorn.1 htorn.2⟩
    · have hwhole : g.east - g.west ≤ 180 ∨ 2 * 180 ≤ g.east - g.west := by
        rw [hperiod, ← not_lt, ← not_lt, ← not_and_or]
        exact htorn
      rw [agrees_iff_of_whole hr' hne hwhole]
      exact (and_iff_left fun hlow hhigh => (htorn ⟨hlow, hhigh⟩).elim).symm
  -- otherwise nothing can be replicated, with the transform or without
  · refine iff_of_false ?_ ?_
    · rintro ⟨-, whole, -, s', -, hwhole, -⟩
      exact hedges (exists_edges_of_outcome hcycle hradius hne hwhole)
    · rintro ⟨⟨whole, s', hwhole⟩, -⟩
      exact hedges (exists_edges_of_outcome hcycle hradius hne hwhole)

/-- A line of more than half a turn does not keep its shape, though the shift leaves it where it
is. -/
theorem long_line_reshaped :
    let area : Envelope (Extended ℚ) := ⟨.finite (-180), .finite (-80), .finite 180, .finite 80,
      some (Crs.ofFrame Crs.Registry.wgs84)⟩
    let atlas : Atlas (Extended ℚ) := ⟨fun _ _ => some ⟨fun x y => (x, y), fun _ _ => false, true⟩⟩
    let setting : Setting (Extended ℚ) :=
      ⟨atlas, ⟨fun _ => true, fun g _ => g, fun _ _ => true, fun _ _ => true⟩⟩
    let base : Transform (Extended ℚ) := .direct (Crs.ofFrame Crs.Registry.europe1989)
      (Crs.ofFrame Crs.Registry.wgs84) false ⟨fun x y => (x, y), fun _ _ => false, true⟩
    let r := geographic area (Crs.ofFrame Crs.Registry.europe1989)
      (Crs.ofFrame Crs.Registry.wgs84) 10 base
    let g : Geometry ℚ := .line [⟨-100, 0, none⟩, ⟨100, 0, none⟩]
    (r.renderingTransform base).geometry g.finite = .ok g.finite ∧
      ¬Agrees (r.postProcess setting (some (r.renderingTransform base)) (some g.finite))
        (r.postProcess setting none (some g.finite)) g.finite r.start := by
  intro area atlas setting base r g
  have hdiffer : (Crs.ofFrame Crs.Registry.europe1989).same (Crs.ofFrame Crs.Registry.wgs84) =
      false := by
    decide +kernel
  have hbase : atlas.find (Crs.ofFrame Crs.Registry.europe1989)
      (Crs.ofFrame Crs.Registry.wgs84) = .ok base := by
    simp only [Atlas.find, Crs.same_horizontal_left, Crs.same_horizontal_right, hdiffer]
    rfl
  have hne : area.isEmpty = false := by decide +kernel
  have hr : wrapping setting (.ok (Crs.ofFrame Crs.Registry.europe1989)) none (some area)
      .geographic 10 = .ok r := by
    rw [wrapping_geographic rfl rfl hne (by decide)]
    change (do
      let relation ← atlas.find (Crs.ofFrame Crs.Registry.europe1989)
        (Crs.ofFrame Crs.Registry.wgs84)
      return geographic area _ _ 10 relation) = _
    rw [hbase]
    rfl
  have hturn : (Longitude.turn : Extended ℚ) = .finite 360 := Extended.ofNat_eq 360
  have himage : (Transform.preserving base Longitude.turn).geometry g.finite = .ok g.finite := by
    simp [g, base, finite_eq_map, Geometry.map, Vertex.finite, Vertex.convert, vertices, hturn,
      Transform.geometry, Transform.isIdentity, Transform.fails, Transform.image,
      Longitude.normalize, Scalar.roundWhole, Scalar.roundEven]
  refine ⟨himage, ?_⟩
  obtain ⟨-, hiff⟩ := postProcess_keeps_shape_iff hr rfl rfl hdiffer hbase rfl himage r.start
  refine hiff.not.mpr ?_
  rintro ⟨-, hstays⟩
  -- unwrapping takes the line for one of 160 degrees across the seam
  have hfold : Folds (180 : ℚ) (Set.Ico (-180) (-180 + 2 * 180)) (Vertex.fold 180 (-180)) :=
    folds_fold (by norm_num) _
  let short : Geometry ℚ := .line [⟨-100, 0, none⟩, ⟨-260, 0, none⟩]
  have hfolded : short.map (Vertex.fold 180 (-180)) = g := by
    norm_num [g, short, Geometry.map, Vertex.fold]
  have hsteady : Steady 180 short.outline := by norm_num [short, outline, Steady, abs_lt]
  have hunwrap := hfold.unwrap_undivided (g := short) (.line (by simp)) hsteady
    setting.overlay.isValidPolygon (some (.finite (-90), .finite 90))
  have hwest : g.west = -100 := by decide +kernel
  have heast : g.east = 100 := by decide +kernel
  rw [hfolded] at hunwrap
  have hwide := hstays (by norm_num [hwest, heast]) (by norm_num [hwest, heast])
  rw [staysWide_iff hunwrap rfl] at hwide
  have hnarrow : (short.map (Vertex.settle (drift (Vertex.fold 180 (-180)) short.outline))).east -
      (short.map (Vertex.settle (drift (Vertex.fold 180 (-180)) short.outline))).west ≤ 180 := by
    decide +kernel
  exact hwide (.inl hnarrow)

end Antimeridian.Rendering
