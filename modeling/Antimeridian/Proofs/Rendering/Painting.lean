import Antimeridian.Proofs.Rendering.Cutting

/-!
# Painting without reprojection

Rendered in an area of its own system, a stored geometry paints there what all of its moves by
whole turns paint, up to the cap: cutting keeps what the copies need, and the copies put it in its
places. What can go wrong is only the making of copies, for a geometry with heights on some of its
vertices, and for one with an empty part among lines or points.
-/

namespace Antimeridian.Rendering

open Antimeridian.Geometry

variable {K : Type} [Field K] [LinearOrder K] [FloorRing K]

/-- A picture shows inside an area what all moves of a geometry by whole turns show there, up to a
number of turns. -/
def Paints (area : Envelope K) (cap : Int) (g : Geometry K) (picture : Option (Geometry K)) :
    Prop :=
  ∀ p : K × K, area.minx < p.1 → p.1 < area.maxx → area.miny < p.2 → p.2 < area.maxy →
    ((∃ h ∈ picture, p ∈ h.painted) ↔
      ∃ k : Int, |k| ≤ cap ∧ (p.1 - 360 * k, p.2) ∈ g.painted)

theorem outcome_render {α : Type} [Scalar α] {setting : Setting α} {r : Rendering α}
    {t : Transform α} {g : Geometry α} {s s' : State α} {rev : Revision α}
    (hcopies : r.makesCopies = true) (ht : t.isIdentity = true) (hne : g.isEmpty = false)
    (hcut : (r.preProcess setting (some g)).outcome s = (.ok rev, s')) :
    (r.render setting t (some g)).outcome s =
      if (rev.applyTo g).isEmpty then (.ok none, s')
      else ((fun copied => some (copied.applyTo (rev.applyTo g))) <$>
        r.postProcess setting (some t) (some (rev.applyTo g))).outcome s' := by
  have hneeded : (r.requiresProcessing setting (some g)).outcome s = (.ok true, s) := by
    unfold requiresProcessing
    rw [Action.outcome_bind, Action.outcome_lift, checkGeometry_some hne]
    simp only [hcopies, if_true]
    rfl
  have htransform : t.geometry (rev.applyTo g) = .ok (rev.applyTo g) := by
    rw [Transform.geometry, if_pos ht]
  unfold render
  simp only [hne, Bool.false_eq_true, if_false]
  rw [Action.outcome_bind, hneeded]
  simp only [if_true]
  rw [Action.outcome_bind, Action.outcome_map, hcut]
  simp only
  split
  · rfl
  next hsome =>
    rw [Action.outcome_bind, Action.outcome_lift, htransform]
    simp only [hsome, if_false, Bool.false_eq_true]
    rw [Action.outcome_bind, Action.outcome_map]
    rcases (r.postProcess setting (some t) (some (rev.applyTo g))).outcome s' with
      ⟨failure | copied, s''⟩ <;> rfl

variable {setting : Setting (Extended K)} {area : Envelope K} {source target : Crs} {cap : Int}
  {r : Rendering (Extended K)} {s : State (Extended K)} {t : Transform (Extended K)}
  {g : Geometry K} [IsStrictOrderedRing K]

/-- Cutting for a geographic area leaves everything that some turns up to the cap move into it. -/
theorem exists_cut (hglobe : SameGlobe area source target) (hocc : area.Occupied)
    (hheight : area.maxy - area.miny ≤ 180) (hne : g.isEmpty = false)
    (hstored : ∀ v ∈ g.outline, -180 ≤ v.x ∧ v.x ≤ 180)
    (hclips : setting.overlay.ClipsExactly g) {relation : Transform (Extended K)} {cap : Int}
    (hr : r = geographic area.finite source.horizontal target.horizontal cap relation)
    (hs : Planned setting r s) :
    ∃ rev s', ∃ cut : Geometry K,
      (r.preProcess setting (some g.finite)).outcome s = (.ok rev, s') ∧
      rev.applyTo g.finite = cut.finite ∧ Cut g cut ∧
      ∀ p : K × K, area.minx < p.1 → p.1 < area.maxx → area.miny < p.2 → p.2 < area.maxy →
        ∀ k : Int, |k| ≤ cap → (p.1 - 360 * k, p.2) ∈ g.painted →
          (p.1 - 360 * k, p.2) ∈ cut.painted := by
  obtain ⟨queries, hplan, hserves⟩ := exists_queries setting relation cap hglobe hocc hheight
  have hpre := outcome_preProcess hr hglobe.geographic_source (by rwa [hr]) hserves.occupied hne hs
  obtain ⟨cut, hcut, hleft, hkeeps⟩ := exists_cutTo hclips hne source.horizontal (maskOf queries)
  refine ⟨_, _, cut, hpre, hcut, hleft, ?_⟩
  intro p hwest heast hsouth hnorth k hk hp
  obtain ⟨⟨hpwest, hpeast⟩, -⟩ := mem_bounds_of_mem_painted hp
  obtain ⟨v, hv, hvwest⟩ := exists_west hne
  obtain ⟨w, hw, hweast⟩ := exists_east hne
  have hlow : -180 ≤ p.1 - 360 * k := (hstored v hv).1.trans (hvwest.trans_le hpwest)
  have hhigh : p.1 - 360 * k ≤ 180 := hpeast.trans (hweast.symm.trans_le (hstored w hw).2)
  obtain ⟨query, hquery, hregion⟩ := hserves.reach p hwest heast hsouth hnorth k hk hlow hhigh
  have harea := hserves.hasArea ⟨hwest.trans heast, hsouth.trans hnorth⟩ query hquery
  exact hkeeps _ hp _ (grown_mem_maskOf hquery) (grown_hasArea harea) hregion

omit [FloorRing K] [IsStrictOrderedRing K] in
/-- A geometry that keeps its even heights and its parts when it is cut can be copied. -/
theorem Cut.copyable {cut : Geometry K} (hcut : Cut g cut) (heven : g.HasEvenHeights)
    (hparts : ∀ part ∈ g.parts, part.isEmpty = false) (ks : List Int) : Copyable cut ks := by
  rcases hcut.whole_or_parts with rfl | ⟨hkept, hall⟩
  · exact ⟨.inl heven, .inr fun _ => hparts⟩
  · exact ⟨.inl (hkept heven), .inr fun _ => hall⟩

omit [FloorRing K] [IsStrictOrderedRing K] in
/-- An empty part has no vertices after cutting if it had none before. -/
theorem Cut.vertices_of_isEmpty {cut : Geometry K} (hcut : Cut g cut)
    (hshells : ∀ part ∈ g.parts, part.isEmpty = true → part.vertices = []) :
    ∀ part ∈ cut.parts, part.isEmpty = true → part.vertices = [] := by
  rcases hcut.whole_or_parts with rfl | ⟨-, hall⟩
  · exact hshells
  · intro part hpart hempty
    rw [hall part hpart] at hempty
    contradiction

omit [FloorRing K] [IsStrictOrderedRing K] in
/-- A picture of what cutting leaves is one of the geometry, if every move into the area is kept. -/
theorem Cut.paints_iff {cut : Geometry K} (hcut : Cut g cut)
    (hkeeps : ∀ p : K × K, area.minx < p.1 → p.1 < area.maxx → area.miny < p.2 → p.2 < area.maxy →
      ∀ k : Int, |k| ≤ cap → (p.1 - 360 * k, p.2) ∈ g.painted →
        (p.1 - 360 * k, p.2) ∈ cut.painted)
    (picture : Option (Geometry K)) : Paints area cap cut picture ↔ Paints area cap g picture := by
  refine forall₅_congr fun p hwest heast hsouth hnorth => iff_congr Iff.rfl ?_
  refine exists_congr fun k => and_congr_right fun hk => ?_
  exact ⟨fun hp => hcut.subset hp, hkeeps p hwest heast hsouth hnorth k hk⟩

variable (setting s) in
/-- What is not empty and not reprojected is rendered in all of its places exactly if it can be
copied to those that are visible. -/
theorem postProcess_paints_iff {cycle : Cycle (Extended K)} (hr : Repeats r cycle area 180)
    {cut : Geometry K} (hne : cut.isEmpty = false)
    (hshells : ∀ part ∈ cut.parts, part.isEmpty = true → part.vertices = [])
    (ht : t.isIdentity = true) :
    (∃ rev s₂ h, (r.postProcess setting (some t) (some cut.finite)).outcome s = (.ok rev, s₂) ∧
      rev.applyTo cut.finite = h.finite ∧ Paints area r.cap cut (some h)) ↔
    ∃ ks, Shows area 180 r.cap cut.west cut.east ks ∧ Copyable cut ks := by
  obtain ⟨ks, hoffsets, hshows⟩ := hr.exists_visibleOffsets cut.west cut.east
  have hwhole : (∃ t' ∈ some t, t'.isIdentity = false) →
      cut.east - cut.west ≤ 180 ∨ 2 * 180 ≤ cut.east - cut.west := by
    simp [ht]
  have hkept : Revision.applyTo cut.finite .kept = cut.finite := rfl
  rw [outcome_postProcess_of_whole hr hne hwhole]
  constructor
  · rintro ⟨rev, s₂, h, hrev, hh, -⟩
    exact ⟨ks, hshows,
      copyable_of_replicate hkept hne hshells hr.radius_eq hoffsets hshows hrev hh⟩
  · rintro ⟨ks', hshows', hcopyable⟩
    rw [hshows'.eq hshows] at hcopyable
    obtain ⟨rev, s₂, h, hrev, hh, hstays, hgathered⟩ :=
      exists_replicate hkept hne hr.radius_eq hoffsets hshows hcopyable s
    refine ⟨rev, s₂, h, hrev, hh, fun p hwest heast _ _ => ?_⟩
    have hturn : (2 : K) * 180 = 360 := by norm_num
    simp only [Option.mem_some_iff, exists_eq_left', ← hturn]
    exact mem_painted_copies hshows hr.cap_nonneg (fun hnil => (hstays (by simp [hnil])).2)
      hgathered hwest heast

/-- After any other renderings of a request, a stored geometry is rendered inside an area of its own
system as all of its moves by whole turns, up to the cap, exactly if what cutting leaves of it is
empty or can be copied. A geometry with heights on all vertices or on none, and without empty parts,
always is. -/
theorem render_paints_iff {s₀ : State (Extended K)} (hglobe : SameGlobe area source target)
    (hfind : find setting (some area.finite) (.ok (some source)) true cap = .ok (some (r, s₀)))
    (hcap : 1 ≤ cap) (hlatitudes : -90 ≤ area.miny ∧ area.maxy ≤ 90)
    (hne : g.isEmpty = false) (hstored : ∀ v ∈ g.outline, -180 ≤ v.x ∧ v.x ≤ 180)
    (hshells : ∀ part ∈ g.parts, part.isEmpty = true → part.vertices = [])
    (hclips : setting.overlay.ClipsExactly g) (ht : t.isIdentity = true)
    (earlier : List (Transform (Extended K) × Option (Geometry (Extended K))))
    (hs : s = r.stateAfter setting s₀ earlier) :
    ∃ rev s₁, ∃ cut : Geometry K,
      (r.preProcess setting (some g.finite)).outcome s = (.ok rev, s₁) ∧
      rev.applyTo g.finite = cut.finite ∧
      ((∃ s₂, ∃ picture : Option (Geometry K),
          (r.render setting t (some g.finite)).outcome s =
            (.ok (picture.map Geometry.finite), s₂) ∧ Paints area cap g picture) ↔
        cut.isEmpty = true ∨ ∃ ks, Shows area 180 cap cut.west cut.east ks ∧ Copyable cut ks) ∧
      (g.HasEvenHeights → (∀ part ∈ g.parts, part.isEmpty = false) →
        cut.isEmpty = true ∨ ∃ ks, Shows area 180 cap cut.west cut.east ks ∧ Copyable cut ks) := by
  have hocc := occupied_of_find hfind
  have hheight : area.maxy - area.miny ≤ 180 := by linarith [hlatitudes.1, hlatitudes.2]
  obtain ⟨relation, hrequest, hstart⟩ := eq_geographic_of_find hglobe (by omega) hfind
  have hplanned : Planned setting r s := by
    rw [hs, hstart]
    exact plannedAs_stateAfter setting r (plannedAs_start setting r _) earlier
  have hr : Repeats r geographicCycle area 180 := by
    rw [hrequest]
    exact repeats_geographic (by omega)
  have hcopies : r.makesCopies = true := by rw [hrequest]; rfl
  have hrcap : r.cap = cap := by rw [hrequest]; rfl
  obtain ⟨rev, s₁, cut, hpre, hcut, hleft, hkeeps⟩ :=
    exists_cut hglobe hocc hheight hne hstored hclips hrequest hplanned
  have hrender := outcome_render hcopies ht (by rwa [isEmpty_finite]) hpre
  rw [hcut, isEmpty_finite] at hrender
  refine ⟨rev, s₁, cut, hpre, hcut, ?_, ?_⟩
  · rw [hrender]
    cases hempty : cut.isEmpty with
    | true =>
        -- nothing is left inside the area, and nothing is painted there
        refine iff_of_true ⟨s₁, none, rfl, fun p hwest heast hsouth hnorth => ?_⟩ (.inl rfl)
        refine iff_of_false (by simp) ?_
        rintro ⟨k, hk, hp⟩
        have hmem := hkeeps p hwest heast hsouth hnorth k hk hp
        rw [painted_of_isEmpty hempty] at hmem
        cases hmem
    | false =>
        have hcopied := postProcess_paints_iff setting s₁ hr hempty
          (hleft.vertices_of_isEmpty hshells) ht
        rw [hrcap] at hcopied
        simp only [hleft.paints_iff hkeeps] at hcopied
        simp only [Bool.false_eq_true, if_false, false_or]
        rw [← hcopied]
        simp only [Action.outcome_map_eq_ok_iff]
        constructor
        · rintro ⟨s₂, picture, ⟨copied, hpost, hpicture⟩, hpaints⟩
          obtain ⟨h, rfl, hh⟩ := Option.map_eq_some_iff.mp hpicture.symm
          exact ⟨copied, s₂, h, hpost, hh.symm, hpaints⟩
        · rintro ⟨copied, s₂, h, hpost, hh, hpaints⟩
          exact ⟨s₂, some h, ⟨copied, hpost, congrArg some hh⟩, hpaints⟩
  · intro heven hparts
    obtain ⟨ks, -, hshows⟩ := hr.exists_visibleOffsets cut.west cut.east
    rw [hrcap] at hshows
    exact .inr ⟨ks, hshows, hleft.copyable heven hparts ks⟩

/-- A point is painted where it is stored and a turn to the east. -/
theorem paints_point_twice :
    let crs := Crs.ofFrame Crs.Registry.wgs84
    let area : Envelope ℚ := ⟨150, -20, 540, 20, some crs⟩
    let mapping : Mapping (Extended ℚ) := ⟨fun x y => (x, y), fun _ _ => false, true⟩
    let clip (g : Geometry (Extended ℚ)) (rects : List (Envelope (Extended ℚ))) :
        Geometry (Extended ℚ) :=
      if g.outline.all fun v => rects.any fun e =>
        e.minx ≤ v.x && v.x ≤ e.maxx && e.miny ≤ v.y && v.y ≤ e.maxy then g else .point none
    let setting : Setting (Extended ℚ) :=
      ⟨⟨fun _ _ => some mapping⟩, ⟨fun _ => true, clip, fun _ _ => true, fun _ _ => true⟩⟩
    let same : Transform (Extended ℚ) := .direct crs crs true mapping
    let g : Geometry ℚ := .point (some ⟨170, 0, none⟩)
    ∃ r s₀ s₂ picture,
      find setting (some area.finite) (.ok (some crs)) true 1 = .ok (some (r, s₀)) ∧
      (r.render setting same (some g.finite)).outcome s₀ =
        (.ok (picture.map Geometry.finite), s₂) ∧ Paints area 1 g picture := by
  intro crs area mapping clip setting same g
  have hglobe : SameGlobe area crs crs := ⟨rfl, rfl, rfl, rfl⟩
  have hfind : find setting (some area.finite) (.ok (some crs)) true 1 =
      .ok (some (geographic area.finite crs crs 1 same,
        (geographic area.finite crs crs 1 same).start)) := by
    rw [find_geographic rfl rfl (Envelope.isEmpty_finite (by norm_num [area, Envelope.Occupied]))
      (by decide)]
    rfl
  have hclips : setting.overlay.ClipsExactly g := by
    intro rects _
    have hpoint (p : ℚ × ℚ) : p ∈ g.painted ↔ p = (170, 0) := by
      simp [g, painted, Vertex.place]
    have hcovered : (g.finite.outline.all fun v => (rects.map Envelope.finite).any fun e =>
        e.minx ≤ v.x && v.x ≤ e.maxx && e.miny ≤ v.y && v.y ≤ e.maxy) = true ↔
        ∃ rect ∈ rects, ((170, 0) : ℚ × ℚ) ∈ rect.region := by
      simp [g, outline, Envelope.mem_region, and_assoc]
    by_cases hinside : ∃ rect ∈ rects, ((170, 0) : ℚ × ℚ) ∈ rect.region
    · refine ⟨g, if_pos (hcovered.mpr hinside), fun p => ?_, id, fun _ => ?_⟩
      · rw [hpoint, iff_self_and]
        rintro rfl
        exact hinside
      · simp [g, parts, isEmpty]
    · refine ⟨.point none, if_neg (hcovered.not.mpr hinside), fun p => ?_, fun _ => ?_, ?_⟩
      · rw [hpoint]
        refine iff_of_false (by simp [painted]) ?_
        rintro ⟨rfl, hrect⟩
        exact hinside hrect
      · exact .inl (by simp [vertices])
      · simp [isEmpty]
  obtain ⟨rev, s₁, cut, -, -, hiff, hgood⟩ := render_paints_iff hglobe hfind (by decide)
    (by norm_num [area]) rfl (by norm_num [g, outline]) (by simp [g, parts, isEmpty]) hclips
    (t := same) rfl [] rfl
  obtain ⟨s₂, picture, hpicture, hpaints⟩ :=
    hiff.mpr (hgood (.inl (by simp [g, vertices])) (by simp [g, parts, isEmpty]))
  exact ⟨_, _, s₂, picture, hfind, hpicture, hpaints⟩

end Antimeridian.Rendering
