import Antimeridian.Proofs.Layer.Finding
import Antimeridian.Proofs.Rendering.Painting
import Antimeridian.Proofs.Rendering.Visibility

/-!
# Loading the features of an area

Rendering the features that the queries of an area find gives what rendering the whole file would
give of them, and no feature is missed that some turns up to the cap move into the area. What can
go wrong is what can go wrong with each of these features alone: the making of its copies.
-/

namespace Antimeridian.Layer

open Antimeridian.Geometry Antimeridian.Rendering

section Rendered

variable {α β γ : Type}

theorem forall_of_mapM {f : β → Except (Failure α) γ} {bs : List β} {cs : List γ}
    (hok : bs.mapM f = .ok cs) : ∀ b ∈ bs, ∃ c, f b = .ok c := by
  intro b hb
  obtain ⟨c, -, hc⟩ := exists_mem_of_mapM hok b hb
  exact ⟨c, hc⟩

theorem exists_mapM {f : β → Except (Failure α) γ} {bs : List β}
    (hall : ∀ b ∈ bs, ∃ c, f b = .ok c) : ∃ cs, bs.mapM f = .ok cs := by
  induction bs with
  | nil => exact ⟨[], rfl⟩
  | cons b rest ih =>
      obtain ⟨⟨c, hc⟩, hrest⟩ := List.forall_mem_cons.mp hall
      obtain ⟨cs, hcs⟩ := ih hrest
      exact ⟨c :: cs, by rw [List.mapM_cons, hc, hcs]; rfl⟩

theorem filterMap_of_mapM {f : β → Except (Failure α) (Option γ)} {bs : List β}
    {cs : List (Option γ)} (hok : bs.mapM f = .ok cs) :
    cs.filterMap id = bs.filterMap fun b => (f b).toOption.join := by
  induction bs generalizing cs with
  | nil =>
      cases hok
      rfl
  | cons b rest ih =>
      rw [List.mapM_cons] at hok
      obtain ⟨c, hc, hok⟩ := bind_eq_ok_iff.mp hok
      obtain ⟨cs', hcs', hok⟩ := bind_eq_ok_iff.mp hok
      cases hok
      rw [List.filterMap_cons, List.filterMap_cons, ih hcs', hc]
      rfl

variable [Scalar α] {setting : Setting α} {r : Rendering α} {s₀ : State α}

variable (setting r s₀) in
/-- What rendering a feature by itself comes to. -/
def rendered (f : Feature α) : Except (Failure α) (Option (Feature α)) :=
  ((renderFeature setting r r.relation f).outcome s₀).1

variable (setting r s₀) in
/-- A feature as it is rendered by itself, none where nothing of it is visible. -/
def rendition (f : Feature α) : Option (Feature α) := (rendered setting r s₀ f).toOption.join

theorem renderFeature_eq (f : Feature α) : renderFeature setting r r.relation f =
    (fun shape => shape.map fun g => { f with geometry := some g }) <$>
      r.render setting r.relation f.geometry := by
  rw [renderFeature, map_eq_pure_bind]
  congr 1
  funext shape
  cases shape <;> rfl

theorem rendered_eq (f : Feature α) : rendered setting r s₀ f =
    (fun shape => shape.map fun g => { f with geometry := some g }) <$>
      ((r.render setting r.relation f.geometry).outcome s₀).1 := by
  rw [rendered, renderFeature_eq, Action.outcome_map]
  rcases (r.render setting r.relation f.geometry).outcome s₀ with ⟨failure | shape, s⟩ <;> rfl

theorem label_of_rendition {f f' : Feature α} (hf : rendition setting r s₀ f = some f') :
    f'.label = f.label ∧ f'.attributes = f.attributes := by
  rw [rendition, rendered_eq] at hf
  rcases hshape : ((r.render setting r.relation f.geometry).outcome s₀).1 with failure | _ | g <;>
    rw [hshape] at hf
  · contradiction
  · contradiction
  · cases hf
    exact ⟨rfl, rfl⟩

/-- A feature can be rendered if its geometry can, should it have one with vertices. -/
theorem exists_rendered_iff (f : Feature α) : (∃ f', rendered setting r s₀ f = .ok f') ↔
    ∀ g, f.geometry = some g → g.isEmpty = false →
      ∃ shape, ((r.render setting r.relation (some g)).outcome s₀).1 = .ok shape := by
  have hrendered : (∃ f', rendered setting r s₀ f = .ok f') ↔
      ∃ shape, ((r.render setting r.relation f.geometry).outcome s₀).1 = .ok shape := by
    rw [rendered_eq]
    cases ((r.render setting r.relation f.geometry).outcome s₀).1 with
    | error failure => simp
    | ok shape => exact iff_of_true ⟨_, rfl⟩ ⟨shape, rfl⟩
  rw [hrendered]
  cases hgeometry : f.geometry with
  | none => exact iff_of_true ⟨none, rfl⟩ (by simp)
  | some g =>
      cases hempty : g.isEmpty with
      | true =>
          refine iff_of_true ⟨none, ?_⟩ ?_
          · simp [render, hempty]
          · rintro _ ⟨⟩ hne
            simp [hempty] at hne
      | false =>
          constructor
          · rintro hshape _ ⟨⟩ -
            exact hshape
          · intro hall
            exact hall g rfl hempty

/-- Features rendered one after the other are rendered as each of them by itself. -/
theorem outcome_mapM_renderFeature {across : Bool} (hs : PlannedAs setting r across s₀)
    (fs : List (Feature α)) :
    ((fs.mapM (renderFeature setting r r.relation)).outcome s₀).1 =
      fs.mapM (rendered setting r s₀) := by
  have huniform (f : Feature α) :
      (renderFeature setting r r.relation f).Uniform (PlannedAs setting r across) := by
    rw [renderFeature_eq]
    exact (uniform_render setting r _ _).map _
  exact Action.Uniform.outcome_mapM huniform hs fs hs

end Rendered

variable {K : Type} [Field K] [LinearOrder K] [FloorRing K]

/-- A stored geometry that is found in a closed rectangle exactly if they share a point, and clipped
exactly. -/
structure Readable (overlay : Overlay (Extended K)) (g : Geometry K) : Prop where
  stored : ∀ v ∈ g.outline, -180 ≤ v.x ∧ v.x ≤ 180
  clips : overlay.ClipsExactly g
  meets_iff : ∀ rect : Envelope K, rect.Occupied →
    (overlay.meets g.finite rect.finite = true ↔ ∃ p ∈ g.painted, p ∈ rect.region)

/-- A point of a feature that some turns up to the cap move into an area. -/
def Visible (area : Envelope K) (cap : Int) (f : Feature (Extended K)) : Prop :=
  ∃ g : Geometry K, f.geometry = some g.finite ∧ ∃ p ∈ g.painted, ∃ k : Int, |k| ≤ cap ∧
    (area.minx < p.1 + 360 * k ∧ p.1 + 360 * k < area.maxx) ∧ area.miny < p.2 ∧ p.2 < area.maxy

variable {setting : Setting (Extended K)} {r : Rendering (Extended K)} {s₀ s₁ : State (Extended K)}
  {area : Envelope K} {source target : Crs} {cap : Int} {g cut : Geometry K}
  {rev : Revision (Extended K)}

variable (setting r s₀ area g) in
/-- Cutting leaves nothing of a geometry, or what can be copied to its visible places. -/
def CanRender : Prop :=
  ∃ rev s₁, ∃ cut : Geometry K, (r.preProcess setting (some g.finite)).outcome s₀ = (.ok rev, s₁) ∧
    rev.applyTo g.finite = cut.finite ∧
    (cut.isEmpty = true ∨ ∃ ks, Shows area 180 r.cap cut.west cut.east ks ∧ Replicable cut ks)

theorem canRender_iff (hpre : (r.preProcess setting (some g.finite)).outcome s₀ = (.ok rev, s₁))
    (hcut : rev.applyTo g.finite = cut.finite) :
    CanRender setting r s₀ area g ↔
      cut.isEmpty = true ∨ ∃ ks, Shows area 180 r.cap cut.west cut.east ks ∧ Replicable cut ks := by
  constructor
  · rintro ⟨rev', s', cut', hpre', hcut', hcan⟩
    rw [hpre, Prod.mk.injEq, Except.ok.injEq] at hpre'
    rw [← hpre'.1, hcut] at hcut'
    rwa [Geometry.finite_injective hcut']
  · intro hcan
    exact ⟨rev, s₁, cut, hpre, hcut, hcan⟩

variable [IsStrictOrderedRing K]

/-- Rendering what cutting leaves fails only where copies cannot be made of it. -/
theorem exists_render_iff (hrepeats : Repeats r geographicCycle area 180)
    (ht : r.relation.isIdentity = true) (hne : g.isEmpty = false)
    (hpre : (r.preProcess setting (some g.finite)).outcome s₀ = (.ok rev, s₁))
    (hcut : rev.applyTo g.finite = cut.finite) :
    (∃ shape, ((r.render setting r.relation (some g.finite)).outcome s₀).1 = .ok shape) ↔
      CanRender setting r s₀ area g := by
  have hcopies : r.makesCopies = true := by
    rw [makesCopies, hrepeats.cycle_eq]
    rfl
  rw [canRender_iff hpre hcut, outcome_render hcopies ht (by rwa [isEmpty_finite]) hpre, hcut,
    isEmpty_finite]
  cases hempty : cut.isEmpty with
  | true => exact iff_of_true ⟨none, rfl⟩ (.inl rfl)
  | false =>
      obtain ⟨ks, hoffsets, hshows⟩ := hrepeats.exists_visibleOffsets cut.west cut.east
      have hmade : (∃ copied s', (r.postProcess setting (some r.relation)
          (some cut.finite)).outcome s₁ = (.ok copied, s')) ↔ Replicable cut ks := by
        rw [outcome_postProcess_of_whole hrepeats hempty (by simp [ht])]
        exact exists_outcome_replicate_iff rfl hempty hrepeats.radius_eq hoffsets hshows s₁
      have hunique : (∃ js, Shows area 180 r.cap cut.west cut.east js ∧ Replicable cut js) ↔
          Replicable cut ks := by
        constructor
        · rintro ⟨js, hjs, hcan⟩
          rwa [hshows.eq hjs]
        · intro hcan
          exact ⟨ks, hshows, hcan⟩
      simp only [Bool.false_eq_true, if_false, false_or]
      rw [hunique, ← hmade, Action.outcome_map]
      rcases (r.postProcess setting (some r.relation) (some cut.finite)).outcome s₁ with
        ⟨failure | copied, s₂⟩ <;> simp

omit [IsStrictOrderedRing K] in
theorem isSome_of_render (hrepeats : Repeats r geographicCycle area 180)
    (ht : r.relation.isIdentity = true) (hne : g.isEmpty = false)
    (hpre : (r.preProcess setting (some g.finite)).outcome s₀ = (.ok rev, s₁))
    (hcut : rev.applyTo g.finite = cut.finite) (hleft : cut.isEmpty = false)
    {shape : Option (Geometry (Extended K))}
    (hshape : ((r.render setting r.relation (some g.finite)).outcome s₀).1 = .ok shape) :
    shape.isSome = true := by
  have hcopies : r.makesCopies = true := by
    rw [makesCopies, hrepeats.cycle_eq]
    rfl
  rw [outcome_render hcopies ht (by rwa [isEmpty_finite]) hpre, hcut, isEmpty_finite,
    hleft] at hshape
  simp only [Bool.false_eq_true, if_false, Action.outcome_map] at hshape
  rcases hpost : (r.postProcess setting (some r.relation) (some cut.finite)).outcome s₁ with
    ⟨failure | copied, s₂⟩ <;> rw [hpost] at hshape
  · cases hshape
  · cases hshape
    rfl

variable {file : Layer (Extended K)} {queries : List (Envelope (Extended K))}

variable (setting r s₀ area cap file queries) in
/-- A layer that has what rendering gives of the features that some queries find, and of all visible
ones, in the order of the queries and then of the file. -/
structure Loads (l : Layer (Extended K)) : Prop where
  features_eq : l.features = (found setting.overlay file queries).filterMap fun i =>
    file.features[i]?.bind (rendition setting r s₀)
  nodup : (found setting.overlay file queries).Nodup
  ordered : (found setting.overlay file queries).Pairwise (Before setting.overlay file queries)
  visible : ∀ i f, file.features[i]? = some f → Visible area cap f →
    i ∈ found setting.overlay file queries ∧ (rendition setting r s₀ f).isSome = true
  kept : ∀ f f', rendition setting r s₀ f = some f' →
    f'.label = f.label ∧ f'.attributes = f.attributes
  whole : ∀ w, project setting file area.finite true cap = .ok w →
    w.features = file.features.filterMap (rendition setting r s₀)

omit [IsStrictOrderedRing K] in
/-- Projecting a layer renders its features by themselves. -/
theorem project_eq {l : Layer (Extended K)} {across : Bool} (hcrs : l.crs = some source)
    (hfind : find setting (some area.finite) (.ok (some source)) true cap = .ok (some (r, s₀)))
    (ht : r.relation.isIdentity = true) (hs : PlannedAs setting r across s₀) :
    project setting l area.finite true cap =
      (fun features => { l with crs := some r.target, features := features.filterMap id }) <$>
        l.features.mapM (rendered setting r s₀) := by
  have hfound := found_of_find hfind
  obtain ⟨crs, hcrs', htarget⟩ := hfound.crs_eq
  have hrelation : setting.atlas.find source r.target = .ok r.relation := by
    rw [← hfound.relation_eq, hfound.source_eq]
    simp only [Atlas.find, Crs.horizontal_horizontal]
  have hsame : r.renderingTransform r.relation = r.relation := by
    simp [renderingTransform, ht]
  have hall := outcome_mapM_renderFeature hs l.features
  unfold project
  simp only [hcrs, hcrs', Crs.required, bind, Except.bind, ← htarget, hfind, hrelation, hsame]
  have hrun : ExceptT.run (l.features.mapM (renderFeature setting r r.relation)) s₀ =
      (l.features.mapM (renderFeature setting r r.relation)).outcome s₀ := rfl
  rw [← hall, hrun]
  rcases (l.features.mapM (renderFeature setting r r.relation)).outcome s₀ with
    ⟨failure | features, s⟩ <;> rfl

omit [IsStrictOrderedRing K] in
theorem loadForRendering_eq {path : String} {s₁ : State (Extended K)}
    (hcrs : file.crs = some source)
    (hfind : find setting (some area.finite) (.ok (some source)) true cap = .ok (some (r, s₀)))
    (hqueries : (r.queries setting).outcome s₀ = (.ok queries, s₁)) :
    loadForRendering setting path (some file) area.finite true cap =
      project setting (gather setting.overlay file queries) area.finite true cap := by
  have hrun : ((r.queries setting).run s₀).1 = .ok queries := congrArg Prod.fst hqueries
  unfold loadForRendering
  simp only [require, bind, Except.bind, hcrs, hfind, hrun]

/-- A request to render stored geometries in an area of their own system: each of them is cut to
something that keeps its points in the area. -/
structure Ready (setting : Setting (Extended K)) (r : Rendering (Extended K))
    (s₀ : State (Extended K)) (area : Envelope K) (cap : Int) : Prop where
  repeats : Repeats r geographicCycle area 180
  cap_eq : r.cap = cap
  same : r.relation.isIdentity = true
  planned : Planned setting r s₀
  cuts : ∀ g : Geometry K, g.isEmpty = false → Readable setting.overlay g →
    ∃ rev s₁, ∃ cut : Geometry K,
      (r.preProcess setting (some g.finite)).outcome s₀ = (.ok rev, s₁) ∧
      rev.applyTo g.finite = cut.finite ∧ Cut g cut ∧
      ∀ p ∈ g.painted, ∀ k : Int, |k| ≤ cap →
        area.minx < p.1 + 360 * k ∧ p.1 + 360 * k < area.maxx →
        area.miny < p.2 ∧ p.2 < area.maxy → p ∈ cut.painted

theorem ready_of_find (hglobe : SameGlobe area source target)
    (hfind : find setting (some area.finite) (.ok (some source)) true cap = .ok (some (r, s₀)))
    (hcap : 1 ≤ cap) (hheight : area.maxy - area.miny ≤ 180) : Ready setting r s₀ area cap := by
  have hfound := found_of_find hfind
  have hocc := occupied_of_find hfind
  obtain ⟨relation, hrequest, hstart⟩ := eq_geographic_of_find hglobe (by omega) hfind
  have hplanned : Planned setting r s₀ := by
    rw [hstart]
    exact plannedAs_start setting r _
  refine ⟨?_, by rw [hrequest]; rfl, ?_, hplanned, ?_⟩
  · rw [hrequest]
    exact repeats_geographic (by omega)
  · rw [hfound.isIdentity_eq, hrequest]
    simpa [geographic, Crs.same_comm] using hglobe.same
  · intro g hne hreads
    obtain ⟨rev, s₁, cut, hpre, hcut, hleft, hkeeps⟩ :=
      exists_cut hglobe hocc hheight hne hreads.stored hreads.clips hrequest hplanned
    refine ⟨rev, s₁, cut, hpre, hcut, hleft, ?_⟩
    intro p hp k hk hx hy
    have hmem := hkeeps (p.1 + 360 * k, p.2) hx.1 hx.2 hy.1 hy.2 k hk
    simp only [add_sub_cancel_right] at hmem
    exact hmem hp

/-- A feature is rendered without a failure exactly if cutting it leaves what can be copied. -/
theorem Ready.exists_rendered_iff (hready : Ready setting r s₀ area cap) {f : Feature (Extended K)}
    (hf : ∀ shape ∈ f.geometry, ∃ g : Geometry K, shape = g.finite ∧ Readable setting.overlay g) :
    (∃ f', rendered setting r s₀ f = .ok f') ↔ ∀ g : Geometry K, f.geometry = some g.finite →
      g.isEmpty = false → CanRender setting r s₀ area g := by
  rw [Layer.exists_rendered_iff]
  constructor
  · intro hall g hg hne
    obtain ⟨own, hown, hreads⟩ := hf _ hg
    obtain rfl := Geometry.finite_injective hown
    obtain ⟨rev, s₁, cut, hpre, hcut, -⟩ := hready.cuts g hne hreads
    rw [← exists_render_iff hready.repeats hready.same hne hpre hcut]
    exact hall _ hg (by rwa [isEmpty_finite])
  · intro hall shape hshape hne
    obtain ⟨g, rfl, hreads⟩ := hf _ hshape
    rw [isEmpty_finite] at hne
    obtain ⟨rev, s₁, cut, hpre, hcut, -⟩ := hready.cuts g hne hreads
    rw [exists_render_iff hready.repeats hready.same hne hpre hcut]
    exact hall g hshape hne

omit [FloorRing K] [IsStrictOrderedRing K] in
theorem Visible.exists_readable {f : Feature (Extended K)} (hvisible : Visible area cap f)
    (hf : ∀ shape ∈ f.geometry, ∃ g : Geometry K, shape = g.finite ∧ Readable setting.overlay g) :
    ∃ g : Geometry K, f.geometry = some g.finite ∧ Readable setting.overlay g ∧ ∃ p ∈ g.painted,
      ∃ k : Int, |k| ≤ cap ∧ (area.minx < p.1 + 360 * k ∧ p.1 + 360 * k < area.maxx) ∧
        area.miny < p.2 ∧ p.2 < area.maxy := by
  obtain ⟨g, hg, hpoint⟩ := hvisible
  obtain ⟨own, hown, hreads⟩ := hf _ hg
  obtain rfl := Geometry.finite_injective hown
  exact ⟨_, hg, hreads, hpoint⟩

omit [IsStrictOrderedRing K] in
/-- A visible feature that is rendered without a failure is rendered as something. -/
theorem Ready.isSome_rendition (hready : Ready setting r s₀ area cap) {f : Feature (Extended K)}
    (hf : ∀ shape ∈ f.geometry, ∃ g : Geometry K, shape = g.finite ∧ Readable setting.overlay g)
    (hvisible : Visible area cap f) (hok : ∃ f', rendered setting r s₀ f = .ok f') :
    (rendition setting r s₀ f).isSome = true := by
  obtain ⟨g, hg, hreads, p, hp, k, hk, hx, hy⟩ := hvisible.exists_readable hf
  have hne := isEmpty_of_mem_painted hp
  obtain ⟨rev, s₁, cut, hpre, hcut, -, hkeeps⟩ := hready.cuts g hne hreads
  have hleft := isEmpty_of_mem_painted (hkeeps p hp k hk hx hy)
  obtain ⟨shape, hshape⟩ :=
    (Layer.exists_rendered_iff f).mp hok g.finite hg (by rwa [isEmpty_finite])
  have hsome := isSome_of_render hready.repeats hready.same hne hpre hcut hleft hshape
  obtain ⟨drawn, rfl⟩ := Option.isSome_iff_exists.mp hsome
  rw [rendition, rendered_eq, hg, hshape]
  rfl

omit [FloorRing K] in
/-- The queries find every visible feature. -/
theorem mem_found_of_visible {rects : List (Envelope K)} (hholds : Holds area cap rects) {i : Nat}
    {f : Feature (Extended K)} (hi : file.features[i]? = some f)
    (hf : ∀ shape ∈ f.geometry, ∃ g : Geometry K, shape = g.finite ∧ Readable setting.overlay g)
    (hvisible : Visible area cap f) :
    i ∈ found setting.overlay file (rects.map Envelope.finite) := by
  obtain ⟨g, hg, hreads, p, hp, k, hk, hx, hy⟩ := hvisible.exists_readable hf
  have hne := isEmpty_of_mem_painted hp
  obtain ⟨⟨hpwest, hpeast⟩, -⟩ := mem_bounds_of_mem_painted hp
  obtain ⟨v, hv, hvwest⟩ := exists_west hne
  obtain ⟨w, hw, hweast⟩ := exists_east hne
  have hlow : -180 ≤ p.1 := (hreads.stored v hv).1.trans (hvwest.trans_le hpwest)
  have hhigh : p.1 ≤ 180 := hpeast.trans (hweast.symm.trans_le (hreads.stored w hw).2)
  -- the point is a rectangle of its own
  obtain ⟨rect, hrect, ⟨hwest, heast⟩, hsouth, hnorth⟩ := hholds.reach
    ⟨p.1 + 360 * k, p.2, p.1 + 360 * k, p.2, none⟩ ⟨le_rfl, le_rfl⟩ hx.1 hx.2 hy.1.le hy.2.le k hk
    (by simpa) (by simpa)
  simp only [add_sub_cancel_right] at hwest heast
  have hmeets : setting.overlay.meets g.finite rect.finite = true := by
    rw [hreads.meets_iff rect (hholds.occupied rect hrect)]
    exact ⟨p, hp, Envelope.mem_region.mpr ⟨⟨hwest, heast⟩, hsouth, hnorth⟩⟩
  rw [mem_found_iff]
  refine ⟨rect.finite, List.mem_map_of_mem hrect, ?_⟩
  simpa [finds, hi, Layer.meets, hg] using hmeets

/-- Loading the features of a geographic area gives, each of them once, what rendering the whole
file gives of those that its queries find, and all those that are visible are among them, exactly if
each feature that is found can be rendered by itself. Those with heights on all vertices or on none,
and without empty parts, always can. -/
theorem loadForRendering_loses_nothing_iff {path : String} (hglobe : SameGlobe area source target)
    (hfind : find setting (some area.finite) (.ok (some source)) true cap = .ok (some (r, s₀)))
    (hcap : 1 ≤ cap) (hlatitudes : -90 ≤ area.miny ∧ area.maxy ≤ 90)
    (hwidth : area.maxx - area.minx ≤ 359 ∨ 360 ≤ area.maxx - area.minx)
    (hcrs : file.crs = some source)
    (hfile : ∀ f ∈ file.features, ∀ shape ∈ f.geometry,
      ∃ g : Geometry K, shape = g.finite ∧ Readable setting.overlay g) :
    ∃ queries s₁, (r.queries setting).outcome s₀ = (.ok queries, s₁) ∧
      ((∃ l, loadForRendering setting path (some file) area.finite true cap = .ok l ∧
          Loads setting r s₀ area cap file queries l) ↔
        ∀ i ∈ found setting.overlay file queries, ∀ f, file.features[i]? = some f →
          ∀ g : Geometry K, f.geometry = some g.finite → g.isEmpty = false →
            CanRender setting r s₀ area g) ∧
      ∀ g : Geometry K, Readable setting.overlay g → g.isEmpty = false → g.HasEvenHeights →
        (∀ part ∈ g.parts, part.isEmpty = false) → CanRender setting r s₀ area g := by
  have hocc := occupied_of_find hfind
  have hheight : area.maxy - area.miny ≤ 180 := by linarith [hlatitudes.1, hlatitudes.2]
  have hready := ready_of_find hglobe hfind hcap hheight
  obtain ⟨relation, hrequest, -⟩ := eq_geographic_of_find hglobe (by omega) hfind
  obtain ⟨rects, hplan, hholds⟩ := exists_holds setting relation cap hglobe hocc hheight hwidth
  have hqueries : (r.queries setting).outcome s₀ =
      (.ok (rects.map Envelope.finite),
        { s₀ with queries := some (rects.map Envelope.finite) }) := by
    have hcopies : r.makesCopies = true := by rw [hrequest]; rfl
    rw [hready.planned.outcome_queries, hcopies, hrequest, hplan]
  generalize hq : rects.map Envelope.finite = queries at hqueries
  refine ⟨queries, _, hqueries, ?_, ?_⟩
  · rw [loadForRendering_eq hcrs hfind hqueries,
      project_eq (gather_crs.trans hcrs) hfind hready.same hready.planned, gather_features]
    constructor
    · rintro ⟨l, hload, -⟩ i hi f hf
      rw [← hready.exists_rendered_iff (hfile f (List.mem_of_getElem? hf))]
      obtain ⟨features, hfeatures⟩ : ∃ features, ((found setting.overlay file queries).filterMap
          (file.features[·]?)).mapM (rendered setting r s₀) = .ok features := by
        rw [map_eq_pure_bind] at hload
        obtain ⟨features, hfeatures, -⟩ := bind_eq_ok_iff.mp hload
        exact ⟨features, hfeatures⟩
      exact forall_of_mapM hfeatures f (List.mem_filterMap.mpr ⟨i, hi, hf⟩)
    · intro hall
      have hok (i : Nat) (hi : i ∈ found setting.overlay file queries) (f : Feature (Extended K))
          (hf : file.features[i]? = some f) : ∃ f', rendered setting r s₀ f = .ok f' :=
        (hready.exists_rendered_iff (hfile f (List.mem_of_getElem? hf))).mpr (hall i hi f hf)
      have hall : ∀ f ∈ (found setting.overlay file queries).filterMap (file.features[·]?),
          ∃ f', rendered setting r s₀ f = .ok f' := by
        intro f hf
        obtain ⟨i, hi, hf⟩ := List.mem_filterMap.mp hf
        exact hok i hi f hf
      obtain ⟨features, hfeatures⟩ := exists_mapM hall
      rw [hfeatures]
      refine ⟨_, rfl, ?_, nodup_found, pairwise_found, ?_, fun f f' => label_of_rendition, ?_⟩
      · rw [← List.filterMap_filterMap]
        exact filterMap_of_mapM hfeatures
      · intro i f hi hvisible
        have hf := hfile f (List.mem_of_getElem? hi)
        have hmem := hq ▸ mem_found_of_visible hholds hi hf hvisible
        exact ⟨hmem, hready.isSome_rendition hf hvisible (hok i hmem f hi)⟩
      · intro w hw
        rw [project_eq hcrs hfind hready.same hready.planned, map_eq_pure_bind] at hw
        obtain ⟨all, hall, hw⟩ := bind_eq_ok_iff.mp hw
        cases hw
        exact filterMap_of_mapM hall
  · intro g hreads hne heven hparts
    obtain ⟨rev, s₁, cut, hpre, hcut, hleft, -⟩ := hready.cuts g hne hreads
    obtain ⟨ks, -, hshows⟩ := hready.repeats.exists_visibleOffsets cut.west cut.east
    exact ⟨rev, s₁, cut, hpre, hcut, .inr ⟨ks, hshows, (hleft.copyable heven hparts ks).replicable⟩⟩

/-- A place that is visible twice is lost where an empty one stands beside it: its copies cannot be
gathered, and nothing is loaded. -/
theorem loses_place_beside_empty_one :
    let crs := Crs.ofFrame Crs.Registry.wgs84
    let area : Envelope ℚ := ⟨150, -20, 540, 20, some crs⟩
    let mapping : Mapping (Extended ℚ) := ⟨fun x y => (x, y), fun _ _ => false, true⟩
    let meets (g : Geometry (Extended ℚ)) (e : Envelope (Extended ℚ)) : Bool :=
      g.outline.any fun v => e.covers v.x v.y
    let setting : Setting (Extended ℚ) :=
      ⟨⟨fun _ _ => some mapping⟩, ⟨fun _ => true, clipPlaces, fun _ _ => true, meets⟩⟩
    let g : Geometry ℚ := .collection [.point none, .point (some ⟨175, 1, none⟩)]
    let feature : Feature (Extended ℚ) := ⟨.whole 0, [], some g.finite⟩
    let file : Layer (Extended ℚ) :=
      { crs := some crs, attributeColumns := [], features := [feature] }
    Visible area 1 feature ∧ ∃ r s₀ queries s₁,
      find setting (some area.finite) (.ok (some crs)) true 1 = .ok (some (r, s₀)) ∧
      (r.queries setting).outcome s₀ = (.ok queries, s₁) ∧
      ¬∃ l, loadForRendering setting "places.gpkg" (some file) area.finite true 1 = .ok l ∧
        Loads setting r s₀ area 1 file queries l := by
  intro crs area mapping meets setting g feature file
  let same : Transform (Extended ℚ) := .direct crs crs true mapping
  let r := geographic area.finite crs.horizontal crs.horizontal 1 same
  have hpainted (p : ℚ × ℚ) : p ∈ g.painted ↔ p = (175, 1) := by
    simp [g, painted, paintedAll, Vertex.place]
  have hvisible : Visible area 1 feature :=
    ⟨g, rfl, (175, 1), (hpainted _).mpr rfl, 0, by norm_num [area]⟩
  refine ⟨hvisible, ?_⟩
  have hocc : area.Occupied := by norm_num [area, Envelope.Occupied]
  have hglobe : SameGlobe area crs crs := ⟨rfl, rfl, rfl, rfl⟩
  have hfind : find setting (some area.finite) (.ok (some crs)) true 1 =
      .ok (some (r, r.start)) := by
    rw [find_geographic rfl rfl (Envelope.isEmpty_finite hocc) (by decide)]
    rfl
  have hreads : Readable setting.overlay g := by
    refine ⟨by norm_num [g, outline, outlineAll], ?_, fun rect _ => ?_⟩
    · apply clipsExactly_of_places rfl
      · simp [hpainted, g, outline, outlineAll, Vertex.place]
      · simp [g, outline, outlineAll]
    · simp [hpainted, setting, meets, g, outline, outlineAll, Envelope.covers, Envelope.mem_region,
        and_assoc]
  have hfile : ∀ f ∈ file.features, ∀ shape ∈ f.geometry,
      ∃ g : Geometry ℚ, shape = g.finite ∧ Readable setting.overlay g := by
    intro f hf shape hshape
    obtain rfl := List.mem_singleton.mp hf
    exact ⟨g, Option.some.inj hshape.symm, hreads⟩
  have hcrs : file.crs = some crs := rfl
  have hclaim (path : String) : ∃ queries s₁,
      (r.queries setting).outcome r.start = (.ok queries, s₁) ∧
        ((∃ l, loadForRendering setting path (some file) area.finite true 1 = .ok l ∧
          Loads setting r r.start area 1 file queries l) ↔ _) ∧ _ :=
    loadForRendering_loses_nothing_iff hglobe hfind le_rfl (by norm_num [area]) (by norm_num [area])
      hcrs hfile
  obtain ⟨queries, s₁, hqueries, hiff, -⟩ := hclaim "places.gpkg"
  refine ⟨r, r.start, queries, s₁, hfind, hqueries, ?_⟩
  rw [hiff]
  intro hall
  -- the only query is the whole stored range, and the place lies in it
  let world : Envelope ℚ := Envelope.stored (area.labelled crs.horizontal)
  have hplan : r.plan setting true = .ok ([world].map Envelope.finite) :=
    plan_of_wide setting same 1 hglobe hocc (by norm_num [area])
  have hplanned : Planned setting r r.start := plannedAs_start setting r _
  have hworld : queries = [world.finite] := by
    have houtcome := hplanned.outcome_queries
    have hmakes : r.makesCopies = true := rfl
    rw [hqueries, hmakes, hplan] at houtcome
    exact Except.ok.inj (Prod.mk.inj houtcome).1
  have hmem : 0 ∈ found setting.overlay file queries := by
    rw [mem_found_iff, hworld]
    exact ⟨_, List.mem_singleton_self _, by decide +kernel⟩
  obtain ⟨rev, s₂, cut, hpre, hcut, hcan⟩ := hall 0 hmem feature rfl g rfl rfl
  -- nothing is cut off, and two places are visible
  have hkept : cut = g := by
    have hocc' : ∀ query ∈ [world], query.Occupied := by
      norm_num [world, Envelope.stored, Envelope.labelled, Envelope.Occupied, area]
    have hnone : g.isEmpty = false := rfl
    have houtcome := outcome_preProcess rfl rfl hplan hocc' hnone hplanned
    have hwhole : cutTo setting ((maskOf [world]).map Envelope.finite) g.finite
        (g.envelope crs).finite = .kept := if_pos (by decide +kernel)
    rw [hpre] at houtcome
    have hrev : rev = .kept := (Except.ok.inj (Prod.mk.inj houtcome).1).trans hwhole
    rw [hrev] at hcut
    exact Geometry.finite_injective hcut.symm
  rw [hkept] at hcan
  have hbounds : g.west = 175 ∧ g.east = 175 := by decide +kernel
  rcases hcan with hempty | ⟨ks, hshows, hcan⟩
  · cases hempty
  · have hplaces : (0 : Int) ∈ ks ∧ (1 : Int) ∈ ks := by
      rw [hshows.mem_iff, hshows.mem_iff, hbounds.1, hbounds.2]
      norm_num [area, r, geographic]
    rcases hcan with hstays | ⟨-, hsingle | hparts⟩
    · exact one_ne_zero (hstays 1 hplaces.2)
    · obtain ⟨k, rfl⟩ := List.length_eq_one_iff.mp
        (le_antisymm hsingle (List.length_pos_of_mem hplaces.1))
      simp at hplaces
      omega
    · have hpoints : ArePoints g.parts := ⟨[none, some ⟨175, 1, none⟩], rfl⟩
      have hempty := hparts (.inr hpoints) (.point none) (by simp [g, parts])
      cases hempty

end Antimeridian.Layer
