import Antimeridian.Proofs.Geometry.Painted

/-!
# Gathered parts

Gathering geometries keeps their parts in order, unless some of them are empty: an empty polygon
among polygons is left out, and an empty line among lines, or point among points, cannot be
gathered at all. What is gathered paints what its parts paint.
-/

namespace Antimeridian

theorem bind_eq_ok_iff {ε β γ : Type} {x : Except ε β} {f : β → Except ε γ} {c : γ} :
    (x >>= f) = .ok c ↔ ∃ b, x = .ok b ∧ f b = .ok c := by
  cases x <;> simp [bind, Except.bind]

/-- Where work succeeds along a list, its results stand beside what they come from. -/
theorem forall₂_of_mapM {ε β γ : Type} {f : β → Except ε γ} {bs : List β} {cs : List γ}
    (hok : bs.mapM f = .ok cs) : List.Forall₂ (fun b c => f b = .ok c) bs cs := by
  induction bs generalizing cs with
  | nil =>
      cases hok
      exact .nil
  | cons b rest ih =>
      rw [List.mapM_cons] at hok
      obtain ⟨c, hc, hok⟩ := bind_eq_ok_iff.mp hok
      obtain ⟨others, hothers, hok⟩ := bind_eq_ok_iff.mp hok
      cases hok
      exact .cons hc (ih hothers)

theorem exists_mem_of_forall₂ {β γ : Type} {R : β → γ → Prop} {bs : List β} {cs : List γ}
    (hall : List.Forall₂ R bs cs) : ∀ b ∈ bs, ∃ c ∈ cs, R b c := by
  induction hall with
  | nil => simp
  | cons hfirst _ ih =>
      refine List.forall_mem_cons.mpr ⟨⟨_, List.mem_cons_self, hfirst⟩, fun b hb => ?_⟩
      obtain ⟨c, hc, hrest⟩ := ih b hb
      exact ⟨c, List.mem_cons_of_mem _ hc, hrest⟩

theorem flatMap_filter_of_nil {β γ : Type} {f : β → List γ} {p : β → Bool}
    (hnil : ∀ b, p b = false → f b = []) (bs : List β) :
    (bs.filter p).flatMap f = bs.flatMap f := by
  induction bs with
  | nil => rfl
  | cons b rest ih => cases hp : p b <;> simp [hp, ih, hnil b]

/-- Values of one kind, if there are any, are not all of another kind. -/
theorem map_ne_map {β γ δ : Type} {c : β → δ} {d : γ → δ} (hne : ∀ b e, c b ≠ d e) {bs : List β}
    (hbs : bs ≠ []) (es : List γ) : bs.map c ≠ es.map d := by
  intro heq
  cases bs with
  | nil => exact hbs rfl
  | cons b rest =>
      cases es with
      | nil => cases heq
      | cons e others => exact hne b e (List.cons.inj heq).1

namespace Geometry

variable {α β : Type}

/-! ## Parts of one kind -/

theorem mapM_eq_some_iff {f : α → Option β} {c : β → α} (hf : ∀ a b, f a = some b ↔ a = c b)
    (as : List α) (bs : List β) : as.mapM f = some bs ↔ as = bs.map c := by
  induction as generalizing bs with
  | nil => cases bs <;> simp
  | cons a rest ih =>
      simp only [List.mapM_cons, Option.bind_eq_bind, Option.bind_eq_some_iff, Option.pure_def,
        Option.some.injEq, hf, ih]
      constructor
      · rintro ⟨b, rfl, bs, rfl, rfl⟩
        rfl
      · intro heq
        cases bs with
        | nil => simp at heq
        | cons b bs =>
            obtain ⟨ha, hrest⟩ := List.cons.inj heq
            exact ⟨b, ha, bs, hrest, rfl⟩

theorem polygon?_eq_some_iff (g : Geometry α) (rings : List (List (Vertex α))) :
    g.polygon? = some rings ↔ g = .polygon rings := by
  cases g <;> simp [polygon?]

theorem line?_eq_some_iff (g : Geometry α) (vs : List (Vertex α)) :
    g.line? = some vs ↔ g = .line vs := by
  cases g <;> simp [line?]

theorem position?_eq_some_iff (g : Geometry α) (position : Option (Vertex α)) :
    g.position? = some position ↔ g = .point position := by
  cases g <;> simp [position?]

/-- Whether some geometries are nothing but polygons. -/
def ArePolygons (gs : List (Geometry α)) : Prop :=
  ∃ members : List (List (List (Vertex α))), gs = members.map polygon

/-- Whether some geometries are nothing but lines. -/
def AreLines (gs : List (Geometry α)) : Prop :=
  ∃ members : List (List (Vertex α)), gs = members.map line

/-- Whether some geometries are nothing but points. -/
def ArePoints (gs : List (Geometry α)) : Prop :=
  ∃ members : List (Option (Vertex α)), gs = members.map point

theorem ArePolygons.not_areLines {gs : List (Geometry α)} (hpolygons : ArePolygons gs)
    (hne : gs ≠ []) : ¬AreLines gs := by
  obtain ⟨members, rfl⟩ := hpolygons
  rintro ⟨others, heq⟩
  exact map_ne_map (by simp) (by simpa using hne) others heq

theorem ArePolygons.not_arePoints {gs : List (Geometry α)} (hpolygons : ArePolygons gs)
    (hne : gs ≠ []) : ¬ArePoints gs := by
  obtain ⟨members, rfl⟩ := hpolygons
  rintro ⟨others, heq⟩
  exact map_ne_map (by simp) (by simpa using hne) others heq

theorem AreLines.not_arePoints {gs : List (Geometry α)} (hlines : AreLines gs) (hne : gs ≠ []) :
    ¬ArePoints gs := by
  obtain ⟨members, rfl⟩ := hlines
  rintro ⟨others, heq⟩
  exact map_ne_map (by simp) (by simpa using hne) others heq

theorem mapM_polygon?_eq_none {gs : List (Geometry α)} (hnot : ¬ArePolygons gs) :
    gs.mapM polygon? = none :=
  Option.eq_none_iff_forall_ne_some.mpr fun members hsome =>
    hnot ⟨members, (mapM_eq_some_iff polygon?_eq_some_iff _ _).mp hsome⟩

theorem mapM_line?_eq_none {gs : List (Geometry α)} (hnot : ¬AreLines gs) :
    gs.mapM line? = none :=
  Option.eq_none_iff_forall_ne_some.mpr fun members hsome =>
    hnot ⟨members, (mapM_eq_some_iff line?_eq_some_iff _ _).mp hsome⟩

theorem mapM_position?_eq_none {gs : List (Geometry α)} (hnot : ¬ArePoints gs) :
    gs.mapM position? = none :=
  Option.eq_none_iff_forall_ne_some.mpr fun members hsome =>
    hnot ⟨members, (mapM_eq_some_iff position?_eq_some_iff _ _).mp hsome⟩

/-! ## Gathering by cases -/

section Cases

variable {gs : List (Option (Geometry α))}

theorem collect_of_polygons {members : List (List (List (Vertex α)))}
    (hflat : partsAll gs = members.map polygon) (hne : members ≠ []) :
    collect gs = .ok (multiPolygon members) := by
  have hpolygons := (mapM_eq_some_iff polygon?_eq_some_iff _ _).mpr hflat
  have hsome : (partsAll gs).isEmpty = false := by simp [hflat, hne]
  simp only [collect, hsome, hpolygons]
  rfl

theorem collect_of_lines {members : List (List (Vertex α))}
    (hflat : partsAll gs = members.map line) (hne : members ≠ []) :
    collect gs = multiLine members := by
  have hlines := (mapM_eq_some_iff line?_eq_some_iff _ _).mpr hflat
  have hsome : partsAll gs ≠ [] := by simpa [hflat] using hne
  have hpolygons : ¬ArePolygons (partsAll gs) := fun hall => hall.not_areLines hsome ⟨_, hflat⟩
  simp only [collect, List.isEmpty_eq_false_iff.mpr hsome, mapM_polygon?_eq_none hpolygons, hlines]
  rfl

theorem collect_of_points {members : List (Option (Vertex α))}
    (hflat : partsAll gs = members.map point) (hne : members ≠ []) :
    collect gs = multiPoint members := by
  have hpoints := (mapM_eq_some_iff position?_eq_some_iff _ _).mpr hflat
  have hsome : partsAll gs ≠ [] := by simpa [hflat] using hne
  have hpolygons : ¬ArePolygons (partsAll gs) := fun hall => hall.not_arePoints hsome ⟨_, hflat⟩
  have hlines : ¬AreLines (partsAll gs) := fun hall => hall.not_arePoints hsome ⟨_, hflat⟩
  simp only [collect, List.isEmpty_eq_false_iff.mpr hsome, mapM_polygon?_eq_none hpolygons,
    mapM_line?_eq_none hlines, hpoints]
  rfl

theorem collect_of_mixed (hpolygons : ¬ArePolygons (partsAll gs)) (hlines : ¬AreLines (partsAll gs))
    (hpoints : ¬ArePoints (partsAll gs)) : collect gs = .ok (.collection (partsAll gs)) := by
  have hsome : (partsAll gs).isEmpty = false :=
    List.isEmpty_eq_false_iff.mpr fun hnil => hpolygons ⟨[], hnil⟩
  simp only [collect, hsome, mapM_polygon?_eq_none hpolygons, mapM_line?_eq_none hlines,
    mapM_position?_eq_none hpoints]
  rfl

/-- Everything that gathering can come to. -/
theorem collect_cases (gs : List (Option (Geometry α))) :
    (partsAll gs = [] ∧ collect gs = .ok nothing) ∨
    (∃ members, members ≠ [] ∧ partsAll gs = members.map polygon ∧
      collect gs = .ok (multiPolygon members)) ∨
    (∃ members, members ≠ [] ∧ partsAll gs = members.map line ∧
      collect gs = multiLine members) ∨
    (∃ members, members ≠ [] ∧ partsAll gs = members.map point ∧
      collect gs = multiPoint members) ∨
    (¬ArePolygons (partsAll gs) ∧ ¬AreLines (partsAll gs) ∧ ¬ArePoints (partsAll gs) ∧
      collect gs = .ok (.collection (partsAll gs))) := by
  by_cases hnil : partsAll gs = []
  · exact .inl ⟨hnil, by simp [collect, hnil]⟩
  have hmembers {γ : Type} {members : List γ} {c : γ → Geometry α}
      (heq : partsAll gs = members.map c) : members ≠ [] := by
    rintro rfl
    exact hnil heq
  by_cases hpolygons : ArePolygons (partsAll gs)
  · obtain ⟨members, heq⟩ := hpolygons
    exact .inr (.inl ⟨members, hmembers heq, heq, collect_of_polygons heq (hmembers heq)⟩)
  by_cases hlines : AreLines (partsAll gs)
  · obtain ⟨members, heq⟩ := hlines
    exact .inr (.inr (.inl ⟨members, hmembers heq, heq, collect_of_lines heq (hmembers heq)⟩))
  by_cases hpoints : ArePoints (partsAll gs)
  · obtain ⟨members, heq⟩ := hpoints
    exact .inr (.inr (.inr (.inl ⟨members, hmembers heq, heq,
      collect_of_points heq (hmembers heq)⟩)))
  exact .inr (.inr (.inr (.inr ⟨hpolygons, hlines, hpoints,
    collect_of_mixed hpolygons hlines hpoints⟩)))

end Cases

/-! ## Parts that are not empty -/

theorem isEmpty_of_parts {g : Geometry α} (hempty : g.isEmpty = true) :
    ∀ part ∈ g.parts, part.isEmpty = true := by
  cases g with
  | points positions => simpa [parts, isEmpty] using hempty
  | lines members => simpa [parts, isEmpty] using hempty
  | polygons members => simpa [parts, isEmpty] using hempty
  | collection members => simpa [parts, isEmpty] using hempty
  | _ => simpa [parts] using hempty

theorem partsAll_map_some {gs : List (Geometry α)}
    (hparts : ∀ g ∈ gs, ∀ part ∈ g.parts, part.isEmpty = false) :
    partsAll (gs.map some) = gs.flatMap parts := by
  rw [partsAll, List.flatMap_map]
  refine List.flatMap_congr fun g hg => ?_
  cases hempty : g.isEmpty with
  | false => simp [hempty]
  | true =>
      have hnil : g.parts = [] := List.eq_nil_iff_forall_not_mem.mpr fun part hpart => by
        simpa [hparts g hg part hpart] using isEmpty_of_parts hempty part hpart
      simp [hempty, hnil]

/-- Whether some parts can be gathered: there is no empty line among lines and no empty point among
points. -/
def Gatherable (gs : List (Geometry α)) : Prop :=
  AreLines gs ∨ ArePoints gs → ∀ part ∈ gs, part.isEmpty = false

theorem multiLine_eq_ok {members : List (List (Vertex α))} {g : Geometry α} :
    multiLine members = .ok g ↔ (∀ vs ∈ members, vs ≠ []) ∧ g = .lines members := by
  rw [multiLine]
  split
  next hany =>
    refine iff_of_false (by simp) fun hall => ?_
    obtain ⟨vs, hvs, hnil⟩ := List.any_eq_true.mp hany
    exact hall.1 vs hvs (List.isEmpty_iff.mp hnil)
  next hany =>
    refine ⟨fun hok => ⟨fun vs hvs hnil => hany ?_, (Except.ok.inj hok).symm⟩, fun hall => ?_⟩
    · exact List.any_eq_true.mpr ⟨vs, hvs, List.isEmpty_iff.mpr hnil⟩
    · rw [hall.2]

theorem multiLine_fails_iff {members : List (List (Vertex α))} :
    (∃ failure, multiLine members = .error failure) ↔ [] ∈ members := by
  rw [multiLine]
  split
  next hany => exact iff_of_true ⟨_, rfl⟩ (by simpa using hany)
  next hany => exact iff_of_false (by rintro ⟨_, ⟨⟩⟩) (by simpa using hany)

theorem multiPoint_eq_ok {members : List (Option (Vertex α))} {g : Geometry α} :
    multiPoint members = .ok g ↔ (∀ position ∈ members, position ≠ none) ∧ g = .points members := by
  rw [multiPoint]
  split
  next hany =>
    refine iff_of_false (by simp) fun hall => ?_
    obtain ⟨position, hposition, hnone⟩ := List.any_eq_true.mp hany
    exact hall.1 position hposition (Option.isNone_iff_eq_none.mp hnone)
  next hany =>
    refine ⟨fun hok => ⟨fun position hposition hnone => hany ?_, (Except.ok.inj hok).symm⟩,
      fun hall => ?_⟩
    · exact List.any_eq_true.mpr ⟨position, hposition, Option.isNone_iff_eq_none.mpr hnone⟩
    · rw [hall.2]

theorem gatherable_lines {members : List (List (Vertex α))} :
    Gatherable (members.map line) ↔ ∀ vs ∈ members, vs ≠ [] := by
  have hlines : AreLines (members.map line) := ⟨members, rfl⟩
  simp [Gatherable, hlines, isEmpty]

theorem gatherable_points {members : List (Option (Vertex α))} :
    Gatherable (members.map point) ↔ ∀ position ∈ members, position ≠ none := by
  have hpoints : ArePoints (members.map point) := ⟨members, rfl⟩
  simp [Gatherable, hpoints, isEmpty, Option.isSome_iff_ne_none]

/-- Gathering succeeds exactly for parts that can be gathered. -/
theorem exists_collect_iff {gs : List (Option (Geometry α))} :
    (∃ g, collect gs = .ok g) ↔ Gatherable (partsAll gs) := by
  rcases collect_cases gs with ⟨hflat, hok⟩ | ⟨members, hne, hflat, hok⟩ |
    ⟨members, -, hflat, hok⟩ | ⟨members, -, hflat, hok⟩ | ⟨-, hlines, hpoints, hok⟩
  · exact iff_of_true ⟨_, hok⟩ (by simp [Gatherable, hflat])
  · have hsome : partsAll gs ≠ [] := by simpa [hflat] using hne
    have hpolygons : ArePolygons (partsAll gs) := ⟨members, hflat⟩
    refine iff_of_true ⟨_, hok⟩ fun hkind => ?_
    exact (hkind.elim (hpolygons.not_areLines hsome) (hpolygons.not_arePoints hsome)).elim
  · simp only [hok, hflat, multiLine_eq_ok, gatherable_lines, exists_and_left, exists_eq, and_true]
  · simp only [hok, hflat, multiPoint_eq_ok, gatherable_points, exists_and_left, exists_eq,
      and_true]
  · exact iff_of_true ⟨_, hok⟩ fun hkind => (hkind.elim hlines hpoints).elim

/-- The parts of a geometry that are not empty. -/
def occupied (g : Geometry α) : List (Geometry α) := g.parts.filter fun part => !part.isEmpty

theorem mem_occupied {g part : Geometry α} :
    part ∈ g.occupied ↔ part ∈ g.parts ∧ part.isEmpty = false := by
  simp [occupied]

theorem occupied_flatMap_outline (g : Geometry α) : g.occupied.flatMap outline = g.outline := by
  rw [← parts_flatMap_outline, occupied]
  exact flatMap_filter_of_nil
    (fun part hempty => (outline_eq_nil_iff part).mpr (by simpa using hempty)) _

theorem occupied_eq_nil_iff {g : Geometry α} : g.occupied = [] ↔ g.isEmpty = true := by
  constructor
  · intro hnil
    rw [← outline_eq_nil_iff, ← occupied_flatMap_outline, hnil, List.flatMap_nil]
  · intro hempty
    rw [List.eq_nil_iff_forall_not_mem]
    intro part hpart
    obtain ⟨hpart, hsome⟩ := mem_occupied.mp hpart
    simp [isEmpty_of_parts hempty part hpart] at hsome

theorem occupied_map (f : Vertex α → Vertex β) (g : Geometry α) :
    (g.map f).occupied = g.occupied.map (map f) := by
  simp [occupied, List.filter_map, Function.comp_def]

theorem filter_partsAll (gs : List (Geometry α)) :
    ((partsAll (gs.map some)).filter fun part => !part.isEmpty) = gs.flatMap occupied := by
  rw [partsAll, List.flatMap_map, List.filter_flatMap]
  refine List.flatMap_congr fun g _ => ?_
  cases hempty : g.isEmpty with
  | false => simp [hempty, occupied]
  | true => simp [hempty, occupied_eq_nil_iff.mpr hempty]

/-- Gathering keeps the parts in order, and loses none but empty polygons among polygons. -/
theorem parts_collect {gs : List (Option (Geometry α))} {g : Geometry α} (hg : collect gs = .ok g) :
    g.parts = partsAll gs ∨ g.parts = (partsAll gs).filter fun part => !part.isEmpty := by
  rcases collect_cases gs with ⟨hflat, hok⟩ | ⟨members, -, hflat, hok⟩ | ⟨members, -, hflat, hok⟩ |
    ⟨members, -, hflat, hok⟩ | ⟨-, -, -, hok⟩
  · rw [hflat, Except.ok.inj (hg.symm.trans hok)]
    exact .inl rfl
  · rw [hflat, Except.ok.inj (hg.symm.trans hok), List.filter_map]
    exact .inr rfl
  · rw [hflat, (multiLine_eq_ok.mp (hok.symm.trans hg)).2]
    exact .inl rfl
  · rw [hflat, (multiPoint_eq_ok.mp (hok.symm.trans hg)).2]
    exact .inl rfl
  · rw [Except.ok.inj (hg.symm.trans hok)]
    exact .inl rfl

theorem occupied_collect {gs : List (Option (Geometry α))} {g : Geometry α}
    (hg : collect gs = .ok g) :
    g.occupied = (partsAll gs).filter fun part => !part.isEmpty := by
  rcases parts_collect hg with heq | heq
  · rw [occupied, heq]
  · rw [occupied, heq, List.filter_filter]
    simp only [Bool.and_self]

/-! ## Points and moved vertices -/

theorem mem_painted_iff_occupied {K : Type} [Field K] [LinearOrder K] {g : Geometry K} {p : K × K} :
    p ∈ g.painted ↔ ∃ part ∈ g.occupied, p ∈ part.painted := by
  rw [mem_painted_iff_parts]
  constructor
  · rintro ⟨part, hpart, hp⟩
    refine ⟨part, mem_occupied.mpr ⟨hpart, ?_⟩, hp⟩
    by_contra hempty
    rw [painted_of_isEmpty (Bool.eq_true_of_not_eq_false hempty)] at hp
    contradiction
  · rintro ⟨part, hpart, hp⟩
    exact ⟨part, (mem_occupied.mp hpart).1, hp⟩

theorem partsAll_map (f : Vertex α → Vertex β) (gs : List (Geometry α)) :
    partsAll ((gs.map (map f)).map some) = (partsAll (gs.map some)).map (map f) := by
  simp only [partsAll, List.flatMap_map, List.map_flatMap]
  refine List.flatMap_congr fun g _ => ?_
  rw [isEmpty_map, parts_map]
  split <;> rfl

theorem exists_eq_map_iff {c : β → α} {as : List α} :
    (∃ bs : List β, as = bs.map c) ↔ ∀ a ∈ as, a ∈ Set.range c := by
  simpa [eq_comm] using Set.ext_iff.mp (Set.range_list_map c) as

theorem map_mem_range_polygon {f : Vertex α → Vertex β} {g : Geometry α} :
    g.map f ∈ Set.range polygon ↔ g ∈ Set.range polygon := by
  cases g <;> simp [map]

theorem map_mem_range_line {f : Vertex α → Vertex β} {g : Geometry α} :
    g.map f ∈ Set.range line ↔ g ∈ Set.range line := by
  cases g <;> simp [map]

theorem map_mem_range_point {f : Vertex α → Vertex β} {g : Geometry α} :
    g.map f ∈ Set.range point ↔ g ∈ Set.range point := by
  cases g <;> simp [map]

theorem arePolygons_map_iff {f : Vertex α → Vertex β} {gs : List (Geometry α)} :
    ArePolygons (gs.map (map f)) ↔ ArePolygons gs := by
  rw [ArePolygons, ArePolygons, exists_eq_map_iff, exists_eq_map_iff, List.forall_mem_map]
  exact forall₂_congr fun _ _ => map_mem_range_polygon

theorem areLines_map_iff {f : Vertex α → Vertex β} {gs : List (Geometry α)} :
    AreLines (gs.map (map f)) ↔ AreLines gs := by
  rw [AreLines, AreLines, exists_eq_map_iff, exists_eq_map_iff, List.forall_mem_map]
  exact forall₂_congr fun _ _ => map_mem_range_line

theorem arePoints_map_iff {f : Vertex α → Vertex β} {gs : List (Geometry α)} :
    ArePoints (gs.map (map f)) ↔ ArePoints gs := by
  rw [ArePoints, ArePoints, exists_eq_map_iff, exists_eq_map_iff, List.forall_mem_map]
  exact forall₂_congr fun _ _ => map_mem_range_point

/-- What all the members of several copies of a list have in common, the list has. -/
theorem forall_mem_copies {ι : Type} {ks : List ι} (hks : ks ≠ []) {f : ι → Vertex α → Vertex β}
    {gs : List (Geometry α)} {P : Geometry β → Prop} {Q : Geometry α → Prop}
    (hiff : ∀ k g, P (g.map (f k)) ↔ Q g) :
    (∀ g ∈ ks.flatMap fun k => gs.map (map (f k)), P g) ↔ ∀ g ∈ gs, Q g := by
  obtain ⟨first, hfirst⟩ := List.exists_mem_of_ne_nil ks hks
  constructor
  · intro hall g hg
    rw [← hiff first g]
    exact hall _ (List.mem_flatMap.mpr ⟨first, hfirst, List.mem_map_of_mem hg⟩)
  · intro hall copy hcopy
    obtain ⟨k, -, hcopy⟩ := List.mem_flatMap.mp hcopy
    obtain ⟨g, hg, rfl⟩ := List.mem_map.mp hcopy
    exact (hiff k g).mpr (hall g hg)

theorem gatherable_copies_iff {ι : Type} {ks : List ι} (hks : ks ≠ [])
    {f : ι → Vertex α → Vertex β} {gs : List (Geometry α)} :
    Gatherable (ks.flatMap fun k => gs.map (map (f k))) ↔ Gatherable gs := by
  simp only [Gatherable, AreLines, ArePoints, exists_eq_map_iff]
  rw [forall_mem_copies hks fun _ _ => map_mem_range_line,
    forall_mem_copies hks fun _ _ => map_mem_range_point,
    forall_mem_copies hks fun _ g => by rw [isEmpty_map]]

theorem gatherable_map_iff {f : Vertex α → Vertex β} {gs : List (Geometry α)} :
    Gatherable (gs.map (map f)) ↔ Gatherable gs := by
  simp only [Gatherable, areLines_map_iff, arePoints_map_iff, List.forall_mem_map, isEmpty_map]

theorem multiPolygon_map (f : Vertex α → Vertex β) (members : List (List (List (Vertex α)))) :
    multiPolygon (members.map (·.map (·.map f))) = (multiPolygon members).map f := by
  rw [multiPolygon, multiPolygon, map, List.filter_map]
  simp only [Function.comp_def, isEmptyPolygon_map]

/-- Gathering looks at no vertex. -/
theorem collect_map {f : Vertex α → Vertex β} {gs : List (Geometry α)} {g : Geometry α}
    (hg : collect (gs.map some) = .ok g) :
    collect ((gs.map (map f)).map some) = .ok (g.map f) := by
  have hmap := partsAll_map f gs
  rcases collect_cases (gs.map some) with ⟨hflat, hok⟩ | ⟨members, hne, hflat, hok⟩ |
    ⟨members, hne, hflat, hok⟩ | ⟨members, hne, hflat, hok⟩ | ⟨hpolygons, hlines, hpoints, hok⟩
  · rw [hflat] at hmap
    rw [Except.ok.inj (hg.symm.trans hok), collect, hmap]
    rfl
  · have hmoved : partsAll ((gs.map (map f)).map some) =
        (members.map (·.map (·.map f))).map polygon := by
      rw [hmap, hflat, List.map_map, List.map_map]
      rfl
    rw [collect_of_polygons hmoved (by simpa using hne), Except.ok.inj (hg.symm.trans hok),
      multiPolygon_map]
  · have hmoved : partsAll ((gs.map (map f)).map some) = (members.map (·.map f)).map line := by
      rw [hmap, hflat, List.map_map, List.map_map]
      rfl
    obtain ⟨hparts, rfl⟩ := multiLine_eq_ok.mp (hok.symm.trans hg)
    rw [collect_of_lines hmoved (by simpa using hne), multiLine_eq_ok, map]
    exact ⟨by simpa using hparts, rfl⟩
  · have hmoved : partsAll ((gs.map (map f)).map some) =
        (members.map (·.map f)).map point := by
      rw [hmap, hflat, List.map_map, List.map_map]
      rfl
    obtain ⟨hparts, rfl⟩ := multiPoint_eq_ok.mp (hok.symm.trans hg)
    rw [collect_of_points hmoved (by simpa using hne), multiPoint_eq_ok, map]
    exact ⟨by simpa using hparts, rfl⟩
  · rw [Except.ok.inj (hg.symm.trans hok), map, mapAll_eq, ← hmap]
    apply collect_of_mixed <;> rw [hmap]
    · rwa [arePolygons_map_iff]
    · rwa [areLines_map_iff]
    · rwa [arePoints_map_iff]

end Geometry

end Antimeridian
