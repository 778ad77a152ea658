import Antimeridian.Proofs.Envelope.Offsets
import Antimeridian.Proofs.Geometry.Gathering
import Antimeridian.Proofs.Rendering.Outcome
import Antimeridian.Proofs.Rendering.Request

/-!
# Copies by whole periods

A rendered geometry appears once for every whole period, up to the cap, that moves its bounds to
where they strictly overlap the rendering area. What is replicated paints, between the edges of
that area, all the moves of the geometry up to the cap.

Moving a geometry needs heights on all of its vertices or on none: otherwise those without one
are lost, and there is no copy of the whole geometry.
-/

namespace Antimeridian

/-- Whether all vertices of a geometry have heights, or none has. -/
def Geometry.HasEvenHeights {α : Type} (g : Geometry α) : Prop :=
  (∀ v ∈ g.vertices, v.z = none) ∨ ∀ v ∈ g.vertices, v.z ≠ none

namespace Rendering

open Antimeridian.Geometry

/-! ## Moving -/

section Moving

theorem all_heights_iff {α : Type} {g : Geometry α} :
    (g.vertices.all (·.z.isNone) || g.vertices.all (·.z.isSome)) = true ↔ g.HasEvenHeights := by
  simp only [Bool.or_eq_true, List.all_eq_true, Option.isNone_iff_eq_none,
    Option.isSome_iff_ne_none]
  rfl

theorem hasEvenHeights_finite {K : Type} {g : Geometry K} :
    g.finite.HasEvenHeights ↔ g.HasEvenHeights := by
  simp [HasEvenHeights]

theorem moved_eq_shift {α : Type} [Scalar α] {g : Geometry α} (heven : g.HasEvenHeights) (dx : α) :
    moved g dx = .ok (g.shift dx) := by
  rw [moved, if_pos (all_heights_iff.mpr heven)]

variable {K : Type} [Field K] [LinearOrder K] [FloorRing K]

theorem shift_finite_zero (g : Geometry (Extended K)) : g.shift (.finite 0) = g := by
  refine (map_congr fun v _ => ?_).trans g.map_id
  rw [Vertex.shift, Extended.add_finite_zero, id_eq]

/-- Of a geometry with uneven heights, a vertex is lost wherever moving succeeds. -/
theorem exists_lost_of_moved {g copy : Geometry (Extended K)} (huneven : ¬g.HasEvenHeights)
    {dx : Extended K} (hcopy : moved g dx = .ok copy) : ∃ v ∈ copy.vertices, v.x = .missing := by
  have hall := all_heights_iff.not.mpr huneven
  rw [HasEvenHeights, not_or] at huneven
  obtain ⟨v, hv, hz⟩ : ∃ v ∈ g.vertices, v.z = none := by simpa using huneven.2
  rw [moved, if_neg hall] at hcopy
  split at hcopy
  · contradiction
  · refine ⟨shiftAmongHeights dx v, ?_, ?_⟩
    · rw [← Except.ok.inj hcopy, vertices_map]
      exact List.mem_map_of_mem hv
    · rw [shiftAmongHeights, hz]
      rfl

theorem copyAt_eq_shift {g : Geometry (Extended K)} (heven : g.HasEvenHeights) (radius : K)
    (k : Int) : copyAt (.finite radius) g k = .ok (g.shift (.finite (2 * radius * k))) := by
  rw [copyAt]
  split
  next hzero => simp [hzero, shift_finite_zero]
  next =>
    rw [Extended.ofInt_eq, Extended.ofNat_eq, Extended.finite_mul, Extended.finite_mul,
      moved_eq_shift heven, mul_comm]

theorem mapM_copyAt_eq_shift {g : Geometry (Extended K)} (heven : g.HasEvenHeights) (radius : K)
    (ks : List Int) :
    ks.mapM (copyAt (.finite radius) g) =
      .ok (ks.map fun (k : Int) => g.shift (.finite (2 * radius * k))) := by
  rw [funext (copyAt_eq_shift heven radius)]
  exact List.mapM_pure

theorem mapM_copyAt_of_even {g : Geometry K} (heven : g.HasEvenHeights) (radius : K)
    (ks : List Int) :
    ks.mapM (copyAt (.finite radius) g.finite) =
      .ok ((ks.map fun (k : Int) => g.translate (2 * radius * k)).map Geometry.finite) := by
  rw [mapM_copyAt_eq_shift (hasEvenHeights_finite.mpr heven), List.map_map]
  exact congrArg Except.ok (List.map_congr_left fun k _ => shift_finite g _)

/-- A copy is the geometry with its vertices replaced. -/
theorem exists_map_of_copyAt {α : Type} [Scalar α] {radius : α} {g copy : Geometry α} {k : Int}
    (hcopy : copyAt radius g k = .ok copy) : ∃ f, copy = g.map f := by
  rw [copyAt, moved] at hcopy
  split at hcopy
  · exact ⟨id, by rw [Geometry.map_id, Except.ok.inj hcopy]⟩
  · split at hcopy
    · exact ⟨_, (Except.ok.inj hcopy).symm⟩
    · split at hcopy
      · contradiction
      · exact ⟨_, (Except.ok.inj hcopy).symm⟩

end Moving

/-! ## Gathering copies -/

section Gathering

variable {α β : Type}

theorem exists_mem_of_mapM {ε : Type} {f : α → Except ε β} {as : List α} {bs : List β}
    (hok : as.mapM f = .ok bs) : ∀ a ∈ as, ∃ b ∈ bs, f a = .ok b :=
  exists_mem_of_forall₂ (forall₂_of_mapM hok)

/-- Copies made one geometry; a single copy stays as it is. -/
def gathered (copies : List (Geometry α)) : Except (Failure α) (Geometry α) :=
  match copies with
  | [copy] => .ok copy
  | _ => collect (copies.map some)

theorem gathered_of_length_ne_one {copies : List (Geometry α)} (hlength : copies.length ≠ 1) :
    gathered copies = collect (copies.map some) := by
  unfold gathered
  split
  · contradiction
  · rfl

theorem gathered_map {f : Vertex α → Vertex β} {copies : List (Geometry α)} {g : Geometry α}
    (hg : gathered copies = .ok g) : gathered (copies.map (Geometry.map f)) = .ok (g.map f) := by
  by_cases hlength : copies.length = 1
  · obtain ⟨copy, rfl⟩ := List.length_eq_one_iff.mp hlength
    rw [← Except.ok.inj hg]
    rfl
  · rw [gathered_of_length_ne_one hlength] at hg
    rw [gathered_of_length_ne_one (by simpa using hlength)]
    exact collect_map hg

theorem exists_gathered_iff {copies : List (Geometry α)} :
    (∃ g, gathered copies = .ok g) ↔
      copies.length = 1 ∨ Gatherable (partsAll (copies.map some)) := by
  by_cases hlength : copies.length = 1
  · obtain ⟨copy, rfl⟩ := List.length_eq_one_iff.mp hlength
    exact iff_of_true ⟨copy, rfl⟩ (.inl rfl)
  · simp only [gathered_of_length_ne_one hlength, exists_collect_iff, hlength, false_or]

theorem exists_of_gathered_map {f : Vertex α → Vertex β} {copies : List (Geometry α)}
    {result : Geometry β} (hresult : gathered (copies.map (Geometry.map f)) = .ok result) :
    ∃ g, gathered copies = .ok g ∧ result = g.map f := by
  have hgatherable := exists_gathered_iff.mp ⟨result, hresult⟩
  rw [List.length_map, partsAll_map, gatherable_map_iff] at hgatherable
  obtain ⟨g, hg⟩ := exists_gathered_iff.mpr hgatherable
  exact ⟨g, hg, Except.ok.inj (hresult.symm.trans (gathered_map hg))⟩

/-- Gathering loses no part that is not empty. -/
theorem occupied_gathered {copies : List (Geometry α)} {g : Geometry α}
    (hg : gathered copies = .ok g) : g.occupied = copies.flatMap occupied := by
  by_cases hlength : copies.length = 1
  · obtain ⟨copy, rfl⟩ := List.length_eq_one_iff.mp hlength
    simp [← Except.ok.inj hg]
  · rw [gathered_of_length_ne_one hlength] at hg
    rw [occupied_collect hg, filter_partsAll]

theorem mem_painted_gathered {K : Type} [Field K] [LinearOrder K] {copies : List (Geometry K)}
    {g : Geometry K} (hg : gathered copies = .ok g) {p : K × K} :
    p ∈ g.painted ↔ ∃ copy ∈ copies, p ∈ copy.painted := by
  rw [mem_painted_iff_occupied, occupied_gathered hg]
  constructor
  · rintro ⟨part, hpart, hp⟩
    obtain ⟨copy, hcopy, hpart⟩ := List.mem_flatMap.mp hpart
    exact ⟨copy, hcopy, mem_painted_iff_occupied.mpr ⟨part, hpart, hp⟩⟩
  · rintro ⟨copy, hcopy, hp⟩
    obtain ⟨part, hpart, hp⟩ := mem_painted_iff_occupied.mp hp
    exact ⟨part, List.mem_flatMap.mpr ⟨copy, hcopy, hpart⟩, hp⟩

theorem mem_vertices_gathered {copies : List (Geometry α)} {g : Geometry α}
    (hg : gathered copies = .ok g) {copy : Geometry α} (hcopy : copy ∈ copies)
    (hempty : ∀ part ∈ copy.parts, part.isEmpty = true → part.vertices = [])
    {v : Vertex α} (hv : v ∈ copy.vertices) : v ∈ g.vertices := by
  rw [mem_vertices_iff_parts] at hv ⊢
  obtain ⟨part, hpart, hv⟩ := hv
  have hsome : part.isEmpty = false := by
    by_contra hnot
    rw [hempty part hpart (Bool.eq_true_of_not_eq_false hnot)] at hv
    contradiction
  have hmem : part ∈ g.occupied := by
    rw [occupied_gathered hg, List.mem_flatMap]
    exact ⟨copy, hcopy, mem_occupied.mpr ⟨hpart, hsome⟩⟩
  exact ⟨part, (mem_occupied.mp hmem).1, hv⟩

theorem parts_gathered {copies : List (Geometry α)} {g : Geometry α} (hg : gathered copies = .ok g)
    (hparts : ∀ copy ∈ copies, ∀ part ∈ copy.parts, part.isEmpty = false) :
    g.parts = copies.flatMap parts := by
  by_cases hlength : copies.length = 1
  · obtain ⟨copy, rfl⟩ := List.length_eq_one_iff.mp hlength
    simp [← Except.ok.inj hg]
  · rw [gathered_of_length_ne_one hlength] at hg
    have hocc : (partsAll (copies.map some)).filter (fun part => !part.isEmpty) =
        partsAll (copies.map some) := by
      rw [List.filter_eq_self, partsAll_map_some hparts]
      intro part hpart
      obtain ⟨copy, hcopy, hpart⟩ := List.mem_flatMap.mp hpart
      rw [hparts copy hcopy part hpart, Bool.not_false]
    rcases parts_collect hg with heq | heq
    · rw [heq, partsAll_map_some hparts]
    · rw [heq, hocc, partsAll_map_some hparts]

end Gathering

/-! ## Visible places -/

section Places

/-- Of an area, only its western and eastern edge matter. -/
theorem visibleOffsets_congr {α : Type} [Scalar α] {area area' : Envelope α}
    (hwest : area'.minx = area.minx) (heast : area'.maxx = area.maxx) :
    visibleOffsets area' = visibleOffsets area := by
  unfold visibleOffsets
  rw [hwest, heast]

variable {K : Type} [Field K] [LinearOrder K]

/-- The whole periods, at most `cap` to each side, that move a range of abscissas to where it
strictly overlaps an area, nearest first. -/
structure Shows (area : Envelope K) (radius : K) (cap : Int) (west east : K) (ks : List Int) :
    Prop where
  nearest : ks.Pairwise Envelope.Nearer
  mem_iff : ∀ k, k ∈ ks ↔
    |k| ≤ cap ∧ area.minx < east + 2 * radius * k ∧ west + 2 * radius * k < area.maxx

variable [FloorRing K] [IsStrictOrderedRing K] {area : Envelope K} {radius : K} {cap : Int}
  {west east : K} {ks : List Int}

theorem exists_visibleOffsets (hpos : 0 < radius) :
    ∃ ks, visibleOffsets area.finite (.finite radius) cap (.finite west) (.finite east) = .ok ks ∧
      Shows area radius cap west east ks := by
  have hperiod : 0 < 2 * radius := by positivity
  refine ⟨_, ?_, Envelope.pairwise_offsets (max (⌊(area.minx - east) / (2 * radius)⌋ + 1) (-cap))
    (min (⌈(area.maxx - west) / (2 * radius)⌉ - 1) cap), fun k => ?_⟩
  · simp only [visibleOffsets, Envelope.finite_minx, Envelope.finite_maxx, Extended.ofNat_eq,
      Extended.finite_mul, Extended.finite_sub, Extended.finite_div _ hperiod.ne',
      Extended.integral_floor_finite, Extended.integral_ceil_finite]
    rfl
  · have hlow : ⌊(area.minx - east) / (2 * radius)⌋ + 1 ≤ k ↔
        area.minx < east + 2 * radius * k := by
      rw [Int.add_one_le_iff, Int.floor_lt, div_lt_iff₀ hperiod, sub_lt_iff_lt_add', mul_comm]
    have hhigh : k ≤ ⌈(area.maxx - west) / (2 * radius)⌉ - 1 ↔
        west + 2 * radius * k < area.maxx := by
      rw [Int.le_sub_one_iff, Int.lt_ceil, lt_div_iff₀ hperiod, lt_sub_iff_add_lt', mul_comm]
    rw [Envelope.mem_offsets, max_le_iff, le_min_iff, hlow, hhigh, abs_le]
    tauto

omit [IsStrictOrderedRing K] in
/-- The shortcut is taken only in an area whose edges are numbers. -/
theorem exists_edges_of_visibleOnce {area : Envelope (Extended K)}
    (honce : visibleOnce area (.finite radius) (.finite west) (.finite east) = true) :
    ∃ low high, area.minx = .finite low ∧ area.maxx = .finite high := by
  simp only [visibleOnce, Extended.ofNat_eq, Extended.finite_mul, Extended.finite_sub,
    Extended.finite_add, Bool.and_eq_true, decide_eq_true_eq] at honce
  obtain ⟨⟨⟨⟨-, hwest⟩, heast⟩, hwest'⟩, heast'⟩ := honce
  obtain ⟨low, hlow⟩ := Extended.exists_eq_finite_of_lt_of_le hwest' hwest
  obtain ⟨high, hhigh⟩ := Extended.exists_eq_finite_of_le_of_lt heast heast'
  exact ⟨low, high, hlow, hhigh⟩

omit [FloorRing K] [IsStrictOrderedRing K] in
theorem Shows.eq {js : List Int} (hjs : Shows area radius cap west east js)
    (hks : Shows area radius cap west east ks) : js = ks :=
  Envelope.eq_of_pairwise_nearer hjs.nearest hks.nearest fun k => by rw [hjs.mem_iff, hks.mem_iff]

omit [FloorRing K] [IsStrictOrderedRing K] in
/-- Where a geometry is visible in no other place, at most its own place remains. -/
theorem Shows.eq_nil_or_eq_zero (hks : Shows area radius cap west east ks)
    (hall : ∀ k ∈ ks, k = 0) : ks = [] ∨ ks = [0] := by
  cases ks with
  | nil => exact .inl rfl
  | cons k rest =>
      have hk := hall k List.mem_cons_self
      subst hk
      cases rest with
      | nil => exact .inr rfl
      | cons j rest =>
          have hnear := List.rel_of_pairwise_cons hks.nearest (List.mem_cons_self)
          rw [hall j (List.mem_cons_of_mem _ List.mem_cons_self)] at hnear
          exact (Envelope.Nearer.irrefl 0 hnear).elim

/-- The shortcut is taken only where no other place is visible. -/
theorem Shows.eq_zero_of_visibleOnce (hks : Shows area radius cap west east ks) (hpos : 0 < radius)
    (honce : visibleOnce area.finite (.finite radius) (.finite west) (.finite east) = true) :
    ∀ k ∈ ks, k = 0 := by
  simp only [visibleOnce, Envelope.finite_minx, Envelope.finite_maxx, Extended.ofNat_eq,
    Extended.finite_mul, Extended.finite_sub, Extended.finite_add, Extended.finite_lt_finite,
    Extended.finite_le_finite, Bool.and_eq_true, decide_eq_true_eq] at honce
  obtain ⟨⟨-, hwest⟩, heast⟩ := honce
  intro k hk
  obtain ⟨-, hlow, hhigh⟩ := (hks.mem_iff k).mp hk
  rcases lt_trichotomy k 0 with hneg | hzero | hposk
  · have hle : (k : K) ≤ -1 := by exact_mod_cast Int.le_sub_one_of_lt hneg
    nlinarith
  · exact hzero
  · have hge : (1 : K) ≤ k := by exact_mod_cast hposk
    nlinarith

end Places

/-! ## Replicating -/

theorem outcome_replicate {α : Type} [Scalar α] {r : Rendering α} {cycle : Cycle α}
    {minx maxx : α} {offsets : List Int}
    (hoffsets : visibleOffsets r.area cycle.radius r.cap minx maxx = .ok offsets)
    (current : Revision α) (g : Geometry α) (s : State α) :
    (r.replicate cycle current g minx maxx).outcome s =
      if offsets = [] ∨ offsets = [0] then (.ok current, s)
      else
        match offsets.mapM (copyAt cycle.radius (current.applyTo g)) with
        | .error failure => (.error failure, s)
        | .ok copies =>
          (.replaced <$> gathered copies,
            { s with copiesMade := s.copiesMade + (copies.length - 1) }) := by
  unfold replicate
  simp only [Action.outcome_bind, Action.outcome_lift, hoffsets, Bool.or_eq_true,
    decide_eq_true_eq]
  split
  · rfl
  · simp only [Action.outcome_bind, Action.outcome_lift]
    cases offsets.mapM (copyAt cycle.radius (current.applyTo g)) with
    | error failure => rfl
    | ok copies =>
        simp only [Action.outcome_modify]
        by_cases hlength : copies.length = 1
        · obtain ⟨copy, rfl⟩ := List.length_eq_one_iff.mp hlength
          rfl
        · rw [gathered_of_length_ne_one hlength]
          split
          · contradiction
          · rw [Action.outcome_bind, Action.outcome_lift]
            cases collect (copies.map some) <;> rfl

section Replicating

variable {K : Type} [Field K] [LinearOrder K] [FloorRing K]

/-- Whether a geometry can be copied to some places: what has to be moved needs heights on all
vertices or on none, and what has to be gathered needs parts that can be. -/
structure Copyable (g : Geometry K) (ks : List Int) : Prop where
  even : g.HasEvenHeights ∨ ∀ k ∈ ks, k = 0
  gatherable : ks.length ≤ 1 ∨ Gatherable g.parts

omit [Field K] [LinearOrder K] [FloorRing K] in
theorem exists_gathered_copies_iff {α : Type} {g : Geometry K} (hne : g.isEmpty = false)
    {ks : List Int} (hks : ks ≠ []) {f : Int → Vertex K → Vertex α} :
    (∃ h, gathered (ks.map fun k => g.map (f k)) = .ok h) ↔
      ks.length ≤ 1 ∨ Gatherable g.parts := by
  have hparts : partsAll ((ks.map fun k => g.map (f k)).map some) =
      ks.flatMap fun k => g.parts.map (Geometry.map (f k)) := by
    rw [partsAll, List.map_map, List.flatMap_map]
    simp [hne]
  have hlength : (ks.map fun k => g.map (f k)).length = 1 ↔ ks.length ≤ 1 := by
    rw [List.length_map]
    have hpos := List.length_pos_iff.mpr hks
    omega
  rw [exists_gathered_iff, hparts, hlength, gatherable_copies_iff hks]

variable {r : Rendering (Extended K)} {cycle : Cycle (Extended K)} {area : Envelope K} {radius : K}
  {g₀ : Geometry (Extended K)} {current : Revision (Extended K)} {g : Geometry K}
  {minx maxx : Extended K} {cap : Int} {west east : K} {ks : List Int}

theorem exists_replicate (hcurrent : current.applyTo g₀ = g.finite) (hne : g.isEmpty = false)
    (hradius : cycle.radius = .finite radius)
    (hoffsets : visibleOffsets r.area cycle.radius r.cap minx maxx = .ok ks)
    (hshows : Shows area radius cap west east ks) (hcopyable : Copyable g ks)
    (s : State (Extended K)) :
    ∃ rev s' h, (r.replicate cycle current g₀ minx maxx).outcome s = (.ok rev, s') ∧
      rev.applyTo g₀ = h.finite ∧ ((∀ k ∈ ks, k = 0) → rev = current ∧ h = g) ∧
      (ks ≠ [] → gathered (ks.map fun (k : Int) => g.translate (2 * radius * k)) = .ok h) := by
  rw [outcome_replicate hoffsets]
  split
  next hstays =>
    refine ⟨current, s, g, rfl, hcurrent, fun _ => ⟨rfl, rfl⟩, fun hks => ?_⟩
    rw [hstays.resolve_left hks]
    simp [gathered]
  next hmoves =>
    have hnot : ¬∀ k ∈ ks, k = 0 := fun hall => hmoves (hshows.eq_nil_or_eq_zero hall)
    have hks : ks ≠ [] := fun hnil => hmoves (.inl hnil)
    obtain ⟨h, hh⟩ := (exists_gathered_copies_iff hne hks).mpr hcopyable.gatherable
    rw [hcurrent, hradius, mapM_copyAt_of_even (hcopyable.even.resolve_right hnot)]
    refine ⟨.replaced h.finite, { s with copiesMade := s.copiesMade + (ks.length - 1) }, h, ?_,
      rfl, fun hall => (hnot hall).elim, fun _ => hh⟩
    have hgathered := gathered_map (f := Vertex.finite) hh
    simp only [List.length_map]
    exact congrArg (fun result => (Revision.replaced <$> result, _)) hgathered

/-- Copies without lost vertices, away from a geometry's own place, are copies of one with even
heights. -/
theorem even_of_copies {whole : Geometry (Extended K)}
    (hshells : ∀ part ∈ whole.parts, part.isEmpty = true → part.vertices = [])
    {copies : List (Geometry (Extended K))} {radius : Extended K}
    (hcopies : ks.mapM (copyAt radius whole) = .ok copies) {k : Int} (hk : k ∈ ks)
    (hzero : k ≠ 0) {result : Geometry (Extended K)} (hgathered : gathered copies = .ok result)
    (hkept : ∀ v ∈ result.vertices, v.x ≠ .missing) : whole.HasEvenHeights := by
  -- a vertex that is lost in the copy is still among those that are gathered
  by_contra huneven
  obtain ⟨copy, hcopy, hok⟩ := exists_mem_of_mapM hcopies k hk
  obtain ⟨f, hf⟩ := exists_map_of_copyAt hok
  rw [copyAt, if_neg hzero] at hok
  obtain ⟨v, hv, hlost⟩ := exists_lost_of_moved huneven hok
  refine hkept v (mem_vertices_gathered hgathered hcopy (fun part hpart hempty => ?_) hv) hlost
  rw [hf, parts_map] at hpart
  obtain ⟨own, hown, rfl⟩ := List.mem_map.mp hpart
  rw [vertices_map, hshells own hown (by simpa using hempty), List.map_nil]

/-- What can be made of a geometry without losing vertices is made of one that can be copied. -/
theorem copyable_of_replicate (hcurrent : current.applyTo g₀ = g.finite) (hne : g.isEmpty = false)
    (hshells : ∀ part ∈ g.parts, part.isEmpty = true → part.vertices = [])
    (hradius : cycle.radius = .finite radius)
    (hoffsets : visibleOffsets r.area cycle.radius r.cap minx maxx = .ok ks)
    (hshows : Shows area radius cap west east ks)
    {s s' : State (Extended K)} {rev : Revision (Extended K)}
    (hrev : (r.replicate cycle current g₀ minx maxx).outcome s = (.ok rev, s'))
    {h : Geometry K} (hh : rev.applyTo g₀ = h.finite) : Copyable g ks := by
  rw [outcome_replicate hoffsets, hcurrent, hradius] at hrev
  split at hrev
  next hstays => rcases hstays with rfl | rfl <;> exact ⟨.inr (by simp), .inl (by simp)⟩
  next hmoves =>
    cases hcopies : ks.mapM (copyAt (.finite radius) g.finite) with
    | error failure => simp [hcopies] at hrev
    | ok copies =>
        rw [hcopies] at hrev
        cases hgathered : gathered copies with
        | error failure => simp [hgathered] at hrev
        | ok result =>
            simp only [hgathered, Prod.mk.injEq] at hrev
            have hresult : result = h.finite := by
              rw [← hh, ← Except.ok.inj hrev.1]
              rfl
            have hnot : ¬∀ k ∈ ks, k = 0 := fun hall => hmoves (hshows.eq_nil_or_eq_zero hall)
            push Not at hnot
            obtain ⟨k, hk, hzero⟩ := hnot
            have hown : ∀ part ∈ g.finite.parts, part.isEmpty = true → part.vertices = [] := by
              rw [parts_finite, List.forall_mem_map]
              intro part hpart hempty
              rw [vertices_finite, hshells part hpart (by simpa using hempty), List.map_nil]
            have hkept : ∀ v ∈ result.vertices, v.x ≠ .missing := by
              rw [hresult, vertices_finite, List.forall_mem_map]
              simp
            have heven := hasEvenHeights_finite.mp
              (even_of_copies hown hcopies hk hzero hgathered hkept)
            refine ⟨.inl heven, ?_⟩
            rw [mapM_copyAt_of_even heven] at hcopies
            rw [← Except.ok.inj hcopies] at hgathered
            obtain ⟨made, hmade, -⟩ := exists_of_gathered_map hgathered
            exact (exists_gathered_copies_iff hne fun hnil => hmoves (.inl hnil)).mp ⟨made, hmade⟩

/-- Whether copies of a geometry are made at some places without a failure, lost vertices aside:
rings that are moved have to stay closed, and what is gathered needs parts that can be. -/
def Replicable (g : Geometry K) (ks : List Int) : Prop :=
  (∀ k ∈ ks, k = 0) ∨
    (g.HasEvenHeights ∨ g.hasFlatRing = false) ∧ (ks.length ≤ 1 ∨ Gatherable g.parts)

omit [Field K] [LinearOrder K] [FloorRing K] in
theorem Copyable.replicable (hcopyable : Copyable g ks) : Replicable g ks := by
  rcases hcopyable.even with heven | hstays
  · exact .inr ⟨.inl heven, hcopyable.gatherable⟩
  · exact .inl hstays

/-- Away from its own place, a copy of a geometry is made if its rings stay closed. -/
theorem exists_copyAt_iff (radius : K) {k : Int} (hzero : k ≠ 0) :
    (∃ copy, copyAt (.finite radius) g.finite k = .ok copy) ↔
      g.HasEvenHeights ∨ g.hasFlatRing = false := by
  have hflat : g.finite.hasFlatRing = g.hasFlatRing :=
    hasFlatRing_map (fun v => Option.isNone_map) g
  by_cases heven : g.HasEvenHeights
  · exact iff_of_true ⟨_, copyAt_eq_shift (hasEvenHeights_finite.mpr heven) radius k⟩ (.inl heven)
  · have huneven := all_heights_iff.not.mpr (hasEvenHeights_finite.not.mpr heven)
    rw [copyAt, if_neg hzero, moved, if_neg huneven, hflat]
    cases g.hasFlatRing with
    | true => simp [heven]
    | false => exact iff_of_true ⟨_, rfl⟩ (.inr rfl)

/-- Replication fails only where copies cannot be made. -/
theorem exists_outcome_replicate_iff (hcurrent : current.applyTo g₀ = g.finite)
    (hne : g.isEmpty = false) (hradius : cycle.radius = .finite radius)
    (hoffsets : visibleOffsets r.area cycle.radius r.cap minx maxx = .ok ks)
    (hshows : Shows area radius cap west east ks) (s : State (Extended K)) :
    (∃ rev s', (r.replicate cycle current g₀ minx maxx).outcome s = (.ok rev, s')) ↔
      Replicable g ks := by
  rw [outcome_replicate hoffsets, hcurrent, hradius]
  split
  next hstays =>
    refine iff_of_true ⟨current, s, rfl⟩ (.inl ?_)
    rcases hstays with rfl | rfl <;> simp
  next hmoves =>
    have hnot : ¬∀ k ∈ ks, k = 0 := fun hall => hmoves (hshows.eq_nil_or_eq_zero hall)
    have hks : ks ≠ [] := fun hnil => hmoves (.inl hnil)
    rw [Replicable, or_iff_right hnot]
    by_cases hclosed : g.HasEvenHeights ∨ g.hasFlatRing = false
    · have hcopies (k : Int) : ∃ f, copyAt (.finite radius) g.finite k = .ok (g.map f) := by
        by_cases hzero : k = 0
        · exact ⟨Vertex.finite, if_pos hzero⟩
        · obtain ⟨copy, hcopy⟩ := (exists_copyAt_iff radius hzero).mpr hclosed
          obtain ⟨f, rfl⟩ := exists_map_of_copyAt hcopy
          exact ⟨_, hcopy.trans (congrArg _ (map_map f Vertex.finite g))⟩
      choose f hf using hcopies
      have hmade : ks.mapM (copyAt (.finite radius) g.finite) =
          .ok (ks.map fun k => g.map (f k)) := by
        rw [funext hf]
        exact List.mapM_pure
      rw [hmade, and_iff_right hclosed, ← exists_gathered_copies_iff hne hks]
      simp only
      cases gathered (ks.map fun k => g.map (f k)) with
      | error failure => simp
      | ok made => exact iff_of_true ⟨_, _, rfl⟩ ⟨made, rfl⟩
    · refine iff_of_false ?_ fun hboth => hclosed hboth.1
      push Not at hnot
      obtain ⟨k, hk, hzero⟩ := hnot
      cases hcopies : ks.mapM (copyAt (.finite radius) g.finite) with
      | error failure => simp
      | ok copies =>
          obtain ⟨copy, -, hcopy⟩ := exists_mem_of_mapM hcopies k hk
          exact (hclosed ((exists_copyAt_iff radius hzero).mp ⟨copy, hcopy⟩)).elim

/-- Whatever is made of a geometry with even heights is gathered from copies of it. -/
theorem exists_gathered_of_replicate (hcurrent : current.applyTo g₀ = g.finite)
    (heven : g.HasEvenHeights) (hradius : cycle.radius = .finite radius)
    (hoffsets : visibleOffsets r.area cycle.radius r.cap minx maxx = .ok ks)
    {s s' : State (Extended K)} {rev : Revision (Extended K)}
    (hrev : (r.replicate cycle current g₀ minx maxx).outcome s = (.ok rev, s')) :
    ∃ h : Geometry K, ∃ js : List Int, rev.applyTo g₀ = h.finite ∧ js ≠ [] ∧
      gathered (js.map fun (k : Int) => g.translate (2 * radius * k)) = .ok h := by
  rw [outcome_replicate hoffsets, hcurrent, hradius, mapM_copyAt_of_even heven] at hrev
  split at hrev
  next hstays =>
    cases hrev
    exact ⟨g, [0], hcurrent, by simp, by simp [gathered]⟩
  next hmoves =>
    have hmade := (Prod.mk.inj hrev).1
    cases hgathered : gathered
        ((ks.map fun (k : Int) => g.translate (2 * radius * k)).map Geometry.finite) with
    | error failure =>
        rw [hgathered] at hmade
        cases hmade
    | ok result =>
        rw [hgathered] at hmade
        cases hmade
        obtain ⟨h, hh, hresult⟩ := exists_of_gathered_map hgathered
        exact ⟨h, ks, hresult, fun hnil => hmoves (.inl hnil), hh⟩

omit [FloorRing K] in
variable [IsStrictOrderedRing K] in
/-- Between the edges of an area, the copies of a geometry that are visible paint what all of its
moves up to the cap paint. -/
theorem mem_painted_copies (hshows : Shows area radius cap g.west g.east ks) (hcap : 0 ≤ cap)
    {h : Geometry K} (hkept : ks = [] → h = g)
    (hgathered : ks ≠ [] → gathered (ks.map fun (k : Int) => g.translate (2 * radius * k)) = .ok h)
    {p : K × K} (hwest : area.minx < p.1) (heast : p.1 < area.maxx) :
    p ∈ h.painted ↔ ∃ k : Int, |k| ≤ cap ∧ (p.1 - 2 * radius * k, p.2) ∈ g.painted := by
  have hshown {k : Int} (hk : |k| ≤ cap) (hp : (p.1 - 2 * radius * k, p.2) ∈ g.painted) :
      k ∈ ks := by
    obtain ⟨⟨hlow, hhigh⟩, -⟩ := mem_bounds_of_mem_painted hp
    exact (hshows.mem_iff k).mpr ⟨hk, by linarith, by linarith⟩
  by_cases hks : ks = []
  · rw [hkept hks]
    have hnone {k : Int} (hk : |k| ≤ cap) : (p.1 - 2 * radius * k, p.2) ∉ g.painted := fun hp => by
      simpa [hks] using hshown hk hp
    refine iff_of_false (fun hp => hnone (k := 0) (by simpa) (by simpa using hp)) ?_
    rintro ⟨k, hk, hp⟩
    exact hnone hk hp
  · rw [mem_painted_gathered (hgathered hks)]
    simp only [List.mem_map, exists_exists_and_eq_and, mem_painted_translate]
    constructor
    · rintro ⟨k, hk, hp⟩
      exact ⟨k, ((hshows.mem_iff k).mp hk).1, hp⟩
    · rintro ⟨k, hk, hp⟩
      exact ⟨k, hshown hk hp, hp⟩

end Replicating

/-! ## Processing rendered geometries -/

section Processing

variable {K : Type} [Field K] [LinearOrder K] [FloorRing K] [IsStrictOrderedRing K]

variable {setting : Setting (Extended K)} {r : Rendering (Extended K)} {cycle : Cycle (Extended K)}
  {area : Envelope K} {radius : K} {transform : Option (Transform (Extended K))} {g : Geometry K}
  {ks : List Int}

theorem Repeats.exists_visibleOffsets (hr : Repeats r cycle area radius) (west east : K) :
    ∃ ks, visibleOffsets r.area cycle.radius r.cap (.finite west) (.finite east) = .ok ks ∧
      Shows area radius r.cap west east ks := by
  rw [hr.area_eq, hr.radius_eq]
  exact Rendering.exists_visibleOffsets hr.radius_pos

omit [IsStrictOrderedRing K] in
theorem outcome_postProcess_of_cycle (hcycle : r.cycle = some cycle)
    (hradius : cycle.radius = .finite radius) (hne : g.isEmpty = false) (s : State (Extended K)) :
    (r.postProcess setting transform (some g.finite)).outcome s =
      if visibleOnce r.area (.finite radius) (.finite g.west) (.finite g.east) then
        (.ok .kept, s)
      else if (∃ t ∈ transform, t.isIdentity = false) ∧
          radius < g.east - g.west ∧ g.east - g.west < 2 * radius then
        match stitch setting cycle g.finite (.finite g.west) (.finite g.east) with
        | .error failure => (.error failure, s)
        | .ok (current, west, east) => (r.replicate cycle current g.finite west east).outcome s
      else (r.replicate cycle .kept g.finite (.finite g.west) (.finite g.east)).outcome s := by
  have hcheck : checkGeometry (some g.finite) = .ok g.finite :=
    checkGeometry_some (by rwa [isEmpty_finite])
  have htorn : ((transform.map (!·.isIdentity)).getD false &&
      decide (Extended.finite radius < .finite g.east - .finite g.west) &&
      decide (Extended.finite g.east - .finite g.west < 2 * .finite radius)) = true ↔
      (∃ t ∈ transform, t.isIdentity = false) ∧
        radius < g.east - g.west ∧ g.east - g.west < 2 * radius := by
    cases transform <;> simp [and_assoc]
  unfold postProcess
  simp only [Action.outcome_bind, Action.outcome_lift, hcheck, hcycle, bounds?_finite hne, hradius]
  split
  · rfl
  · simp only [htorn]
    split
    · rw [Action.outcome_bind, Action.outcome_lift]
      cases stitch setting cycle g.finite (.finite g.west) (.finite g.east) <;> rfl
    · rfl

omit [IsStrictOrderedRing K] in
theorem outcome_postProcess (hr : Repeats r cycle area radius) (hne : g.isEmpty = false)
    (s : State (Extended K)) :
    (r.postProcess setting transform (some g.finite)).outcome s =
      if visibleOnce area.finite (.finite radius) (.finite g.west) (.finite g.east) then
        (.ok .kept, s)
      else if (∃ t ∈ transform, t.isIdentity = false) ∧
          radius < g.east - g.west ∧ g.east - g.west < 2 * radius then
        match stitch setting cycle g.finite (.finite g.west) (.finite g.east) with
        | .error failure => (.error failure, s)
        | .ok (current, west, east) => (r.replicate cycle current g.finite west east).outcome s
      else (r.replicate cycle .kept g.finite (.finite g.west) (.finite g.east)).outcome s := by
  rw [outcome_postProcess_of_cycle hr.cycle_eq hr.radius_eq hne, hr.area_eq]

/-- A geometry that is not stitched is replicated as it is, the shortcut included. -/
theorem outcome_postProcess_of_whole (hr : Repeats r cycle area radius) (hne : g.isEmpty = false)
    (hwhole : (∃ t ∈ transform, t.isIdentity = false) →
      g.east - g.west ≤ radius ∨ 2 * radius ≤ g.east - g.west)
    (s : State (Extended K)) :
    (r.postProcess setting transform (some g.finite)).outcome s =
      (r.replicate cycle .kept g.finite (.finite g.west) (.finite g.east)).outcome s := by
  rw [outcome_postProcess hr hne]
  split
  next honce =>
    obtain ⟨ks, hoffsets, hshows⟩ := hr.exists_visibleOffsets g.west g.east
    have hstays := hshows.eq_nil_or_eq_zero (hshows.eq_zero_of_visibleOnce hr.radius_pos honce)
    rw [outcome_replicate hoffsets, if_pos hstays]
  next =>
    refine if_neg ?_
    rintro ⟨ht, hlow, hhigh⟩
    rcases hwhole ht with hnarrow | hwide
    · exact hlow.not_ge hnarrow
    · exact hhigh.not_ge hwide

/-- What replicating a geometry comes to: one copy of it for every whole period, up to the cap,
that moves its bounds to where they strictly overlap the area, nearest first, and the geometry
itself where there is no such period. -/
structure Replicates (area : Envelope K) (radius : K) (cap : Int) (g h : Geometry K)
    (ks : List Int) : Prop extends Shows area radius cap g.west g.east ks where
  kept : ks = [] → h = g
  alone : ∀ k : Int, ks = [k] → h = g.translate (2 * radius * k)
  parts_eq : ks ≠ [] → h.parts = ks.flatMap fun (k : Int) => (g.translate (2 * radius * k)).parts
  mem_painted : ∀ p, area.minx < p.1 → p.1 < area.maxx →
    (p ∈ h.painted ↔ ∃ k : Int, |k| ≤ cap ∧ (p.1 - 2 * radius * k, p.2) ∈ g.painted)

/-- Replication is exact where a geometry has heights on all of its vertices or on none, or is not
moved at all; any other geometry cannot be replicated. -/
theorem postProcess_replicates_iff (hr : Repeats r cycle area radius) (hne : g.isEmpty = false)
    (hparts : ∀ part ∈ g.parts, part.isEmpty = false)
    (hidentity : ∀ t ∈ transform, t.isIdentity = true) (s : State (Extended K)) :
    (∃ rev s' h ks, (r.postProcess setting transform (some g.finite)).outcome s = (.ok rev, s') ∧
      rev.applyTo g.finite = h.finite ∧ Replicates area radius r.cap g h ks ∧
      ((∀ k ∈ ks, k = 0) → rev = .kept)) ↔
    g.HasEvenHeights ∨ ∀ k : Int, |k| ≤ r.cap → area.minx < g.east + 2 * radius * k →
      g.west + 2 * radius * k < area.maxx → k = 0 := by
  obtain ⟨ks, hoffsets, hshows⟩ := hr.exists_visibleOffsets g.west g.east
  have hmoves : (∀ k ∈ ks, k = 0) ↔ ∀ k : Int, |k| ≤ r.cap → area.minx < g.east + 2 * radius * k →
      g.west + 2 * radius * k < area.maxx → k = 0 := by
    simp only [hshows.mem_iff, and_imp]
  have hwhole : (∃ t ∈ transform, t.isIdentity = false) →
      g.east - g.west ≤ radius ∨ 2 * radius ≤ g.east - g.west := by
    rintro ⟨t, ht, hnot⟩
    simp [hidentity t ht] at hnot
  have hkept : Revision.applyTo g.finite .kept = g.finite := rfl
  rw [outcome_postProcess_of_whole hr hne hwhole, ← hmoves]
  constructor
  · rintro ⟨rev, s', h, -, hrev, hh, -⟩
    have hshells : ∀ part ∈ g.parts, part.isEmpty = true → part.vertices = [] :=
      fun part hpart hempty => by simp [hparts part hpart] at hempty
    exact (copyable_of_replicate hkept hne hshells hr.radius_eq hoffsets hshows hrev hh).even
  · intro hcond
    obtain ⟨rev, s', h, hrev, hh, hstays, hgathered⟩ := exists_replicate hkept hne hr.radius_eq
      hoffsets hshows ⟨hcond, .inr fun _ => hparts⟩ s
    refine ⟨rev, s', h, ks, hrev, hh, ⟨hshows, ?_, ?_, ?_, ?_⟩, ?_⟩
    · rintro rfl
      exact (hstays (by simp)).2
    · rintro k rfl
      exact (Except.ok.inj (hgathered (by simp))).symm
    · intro hks
      rw [parts_gathered (hgathered hks), List.flatMap_map]
      intro copy hcopy part hpart
      obtain ⟨k, -, rfl⟩ := List.mem_map.mp hcopy
      rw [Geometry.translate, parts_map] at hpart
      obtain ⟨own, hown, rfl⟩ := List.mem_map.mp hpart
      rw [isEmpty_map, hparts own hown]
    · intro p hwest heast
      exact mem_painted_copies hshows hr.cap_nonneg (fun hnil => (hstays (by simp [hnil])).2)
        hgathered hwest heast
    · exact fun hall => (hstays hall).1

end Processing

/-- A point with a height and a line without, a turn away from the area, cannot be replicated. -/
theorem not_replicates_uneven :
    let area : Envelope ℚ := ⟨-10, -10, 10, 10, none⟩
    let crs := Crs.ofFrame Crs.Registry.wgs84
    let same : Transform (Extended ℚ) :=
      .direct crs crs true ⟨fun x y => (x, y), fun _ _ => false, true⟩
    let setting : Setting (Extended ℚ) :=
      ⟨⟨fun _ _ => none⟩, ⟨fun _ => true, fun g _ => g, fun _ _ => true, fun _ _ => true⟩⟩
    let r := geographic area.finite crs crs 10 same
    let g : Geometry ℚ := .collection [.point (some ⟨355, 1, some 2⟩),
      .line [⟨355, 0, none⟩, ⟨356, 1, none⟩]]
    ¬∃ rev s' h ks, (r.postProcess setting none (some g.finite)).outcome r.start = (.ok rev, s') ∧
      rev.applyTo g.finite = h.finite ∧ Replicates area 180 10 g h ks ∧
      ((∀ k ∈ ks, k = 0) → rev = .kept) := by
  intro area crs same setting r g
  have hparts : ∀ part ∈ g.parts, part.isEmpty = false := by
    simp [g, parts, isEmpty]
  have hwest : g.west = 355 := by decide +kernel
  have heast : g.east = 356 := by decide +kernel
  refine (postProcess_replicates_iff (repeats_geographic (by norm_num)) rfl hparts (by simp)
    _).not.mpr ?_
  rintro (heven | hstays)
  · simp [g, HasEvenHeights, vertices] at heven
  · have hzero := hstays (-1) (by decide) (by norm_num [heast]) (by norm_num [hwest])
    contradiction

end Rendering

end Antimeridian
