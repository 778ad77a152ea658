import Antimeridian.Proofs.Envelope.Pieces

/-!
# What splitting keeps

Split at the antimeridian, an envelope loses none of its points that some turns move into the stored
range, and every piece after the first is a part of the envelope moved by its own number of turns.

An envelope narrower than a turn reaches the stored range with at most two successive numbers of
turns: one that moves its west edge there, and the one before, where the rest of it is left over.
So there are at most three pieces. They are apart from each other, none is left out because an
earlier one holds it, and what they cover of the stored range is as wide as the envelope.
-/

namespace Antimeridian.Envelope

variable {K : Type} [Field K] [LinearOrder K] [FloorRing K] [IsStrictOrderedRing K]
  {e : Envelope K} {k : Int} {cap : Int}

/-! ## Points and parts -/

omit [FloorRing K] in
/-- A point that some turns move into the stored range is in the part that they move there. -/
theorem mem_region_storedPart {p : K × K} (hp : p ∈ e.region) (hlow : -180 < p.1 + 360 * k)
    (hhigh : p.1 + 360 * k < 180) : (p.1 + 360 * k, p.2) ∈ (e.storedPart k).region := by
  obtain ⟨⟨hwest, heast⟩, hlevel⟩ := mem_region.mp hp
  refine mem_region.mpr ⟨⟨max_le ?_ hlow.le, le_min ?_ hhigh.le⟩, hlevel⟩
  · exact add_le_add_left hwest _
  · exact add_le_add_left heast _

omit [FloorRing K] in
theorem reaches_of_mem_region {p : K × K} (hp : p ∈ e.region) (hwidth : e.minx < e.maxx)
    (hlow : -180 < p.1 + 360 * k) (hhigh : p.1 + 360 * k < 180) : e.Reaches k := by
  obtain ⟨⟨hwest, heast⟩, -⟩ := mem_region.mp hp
  exact ⟨hwidth, by linarith, by linarith⟩

/-- A part of positive width of an envelope that has been moved by some turns, in the stored range
and at the envelope's latitudes. -/
structure IsPartAt (e : Envelope K) (k : Int) (f : Envelope K) : Prop where
  wide : f.minx < f.maxx
  stored : -180 ≤ f.minx ∧ f.maxx ≤ 180
  within : e.WithinTurn k f
  level : f.miny = e.miny ∧ f.maxy = e.maxy
  crs_eq : f.crs = e.crs

omit [FloorRing K] in
theorem Reaches.isPartAt (hreach : e.Reaches k) : e.IsPartAt k (e.storedPart k) where
  wide := storedPart_minx_lt_maxx_iff.mpr hreach
  stored := ⟨le_max_right _ _, min_le_right _ _⟩
  within := withinTurn_storedPart
  level := ⟨rfl, rfl⟩
  crs_eq := rfl

/-- Splitting loses no point and invents none: what some turns, up to the cap, move into the stored
range is in a piece, and every piece after the first is part of the envelope moved by some turns,
nearest turns first. -/
theorem splitAcrossDateline_covers_stored (hocc : e.Occupied) (hwidth : e.minx < e.maxx)
    (cap : Int) :
    ∃ pieces : List (Envelope K),
      e.finite.splitAcrossDateline cap = .ok (pieces.map finite) ∧
      (∀ p ∈ e.region, ∀ k : Int, |k| ≤ cap → -180 < p.1 + 360 * k → p.1 + 360 * k < 180 →
        ∃ f ∈ pieces, (p.1 + 360 * k, p.2) ∈ f.region) ∧
      (e.maxx - e.minx < 360 → ∃ turns later, pieces = e :: later ∧ turns.Pairwise Nearer ∧
        (∀ k ∈ turns, 0 < |k| ∧ |k| ≤ cap) ∧ List.Forall₂ e.IsPartAt turns later) := by
  rcases le_or_gt 360 (e.maxx - e.minx) with hwide | hnarrow
  · refine ⟨[e.stored], splitAcrossDateline_of_wide hocc hwide cap, ?_,
      fun hnarrow => (hwide.not_gt hnarrow).elim⟩
    intro p hp k _ hlow hhigh
    exact ⟨_, List.mem_singleton_self _, mem_region.mpr ⟨⟨hlow.le, hhigh.le⟩, (mem_region.mp hp).2⟩⟩
  · obtain ⟨turns, hnearest, hturns, hsplit⟩ := exists_splitAcrossDateline hocc hnarrow cap
    refine ⟨_, hsplit, ?_, fun _ => ⟨turns, _, rfl, hnearest, ?_, ?_⟩⟩
    · intro p hp k hcap hlow hhigh
      by_cases hzero : k = 0
      · exact ⟨e, List.mem_cons_self, by simpa [hzero] using hp⟩
      · have hturn := (hturns k).mpr ⟨hzero, hcap, reaches_of_mem_region hp hwidth hlow hhigh⟩
        exact ⟨_, List.mem_cons_of_mem _ (List.mem_map_of_mem hturn),
          mem_region_storedPart hp hlow hhigh⟩
    · intro k hk
      obtain ⟨hzero, hcap, -⟩ := (hturns k).mp hk
      exact ⟨abs_pos.mpr hzero, hcap⟩
    · rw [List.forall₂_map_right_iff, List.forall₂_same]
      exact fun k hk => ((hturns k).mp hk).2.2.isPartAt

/-- An envelope east of the stored range is found again one and two turns to the west. -/
theorem far_east_covers_stored :
    let e : Envelope ℚ := ⟨500, -10, 800, 10, none⟩
    ∃ pieces : List (Envelope ℚ),
      e.finite.splitAcrossDateline 10 = .ok (pieces.map finite) ∧
      (∃ f ∈ pieces, (-90, 0) ∈ f.region) ∧ (∃ f ∈ pieces, (150, 0) ∈ f.region) ∧
      ∃ turns later, pieces = e :: later ∧ List.Forall₂ e.IsPartAt turns later := by
  intro e
  have hocc : e.Occupied := ⟨by norm_num [e], by norm_num [e]⟩
  obtain ⟨pieces, hsplit, hcovers, hparts⟩ :=
    splitAcrossDateline_covers_stored hocc (by norm_num [e]) 10
  obtain ⟨turns, later, heq, -, -, hlater⟩ := hparts (by norm_num [e])
  have hfar := hcovers (630, 0) (by norm_num [e, mem_region]) (-2) (by norm_num) (by norm_num)
    (by norm_num)
  have hnear := hcovers (510, 0) (by norm_num [e, mem_region]) (-1) (by norm_num) (by norm_num)
    (by norm_num)
  norm_num at hfar hnear
  exact ⟨pieces, hsplit, hfar, hnear, turns, later, heq, hlater⟩

/-! ## Pieces are apart -/

/-- Whether two envelopes have no longitude in common. -/
def Apart (e f : Envelope K) : Prop := e.maxx < f.minx ∨ f.maxx < e.minx

omit [FloorRing K] in
/-- Moved by different numbers of turns, an envelope narrower than a turn leaves a gap. -/
theorem WithinTurn.apart (hnarrow : e.maxx - e.minx < 360) {j : Int} {f g : Envelope K}
    (hf : e.WithinTurn j f) (hg : e.WithinTurn k g) (hne : j ≠ k) : f.Apart g := by
  rcases lt_or_gt_of_ne hne with hlt | hgt
  · left
    have hle : (j : K) + 1 ≤ k := by exact_mod_cast hlt
    linarith [hf.2, hg.1]
  · right
    have hle : (k : K) + 1 ≤ j := by exact_mod_cast hgt
    linarith [hg.2, hf.1]

omit [FloorRing K] in
theorem pairwise_apart (hnarrow : e.maxx - e.minx < 360) {turns : List Int}
    (hnodup : (0 :: turns).Nodup) : (e :: turns.map e.storedPart).Pairwise Apart := by
  obtain ⟨hzero, hturns⟩ := List.nodup_cons.mp hnodup
  rw [List.pairwise_cons, List.pairwise_map]
  refine ⟨List.forall_mem_map.mpr fun k hk => ?_, hturns.imp fun hne => ?_⟩
  · have hown : e.WithinTurn 0 e := by simp [WithinTurn]
    exact hown.apart hnarrow withinTurn_storedPart fun heq => hzero (heq ▸ hk)
  · exact withinTurn_storedPart.apart hnarrow withinTurn_storedPart hne

/-! ## The check for earlier pieces -/

/-- Splitting without a check for pieces found earlier: the envelope, and of every turn that is
tried the part that it moves into the stored range, if that has points and is not of no width. -/
def splitUnchecked {α : Type} [Scalar α] (e : Envelope α) (cap : Int) :
    Except (Failure α) (List (Envelope α)) := do
  let turns := offsets (← e.lowestTurn cap) (← e.highestTurn cap)
  let parts := (turns.filter (· ≠ 0)).map e.candidate
  return e :: parts.filter fun part => !(part.isEmpty || part.width == 0)

theorem filter_candidates (hocc : e.Occupied) (turns : List Int) :
    ((turns.map e.finite.candidate).filter fun part => !(part.isEmpty || part.width == 0)) =
      ((turns.filter e.Reaches).map e.storedPart).map finite := by
  induction turns with
  | nil => rfl
  | cons k rest ih =>
      rw [List.map_cons]
      by_cases hreach : e.Reaches k
      · have hwidth := sub_pos.mpr (storedPart_minx_lt_maxx_iff.mpr hreach)
        rw [candidate_of_reaches hocc hreach, List.filter_cons_of_pos, List.filter_cons_of_pos, ih]
        · rfl
        · simpa using hreach
        · simp [isEmpty_finite (hreach.occupied hocc), width_finite (hreach.occupied hocc),
            hwidth.ne']
      · have hdropped := candidate_of_not_reaches hocc hreach
        rw [List.filter_cons_of_neg, List.filter_cons_of_neg, ih]
        · simpa using hreach
        · rw [Bool.not_eq_true, Bool.not_eq_false', Bool.or_eq_true]
          exact hdropped

/-- The check for pieces found earlier never leaves a part out. -/
theorem splitAcrossDateline_eq_splitUnchecked (hocc : e.Occupied)
    (hnarrow : e.maxx - e.minx < 360) (cap : Int) :
    e.finite.splitAcrossDateline cap = e.finite.splitUnchecked cap := by
  obtain ⟨turns, hnearest, hturns, hsplit⟩ := exists_splitAcrossDateline hocc hnarrow cap
  let tried := offsets (max ⌈(-180 - e.maxx) / 360⌉ (-cap)) (min ⌊(180 - e.minx) / 360⌋ cap)
  have hsame : turns = (tried.filter (· ≠ 0)).filter e.Reaches := by
    refine eq_of_pairwise_nearer hnearest (((pairwise_offsets _ _).filter _).filter _) fun k => ?_
    simp only [hturns, List.mem_filter, decide_eq_true_eq]
    constructor
    · rintro ⟨hzero, hcap, hreach⟩
      exact ⟨⟨(mem_offsets_of_reaches hreach).mpr hcap, hzero⟩, hreach⟩
    · rintro ⟨⟨htried, hzero⟩, hreach⟩
      exact ⟨hzero, (mem_offsets_of_reaches hreach).mp htried, hreach⟩
  rw [hsplit, hsame, splitUnchecked, lowestTurn_finite, highestTurn_finite]
  simp only [bind, Except.bind, pure, Except.pure, filter_candidates hocc]
  rfl

/-! ## The turns of a narrow envelope -/

/-- The number of turns that moves the west edge of an envelope into the stored range. -/
def homeTurn (e : Envelope K) : Int := -⌊(e.minx + 180) / 360⌋

theorem homeTurn_spec (e : Envelope K) :
    -180 ≤ e.minx + 360 * e.homeTurn ∧ e.minx + 360 * e.homeTurn < 180 := by
  have hturn : (0 : K) < 360 := by norm_num
  have hfloor := Int.floor_le ((e.minx + 180) / 360)
  have hceil := Int.lt_floor_add_one ((e.minx + 180) / 360)
  rw [le_div_iff₀ hturn] at hfloor
  rw [div_lt_iff₀ hturn] at hceil
  rw [homeTurn]
  push_cast
  constructor <;> linarith

/-- Only the turn that moves the west edge into the stored range, and the turn before it, move a
part there. -/
theorem Reaches.eq_homeTurn (hnarrow : e.maxx - e.minx < 360) (hreach : e.Reaches k) :
    k = e.homeTurn ∨ k = e.homeTurn - 1 := by
  obtain ⟨-, heast, hwest⟩ := hreach
  obtain ⟨hlow, hhigh⟩ := e.homeTurn_spec
  have hbelow : (k - e.homeTurn : K) < 1 := by linarith
  have habove : (-2 : K) < k - e.homeTurn := by linarith
  have hbelow' : k - e.homeTurn < 1 := by exact_mod_cast hbelow
  have habove' : -2 < k - e.homeTurn := by exact_mod_cast habove
  omega

theorem length_le_two (hnarrow : e.maxx - e.minx < 360) {turns : List Int} (hnodup : turns.Nodup)
    (hreach : ∀ k ∈ turns, e.Reaches k) : turns.length ≤ 2 := by
  have hsub : turns ⊆ [e.homeTurn, e.homeTurn - 1] := by
    intro k hk
    simpa using (hreach k hk).eq_homeTurn hnarrow
  exact (List.subperm_of_subset hnodup hsub).length_le

/-! ## Widths -/

/-- How much of the stored range of longitudes an envelope covers. -/
def storedWidth (e : Envelope K) : K := max 0 (min e.maxx 180 - max e.minx (-180))

theorem width_stored_finite (hocc : e.Occupied) :
    (e.finite.intersection e.finite.storedRange).width = .finite e.storedWidth := by
  have hstored : e.stored.Occupied := ⟨by norm_num [stored], hocc.2⟩
  rw [storedRange_finite, intersection_finite]
  by_cases hmeets : e.finite.intersects e.stored.finite = true
  · obtain ⟨⟨hwest, heast⟩, -⟩ := (intersects_finite hocc hstored).mp hmeets
    have hmeet : (e.meet e.stored).Occupied :=
      ⟨max_le (le_min hocc.1 hwest) (le_min heast hstored.1), by simpa [meet, stored] using hocc.2⟩
    rw [if_pos hmeets, width_finite hmeet, storedWidth]
    exact congrArg Extended.finite (max_eq_right (sub_nonneg.mpr hmeet.1)).symm
  · have hnone : min e.maxx 180 - max e.minx (-180) ≤ 0 := by
      rw [intersects_finite hocc hstored, and_iff_left ⟨hocc.2, hocc.2⟩, not_and_or, not_le,
        not_le] at hmeets
      rw [sub_nonpos]
      rcases hmeets with hbeyond | hshort
      · exact (min_le_right _ _).trans (hbeyond.le.trans (le_max_left _ _))
      · exact (min_le_left _ _).trans (hshort.le.trans (le_max_right _ _))
    rw [if_neg hmeets, width, isEmpty_empty, if_pos rfl, storedWidth, max_eq_left hnone,
      Extended.zero_eq]

/-- How much of the stored range an envelope covers once some turns have moved it. -/
def widthAt (e : Envelope K) (k : Int) : K := (e.move (360 * k)).storedWidth

omit [FloorRing K] [IsStrictOrderedRing K] in
theorem storedWidth_storedPart (e : Envelope K) (k : Int) :
    (e.storedPart k).storedWidth = e.widthAt k := by
  simp [storedWidth, storedPart, widthAt, move]

omit [FloorRing K] [IsStrictOrderedRing K] in
theorem storedWidth_eq_widthAt_zero (e : Envelope K) : e.storedWidth = e.widthAt 0 := by
  simp [widthAt, move]

omit [FloorRing K] [IsStrictOrderedRing K] in
theorem widthAt_nonneg (e : Envelope K) (k : Int) : 0 ≤ e.widthAt k := le_max_left _ _

omit [FloorRing K] in
theorem widthAt_pos_iff : 0 < e.widthAt k ↔ e.Reaches k := by
  rw [← storedPart_minx_lt_maxx_iff, widthAt, storedWidth, lt_max_iff, sub_pos]
  exact or_iff_right (lt_irrefl 0)

/-- What the home turn and the one before it move into the stored range is as wide as the
envelope. -/
theorem widthAt_homeTurn (hwidth : e.minx < e.maxx) (hnarrow : e.maxx - e.minx < 360) :
    e.widthAt e.homeTurn + e.widthAt (e.homeTurn - 1) = e.maxx - e.minx := by
  obtain ⟨hlow, hhigh⟩ := e.homeTurn_spec
  have hleft : e.minx + 360 * ((e.homeTurn - 1 : Int) : K) ≤ -180 := by
    push_cast
    linarith
  have hright : e.maxx + 360 * ((e.homeTurn - 1 : Int) : K) ≤ 180 := by
    push_cast
    linarith
  simp only [widthAt, storedWidth, move]
  rw [max_eq_left hlow, max_eq_right hleft, min_eq_left hright]
  push_cast
  rcases le_total (e.maxx + 360 * (e.homeTurn : K)) 180 with hinside | hover
  · rw [min_eq_left hinside, max_eq_right (by linarith), max_eq_left (by linarith)]
    ring
  · rw [min_eq_right hover, max_eq_right (by linarith), max_eq_right (by linarith)]
    ring

/-- Some turns move parts as wide as the envelope into the stored range exactly if they include
all that move a part there. -/
theorem sum_widthAt_eq_iff (hwidth : e.minx < e.maxx) (hnarrow : e.maxx - e.minx < 360)
    (turns : Finset Int) :
    ∑ k ∈ turns, e.widthAt k = e.maxx - e.minx ↔ ∀ k, e.Reaches k → k ∈ turns := by
  let home : Finset Int := {e.homeTurn, e.homeTurn - 1}
  have hpair : ∑ k ∈ home, e.widthAt k = e.maxx - e.minx := by
    rw [Finset.sum_pair (by omega), widthAt_homeTurn hwidth hnarrow]
  have hall : ∑ k ∈ home, e.widthAt k = ∑ k ∈ turns ∪ home, e.widthAt k := by
    refine Finset.sum_subset Finset.subset_union_right fun k _ hk => ?_
    refine (e.widthAt_nonneg k).antisymm' (not_lt.mp fun hpos => hk ?_)
    simpa [home] using (widthAt_pos_iff.mp hpos).eq_homeTurn hnarrow
  -- what is missing is what the turns that are left out would add, and no turn adds less than zero
  rw [← hpair, hall, ← Finset.sum_sdiff Finset.subset_union_left, right_eq_add,
    Finset.sum_eq_zero_iff_of_nonneg fun k _ => e.widthAt_nonneg k]
  constructor
  · intro hzero k hreach
    by_contra hk
    have hhome : k ∈ home := by simpa [home] using hreach.eq_homeTurn hnarrow
    refine (widthAt_pos_iff.mpr hreach).ne' (hzero k ?_)
    exact Finset.mem_sdiff.mpr ⟨Finset.mem_union_right _ hhome, hk⟩
  · intro hreached k hk
    refine (e.widthAt_nonneg k).antisymm' (not_lt.mp fun hpos => ?_)
    exact (Finset.mem_sdiff.mp hk).2 (hreached k (widthAt_pos_iff.mp hpos))

/-- Splitting a narrow envelope duplicates nothing: there are at most three pieces, all apart from
each other, the check for earlier pieces never leaves one out, and clipped to the stored range they
are together as wide as the envelope exactly if the cap admits every turn that moves a part
there. -/
theorem splitAcrossDateline_duplicates_nothing (hocc : e.Occupied) (hwidth : e.minx < e.maxx)
    (hnarrow : e.maxx - e.minx < 360) (hcap : 0 ≤ cap) :
    ∃ (pieces : List (Envelope K)) (widths : List K),
      e.finite.splitAcrossDateline cap = .ok (pieces.map finite) ∧
      pieces.length ≤ 3 ∧ pieces.Pairwise Apart ∧
      e.finite.splitAcrossDateline cap = e.finite.splitUnchecked cap ∧
      (pieces.map fun f => (f.finite.intersection f.finite.storedRange).width) =
        widths.map .finite ∧
      (widths.sum = e.maxx - e.minx ↔ ∀ k, e.Reaches k → |k| ≤ cap) := by
  obtain ⟨turns, hnearest, hturns, hsplit⟩ := exists_splitAcrossDateline hocc hnarrow cap
  have hreach : ∀ k ∈ turns, e.Reaches k := fun k hk => ((hturns k).mp hk).2.2
  have hnodup : (0 :: turns).Nodup := by
    refine List.nodup_cons.mpr ⟨fun hzero => ((hturns 0).mp hzero).1 rfl, hnearest.imp ?_⟩
    rintro j _ hnear rfl
    exact Nearer.irrefl j hnear
  refine ⟨_, (0 :: turns).map e.widthAt, hsplit, ?_, pairwise_apart hnarrow hnodup,
    splitAcrossDateline_eq_splitUnchecked hocc hnarrow cap, ?_, ?_⟩
  · have hlength := length_le_two hnarrow (List.nodup_cons.mp hnodup).2 hreach
    rw [List.length_cons, List.length_map]
    omega
  · rw [List.map_cons, List.map_cons, List.map_cons, width_stored_finite hocc,
      storedWidth_eq_widthAt_zero, List.map_map, List.map_map]
    refine congrArg₂ List.cons rfl (List.map_congr_left fun k hk => ?_)
    rw [Function.comp_apply, Function.comp_apply,
      width_stored_finite ((hreach k hk).occupied hocc), storedWidth_storedPart]
  · rw [← List.sum_toFinset _ hnodup, sum_widthAt_eq_iff hwidth hnarrow]
    refine forall₂_congr fun k hk => ?_
    rw [List.mem_toFinset, List.mem_cons, hturns]
    by_cases hzero : k = 0
    · simpa [hzero] using hcap
    · simp [hzero, hk]

/-- East of the stored range, an envelope comes in by two parts that make up the whole: forty
degrees at the eastern end and two hundred and sixty at the western one. -/
theorem far_east_pieces_apart :
    let e : Envelope ℚ := ⟨500, -10, 800, 10, none⟩
    ∃ (pieces : List (Envelope ℚ)) (widths : List ℚ),
      e.finite.splitAcrossDateline 10 = .ok (pieces.map finite) ∧
      pieces.length ≤ 3 ∧ pieces.Pairwise Apart ∧
      (pieces.map fun f => (f.finite.intersection f.finite.storedRange).width) =
        widths.map .finite ∧ widths.sum = 300 := by
  intro e
  obtain ⟨pieces, widths, hsplit, hlength, hapart, -, hwidths, hsum⟩ :=
    splitAcrossDateline_duplicates_nothing (e := e) ⟨by norm_num [e], by norm_num [e]⟩
      (by norm_num [e]) (by norm_num [e]) (by norm_num : (0 : Int) ≤ 10)
  refine ⟨pieces, widths, hsplit, hlength, hapart, hwidths, ?_⟩
  rw [hsum.mpr]
  · norm_num [e]
  · rintro k ⟨-, heast, hwest⟩
    have hlow : (-10 : ℚ) < k := by norm_num [e] at heast; linarith
    have hhigh : (k : ℚ) < 10 := by norm_num [e] at hwest; linarith
    rw [abs_le]
    exact ⟨by exact_mod_cast hlow.le, by exact_mod_cast hhigh.le⟩

end Antimeridian.Envelope
