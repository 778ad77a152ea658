import Antimeridian.Proofs.Envelope.Exact
import Antimeridian.Proofs.Envelope.Offsets

/-!
# The pieces of a split envelope

An envelope narrower than a turn is split into itself and its parts in the stored range, one for
every number of turns that moves a part of positive width there. Parts of different turns are
apart, so that the check for pieces found earlier never leaves one out.
-/

namespace Antimeridian.Envelope

variable {K : Type} [Field K] [LinearOrder K] [FloorRing K]

/-- The stored range of longitudes at an envelope's latitudes. -/
def stored (e : Envelope K) : Envelope K := ⟨-180, e.miny, 180, e.maxy, e.crs⟩

/-- The part of an envelope that some turns move into the stored range. -/
def storedPart (e : Envelope K) (k : Int) : Envelope K :=
  ⟨max (e.minx + 360 * k) (-180), e.miny, min (e.maxx + 360 * k) 180, e.maxy, e.crs⟩

/-- Whether some turns move a part of positive width into the stored range. -/
def Reaches (e : Envelope K) (k : Int) : Prop :=
  e.minx < e.maxx ∧ -180 < e.maxx + 360 * k ∧ e.minx + 360 * k < 180

instance (e : Envelope K) : DecidablePred e.Reaches :=
  fun _ => inferInstanceAs (Decidable (_ ∧ _ ∧ _))

theorem storedRange_finite (e : Envelope K) : e.finite.storedRange = e.stored.finite := by
  simp [storedRange, stored, finite]

variable [IsStrictOrderedRing K] {e : Envelope K} {k : Int}

omit [FloorRing K] in
theorem storedPart_minx_lt_maxx_iff :
    (e.storedPart k).minx < (e.storedPart k).maxx ↔ e.Reaches k := by
  simp only [storedPart, Reaches, max_lt_iff, lt_min_iff, add_lt_add_iff_right]
  constructor
  · rintro ⟨⟨hwidth, heast⟩, hwest, -⟩
    exact ⟨hwidth, heast, hwest⟩
  · rintro ⟨hwidth, heast, hwest⟩
    exact ⟨⟨hwidth, heast⟩, hwest, by norm_num⟩

omit [FloorRing K] in
theorem Reaches.occupied (hreach : e.Reaches k) (hocc : e.Occupied) :
    (e.storedPart k).Occupied :=
  ⟨(storedPart_minx_lt_maxx_iff.mpr hreach).le, hocc.2⟩

/-! ## Finding pieces -/

/-- The envelope moved by some turns and clipped to the stored range. -/
def candidate {α : Type} [Scalar α] (e : Envelope α) (k : Int) : Envelope α :=
  (e.shift (Scalar.ofInt k * Longitude.turn)).intersection e.storedRange

theorem collectPieces_cons {α : Type} [Scalar α] (e : Envelope α) (found : List (Envelope α))
    (k : Int) (rest : List Int) :
    e.collectPieces found (k :: rest) =
      if (e.candidate k).isEmpty || (e.candidate k).width == 0 ||
          found.any (·.contains (e.candidate k)) then
        e.collectPieces found rest
      else e.collectPieces (found ++ [e.candidate k]) rest := rfl

omit [IsStrictOrderedRing K] in
theorem candidate_finite (hocc : e.Occupied) :
    e.finite.candidate k =
      if (e.move (360 * k)).finite.intersects e.stored.finite then (e.storedPart k).finite
      else empty e.crs := by
  have hmeet : (e.move (360 * k)).meet e.stored = e.storedPart k := by
    simp [meet, move, stored, storedPart]
  have hshift : e.finite.shift (Scalar.ofInt k * Longitude.turn) = (e.move (360 * k)).finite := by
    rw [Longitude.turn, Extended.ofInt_eq, Extended.ofNat_eq, Extended.finite_mul, mul_comm,
      shift_finite hocc]
  rw [candidate, storedRange_finite, hshift, intersection_finite, hmeet]
  rfl

theorem candidate_of_reaches (hocc : e.Occupied) (hreach : e.Reaches k) :
    e.finite.candidate k = (e.storedPart k).finite := by
  have hmoved : (e.move (360 * k)).Occupied := ⟨add_le_add_left hocc.1 _, hocc.2⟩
  have hstored : e.stored.Occupied := ⟨by norm_num [stored], hocc.2⟩
  rw [candidate_finite hocc, if_pos]
  rw [intersects_finite hmoved hstored]
  exact ⟨⟨hreach.2.2.le, hreach.2.1.le⟩, hocc.2, hocc.2⟩

/-- Turns that move no part of positive width into the stored range add no piece. -/
theorem candidate_of_not_reaches (hocc : e.Occupied) (hnot : ¬e.Reaches k) :
    (e.finite.candidate k).isEmpty = true ∨ (e.finite.candidate k).width == 0 := by
  rw [candidate_finite hocc]
  split
  · by_cases hpart : (e.storedPart k).Occupied
    · right
      have hwidth : (e.storedPart k).maxx - (e.storedPart k).minx = 0 := by
        rw [← storedPart_minx_lt_maxx_iff, not_lt] at hnot
        exact sub_eq_zero.mpr (hnot.antisymm hpart.1)
      rw [width_finite hpart, hwidth, Extended.zero_eq, Extended.finite_beq_finite]
      simp
    · left
      rw [← isEmpty_finite_iff, Bool.not_eq_false] at hpart
      exact hpart
  · exact .inl (isEmpty_empty _)

/-- Whether an envelope lies between the bounds of another one moved by some turns. -/
def WithinTurn (e : Envelope K) (k : Int) (f : Envelope K) : Prop :=
  e.minx + 360 * k ≤ f.minx ∧ f.maxx ≤ e.maxx + 360 * k

omit [FloorRing K] [IsStrictOrderedRing K] in
theorem withinTurn_storedPart : e.WithinTurn k (e.storedPart k) :=
  ⟨le_max_left _ _, min_le_left _ _⟩

/-- A part is in no piece of other turns. -/
theorem not_contains_storedPart (hnarrow : e.maxx - e.minx < 360) (hocc : e.Occupied)
    (hreach : e.Reaches k) {f : Envelope K} {j : Int} (hf : e.WithinTurn j f) (hne : j ≠ k) :
    ¬f.finite.contains (e.storedPart k).finite = true := by
  intro hcontains
  have hfocc : f.Occupied := by
    rw [← isEmpty_finite_iff]
    simp only [contains, Bool.and_eq_true, Bool.not_eq_true'] at hcontains
    exact hcontains.1.1.1.1.1
  obtain ⟨⟨hwest, heast⟩, -⟩ := (contains_finite hfocc (hreach.occupied hocc)).mp hcontains
  have hwidth := storedPart_minx_lt_maxx_iff.mpr hreach
  have hpart := withinTurn_storedPart (e := e) (k := k)
  have hlow : (-1 : K) < j - k := by linarith [hf.1, hf.2, hpart.1, hpart.2]
  have hhigh : (j - k : K) < 1 := by linarith [hf.1, hf.2, hpart.1, hpart.2]
  have hlow' : -1 < j - k := by exact_mod_cast hlow
  have hhigh' : j - k < 1 := by exact_mod_cast hhigh
  omega

/-- A part that some turns move into the stored range is a new piece. -/
theorem candidate_is_new (hnarrow : e.maxx - e.minx < 360) (hocc : e.Occupied)
    (hreach : e.Reaches k) {found : List (Envelope K)}
    (hfound : ∀ f ∈ found, ∃ j, j ≠ k ∧ e.WithinTurn j f) :
    ¬((e.finite.candidate k).isEmpty || (e.finite.candidate k).width == 0 ||
      (found.map finite).any (·.contains (e.finite.candidate k))) = true := by
  have hwidth := sub_pos.mpr (storedPart_minx_lt_maxx_iff.mpr hreach)
  rw [candidate_of_reaches hocc hreach, isEmpty_finite (hreach.occupied hocc),
    width_finite (hreach.occupied hocc), Extended.zero_eq, Extended.finite_beq_finite]
  simp only [Bool.false_or, Bool.or_eq_true, decide_eq_true_eq, List.any_map, List.any_eq_true,
    not_or, not_exists, not_and]
  refine ⟨hwidth.ne', ?_⟩
  intro f hf
  obtain ⟨j, hj, hwithin⟩ := hfound f hf
  exact not_contains_storedPart hnarrow hocc hreach hwithin hj

/-- Every part of positive width becomes a piece, in the order of the turns. -/
theorem collectPieces_finite (hnarrow : e.maxx - e.minx < 360) (hocc : e.Occupied)
    {turns : List Int} (hnodup : turns.Nodup) {found : List (Envelope K)}
    (hfound : ∀ f ∈ found, ∃ j, j ∉ turns ∧ e.WithinTurn j f) :
    e.finite.collectPieces (found.map finite) turns =
      (found ++ (turns.filter e.Reaches).map e.storedPart).map finite := by
  -- what has been found comes from turns that are not to come, and so contains no later part
  induction turns generalizing found with
  | nil => simp [collectPieces]
  | cons k rest ih =>
      obtain ⟨hk, hrest⟩ := List.nodup_cons.mp hnodup
      have hlater : ∀ f ∈ found, ∃ j, j ∉ rest ∧ e.WithinTurn j f := by
        intro f hf
        obtain ⟨j, hj, hwithin⟩ := hfound f hf
        exact ⟨j, fun hmem => hj (List.mem_cons_of_mem _ hmem), hwithin⟩
      rw [collectPieces_cons]
      by_cases hreach : e.Reaches k
      · have hother : ∀ f ∈ found, ∃ j, j ≠ k ∧ e.WithinTurn j f := by
          intro f hf
          obtain ⟨j, hj, hwithin⟩ := hfound f hf
          exact ⟨j, fun heq => hj (heq ▸ List.mem_cons_self), hwithin⟩
        have hsnoc : ∀ f ∈ found ++ [e.storedPart k], ∃ j, j ∉ rest ∧ e.WithinTurn j f := by
          intro f hf
          rcases List.mem_append.mp hf with hf | hf
          · exact hlater f hf
          · rw [List.mem_singleton.mp hf]
            exact ⟨k, hk, withinTurn_storedPart⟩
        have hnext := ih hrest hsnoc
        rw [List.map_append, List.map_singleton] at hnext
        rw [if_neg (candidate_is_new hnarrow hocc hreach hother), candidate_of_reaches hocc hreach,
          List.filter_cons_of_pos (by simpa), hnext, List.map_cons, List.append_assoc,
          List.singleton_append]
      · rw [if_pos, List.filter_cons_of_neg (by simpa), ih hrest hlater]
        simp only [Bool.or_eq_true]
        exact .inl (candidate_of_not_reaches hocc hreach)

/-! ## Splitting -/

omit [IsStrictOrderedRing K] in
/-- An envelope as wide as a turn is split into the whole stored range. -/
theorem splitAcrossDateline_of_wide (hocc : e.Occupied) (hwide : 360 ≤ e.maxx - e.minx)
    (cap : Int) : e.finite.splitAcrossDateline cap = .ok [e.stored.finite] := by
  rw [splitAcrossDateline, isEmpty_finite hocc, width_finite hocc, storedRange_finite,
    Longitude.turn, Extended.ofNat_eq]
  simp only [Extended.finite_le_finite, hwide]
  rfl

theorem lowestTurn_finite (cap : Int) :
    e.finite.lowestTurn cap = .ok (max ⌈(-180 - e.maxx) / 360⌉ (-cap)) := by
  have hturn : (360 : K) ≠ 0 := by norm_num
  simp only [lowestTurn, Longitude.turn, Extended.ofNat_eq, Extended.finite_neg, finite_maxx,
    Extended.finite_sub, Extended.finite_div _ hturn, Extended.integral_ceil_finite]
  rfl

omit [IsStrictOrderedRing K] in
theorem highestTurn_finite (cap : Int) :
    e.finite.highestTurn cap = .ok (min ⌊(180 - e.minx) / 360⌋ cap) := by
  have hturn : (360 : K) ≠ 0 := by norm_num
  simp only [highestTurn, Longitude.turn, Extended.ofNat_eq, finite_minx, Extended.finite_sub,
    Extended.finite_div _ hturn, Extended.integral_floor_finite]
  rfl

/-- The turns that are tried include all that move a part into the stored range, up to the cap. -/
theorem mem_offsets_of_reaches (hreach : e.Reaches k) {cap : Int} :
    k ∈ offsets (max ⌈(-180 - e.maxx) / 360⌉ (-cap)) (min ⌊(180 - e.minx) / 360⌋ cap) ↔
      |k| ≤ cap := by
  have hturn : (0 : K) < 360 := by norm_num
  have hlow : ⌈(-180 - e.maxx) / 360⌉ ≤ k := by
    rw [Int.ceil_le, div_le_iff₀ hturn]
    linarith [hreach.2.1]
  have hhigh : k ≤ ⌊(180 - e.minx) / 360⌋ := by
    rw [Int.le_floor, le_div_iff₀ hturn]
    linarith [hreach.2.2]
  rw [mem_offsets, max_le_iff, le_min_iff, abs_le]
  tauto

omit [FloorRing K] in
theorem not_reaches_of_within (hwithin : -180 ≤ e.minx ∧ e.maxx ≤ 180) (hzero : k ≠ 0) :
    ¬e.Reaches k := by
  rintro ⟨-, heast, hwest⟩
  rcases lt_or_gt_of_ne hzero with hneg | hpos
  · have hle : (k : K) ≤ -1 := by exact_mod_cast Int.le_sub_one_of_lt hneg
    linarith [hwithin.2]
  · have hge : (1 : K) ≤ k := by exact_mod_cast hpos
    linarith [hwithin.1]

/-- A narrower envelope is split into itself and its parts in the stored range, nearest turns
first. -/
theorem exists_splitAcrossDateline (hocc : e.Occupied) (hnarrow : e.maxx - e.minx < 360)
    (cap : Int) :
    ∃ turns : List Int, turns.Pairwise Nearer ∧
      (∀ k, k ∈ turns ↔ k ≠ 0 ∧ |k| ≤ cap ∧ e.Reaches k) ∧
      e.finite.splitAcrossDateline cap = .ok ((e :: turns.map e.storedPart).map finite) := by
  rw [splitAcrossDateline, isEmpty_finite hocc, width_finite hocc, lowestTurn_finite,
    highestTurn_finite, Longitude.turn]
  simp only [Extended.ofNat_eq, Extended.finite_neg, finite_minx, finite_maxx,
    Extended.finite_le_finite, not_le.mpr hnarrow, if_false, Bool.false_eq_true]
  by_cases hwithin : -180 ≤ e.minx ∧ e.maxx ≤ 180
  · refine ⟨[], .nil, ?_, ?_⟩
    · intro k
      refine iff_of_false List.not_mem_nil ?_
      rintro ⟨hzero, -, hreach⟩
      exact not_reaches_of_within hwithin hzero hreach
    · simp only [hwithin.1, hwithin.2]
      rfl
  · let tried := offsets (max ⌈(-180 - e.maxx) / 360⌉ (-cap)) (min ⌊(180 - e.minx) / 360⌋ cap)
    refine ⟨(tried.filter (· ≠ 0)).filter e.Reaches,
      ((pairwise_offsets _ _).filter _).filter _, ?_, ?_⟩
    · intro k
      simp only [List.mem_filter, decide_eq_true_eq]
      constructor
      · rintro ⟨⟨htried, hzero⟩, hreach⟩
        exact ⟨hzero, (mem_offsets_of_reaches hreach).mp htried, hreach⟩
      · rintro ⟨hzero, hcap, hreach⟩
        exact ⟨⟨(mem_offsets_of_reaches hreach).mpr hcap, hzero⟩, hreach⟩
    · have hnodup : (tried.filter (· ≠ 0)).Nodup := (nodup_offsets _ _).filter _
      -- the envelope itself stands for the turn that is not tried
      have hfound : ∀ f ∈ [e], ∃ j, j ∉ tried.filter (· ≠ 0) ∧ e.WithinTurn j f := by
        intro f hf
        rw [List.mem_singleton.mp hf]
        exact ⟨0, by simp, by simp [WithinTurn]⟩
      have hpieces := collectPieces_finite hnarrow hocc hnodup hfound
      rw [List.map_singleton, List.singleton_append] at hpieces
      have hreaching : ¬(decide (-180 ≤ e.minx) && decide (e.maxx ≤ 180)) = true := by
        simpa using hwithin
      simp only [if_neg hreaching, bind, Except.bind]
      exact congrArg Except.ok hpieces

/-- Splitting always succeeds, and gives envelopes with points. -/
theorem exists_pieces (hocc : e.Occupied) (cap : Int) :
    ∃ pieces : List (Envelope K), e.finite.splitAcrossDateline cap = .ok (pieces.map finite) ∧
      ∀ piece ∈ pieces, piece.Occupied ∧ piece.crs = e.crs := by
  rcases le_or_gt 360 (e.maxx - e.minx) with hwide | hnarrow
  · refine ⟨[e.stored], splitAcrossDateline_of_wide hocc hwide cap, ?_⟩
    intro piece hpiece
    rw [List.mem_singleton.mp hpiece]
    exact ⟨⟨by norm_num [stored], hocc.2⟩, rfl⟩
  · obtain ⟨turns, -, hturns, hsplit⟩ := exists_splitAcrossDateline hocc hnarrow cap
    refine ⟨_, hsplit, ?_⟩
    intro piece hpiece
    rcases List.mem_cons.mp hpiece with rfl | hpart
    · exact ⟨hocc, rfl⟩
    · obtain ⟨k, hk, rfl⟩ := List.mem_map.mp hpart
      exact ⟨((hturns k).mp hk).2.2.occupied hocc, rfl⟩

end Antimeridian.Envelope
