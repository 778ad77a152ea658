import Antimeridian.Proofs.Envelope.Exact

/-!
# Clipping to bounds that may be infinite

Valid areas may reach around the globe, with infinite bounds to the west and to the east. Where an
envelope with numbers as bounds meets such an area, what they share has numbers as bounds too: each
of its bounds is the inner one of the two.
-/

namespace Antimeridian

namespace Extended

variable {K : Type} [LinearOrder K] {a b : Extended K} {x y z : K}

/-- A number raised to a scalar that is not above every number. -/
def raise (x : K) : Extended K → K
  | finite b => max b x
  | _ => x

/-- A number lowered to a scalar that is not below every number. -/
def lower (x : K) : Extended K → K
  | finite b => min b x
  | _ => x

theorem le_raise : x ≤ raise x a := by
  cases a with
  | finite b => exact le_max_right b x
  | above | below | missing => exact le_rfl

theorem lower_le : lower x a ≤ x := by
  cases a with
  | finite b => exact min_le_right b x
  | above | below | missing => exact le_rfl

variable [Field K] [FloorRing K]

theorem le_of_lt_finite (ha : a < finite x) : a ≤ finite x := by
  cases a with
  | finite y => exact (finite_lt_finite.mp ha).le
  | below => trivial
  | above | missing => exact ha.elim

theorem finite_le_of_lt (ha : finite x < a) : finite x ≤ a := by
  cases a with
  | finite y => exact (finite_lt_finite.mp ha).le
  | above => trivial
  | below | missing => exact ha.elim

theorem le_finite_trans (ha : a ≤ finite x) (hxy : x ≤ y) : a ≤ finite y := by
  cases a with
  | finite z => exact (finite_le_finite.mp ha).trans hxy
  | below => trivial
  | above | missing => exact ha.elim

theorem finite_le_trans (hxy : x ≤ y) (ha : finite y ≤ a) : finite x ≤ a := by
  cases a with
  | finite z => exact hxy.trans (finite_le_finite.mp ha)
  | above => trivial
  | below | missing => exact ha.elim

theorem sub_finite_lt [IsStrictOrderedRing K] (ha : a ≤ finite x) (hxy : x - z < y) :
    a - finite z < finite y := by
  cases a with
  | finite w =>
      rw [finite_sub, finite_lt_finite]
      exact (sub_le_sub_right (finite_le_finite.mp ha) z).trans_lt hxy
  | below => trivial
  | above | missing => exact ha.elim

theorem finite_lt_add [IsStrictOrderedRing K] (ha : finite x ≤ a) (hxy : y < x + z) :
    finite y < a + finite z := by
  cases a with
  | finite w =>
      rw [finite_add, finite_lt_finite]
      exact hxy.trans_le (add_le_add_left (finite_le_finite.mp ha) z)
  | above => trivial
  | below | missing => exact ha.elim

theorem le_trans_finite (ha : a ≤ finite x) (hb : finite x ≤ b) : a ≤ b := by
  cases a with
  | finite y => exact finite_le_trans ha hb
  | below =>
      cases b with
      | finite z => trivial
      | above => trivial
      | below | missing => exact hb.elim
  | above | missing => exact ha.elim

/-- A range between two numbers is a range of numbers. -/
theorem exists_finite_range (hlow : finite x ≤ a) (hle : a ≤ b) (hhigh : b ≤ finite y) :
    ∃ low high, a = finite low ∧ b = finite high ∧ low ≤ high ∧ x ≤ low ∧ high ≤ y := by
  cases b with
  | finite high =>
      cases a with
      | finite low => exact ⟨low, high, rfl, rfl, hle, hlow, hhigh⟩
      | above => exact hle.elim
      | below | missing => exact hlow.elim
  | below =>
      cases a with
      | finite low | above => exact hle.elim
      | below | missing => exact hlow.elim
  | above | missing => exact hhigh.elim

/-! ## Raising -/

theorem max_eq_raise (ha : a ≤ finite y) :
    Scalar.max a (finite x) = finite (raise x a) ∧
      Scalar.max (finite x) a = finite (raise x a) := by
  cases a with
  | finite b => exact ⟨max_finite b x, by rw [max_finite, max_comm, raise]⟩
  | below => exact ⟨if_pos trivial, if_neg id⟩
  | above | missing => exact ha.elim

theorem le_finite_raise (ha : a ≤ finite y) : a ≤ finite (raise x a) := by
  cases a with
  | finite b => exact le_max_left b x
  | below => trivial
  | above | missing => exact ha.elim

theorem raise_le (hx : x ≤ z) (ha : a ≤ finite z) : raise x a ≤ z := by
  cases a with
  | finite b => exact max_le ha hx
  | above | below | missing => exact hx

theorem raise_lt (hx : x < z) (ha : a < finite z) : raise x a < z := by
  cases a with
  | finite b => exact max_lt ha hx
  | above | below | missing => exact hx

/-! ## Lowering -/

theorem min_eq_lower (ha : finite y ≤ a) :
    Scalar.min a (finite x) = finite (lower x a) ∧
      Scalar.min (finite x) a = finite (lower x a) := by
  cases a with
  | finite b => exact ⟨min_finite b x, by rw [min_finite, min_comm, lower]⟩
  | above => exact ⟨if_pos trivial, if_neg id⟩
  | below | missing => exact ha.elim

theorem finite_lower_le (ha : finite y ≤ a) : finite (lower x a) ≤ a := by
  cases a with
  | finite b => exact min_le_left b x
  | above => trivial
  | below | missing => exact ha.elim

theorem le_lower (hx : z ≤ x) (ha : finite z ≤ a) : z ≤ lower x a := by
  cases a with
  | finite b => exact le_min ha hx
  | above | below | missing => exact hx

theorem lt_lower (hx : z < x) (ha : finite z < a) : z < lower x a := by
  cases a with
  | finite b => exact lt_min ha hx
  | above | below | missing => exact hx

theorem raise_le_lower {w : K} (hxw : x ≤ w) (hab : a ≤ b) (ha : a ≤ finite w) (hb : finite x ≤ b) :
    raise x a ≤ lower w b := by
  apply le_lower (raise_le hxw ha)
  cases a with
  | finite y =>
      have heq : raise x (finite y) = max y x := rfl
      rcases le_total y x with hle | hle
      · rwa [heq, max_eq_right hle]
      · rwa [heq, max_eq_left hle]
  | above | below | missing => exact hb

theorem raise_lt_lower {w : K} (hxw : x < w) (hx : x ≤ z) (hw : z ≤ w) (ha : a < finite z)
    (hb : finite z < b) : raise x a < lower w b := by
  rcases hw.lt_or_eq with hlt | rfl
  · exact (raise_le hx (le_of_lt_finite ha)).trans_lt (lt_lower hlt hb)
  · exact (raise_lt hxw ha).trans_le (le_lower le_rfl (finite_le_of_lt hb))

end Extended

namespace Envelope

variable {K : Type} [LinearOrder K]

/-- An envelope clipped to another one whose bounds may be infinite. -/
def clamp (e : Envelope K) (f : Envelope (Extended K)) : Envelope K :=
  ⟨Extended.raise e.minx f.minx, Extended.raise e.miny f.miny, Extended.lower e.maxx f.maxx,
    Extended.lower e.maxy f.maxy, e.crs⟩

theorem clamp_within (e : Envelope K) (f : Envelope (Extended K)) :
    (e.minx ≤ (e.clamp f).minx ∧ (e.clamp f).maxx ≤ e.maxx) ∧
      e.miny ≤ (e.clamp f).miny ∧ (e.clamp f).maxy ≤ e.maxy :=
  ⟨⟨Extended.le_raise, Extended.lower_le⟩, Extended.le_raise, Extended.lower_le⟩

variable [Field K] [FloorRing K] {e : Envelope K} {f : Envelope (Extended K)} {p : K × K}

/-- Whether a point lies strictly between the bounds of an envelope, which may be infinite. -/
def Surrounds (f : Envelope (Extended K)) (p : K × K) : Prop :=
  (f.minx < .finite p.1 ∧ .finite p.1 < f.maxx) ∧ f.miny < .finite p.2 ∧ .finite p.2 < f.maxy

theorem Surrounds.isEmpty_eq (hp : f.Surrounds p) : f.isEmpty = false := by
  obtain ⟨⟨hwest, heast⟩, hsouth, hnorth⟩ := hp
  have hx := Extended.le_trans_finite (Extended.le_of_lt_finite hwest)
    (Extended.finite_le_of_lt heast)
  have hy := Extended.le_trans_finite (Extended.le_of_lt_finite hsouth)
    (Extended.finite_le_of_lt hnorth)
  simp [isEmpty, hx, hy]

theorem surrounds_finite_iff :
    e.finite.Surrounds p ↔ (e.minx < p.1 ∧ p.1 < e.maxx) ∧ e.miny < p.2 ∧ p.2 < e.maxy :=
  Iff.rfl

theorem Surrounds.intersects (hp : f.Surrounds p) (hregion : p ∈ e.region) :
    e.finite.intersects f = true := by
  obtain ⟨⟨hwest, heast⟩, hsouth, hnorth⟩ := Envelope.mem_region.mp hregion
  have hocc : e.Occupied := ⟨hwest.trans heast, hsouth.trans hnorth⟩
  have hne := hp.isEmpty_eq
  obtain ⟨⟨hfwest, hfeast⟩, hfsouth, hfnorth⟩ := hp
  simp only [Envelope.intersects, isEmpty_finite hocc, hne, Bool.not_false, Bool.true_and,
    Bool.and_eq_true, decide_eq_true_eq]
  refine ⟨⟨⟨?_, ?_⟩, ?_⟩, ?_⟩
  · exact Extended.finite_le_trans hwest (Extended.finite_le_of_lt hfeast)
  · exact Extended.le_finite_trans (Extended.le_of_lt_finite hfwest) heast
  · exact Extended.finite_le_trans hsouth (Extended.finite_le_of_lt hfnorth)
  · exact Extended.le_finite_trans (Extended.le_of_lt_finite hfsouth) hnorth

theorem Surrounds.mem_clamp (hp : f.Surrounds p) (hregion : p ∈ e.region) :
    p ∈ (e.clamp f).region := by
  rw [mem_region] at hregion ⊢
  obtain ⟨⟨hfwest, hfeast⟩, hfsouth, hfnorth⟩ := hp
  obtain ⟨⟨hwest, heast⟩, hsouth, hnorth⟩ := hregion
  refine ⟨⟨?_, ?_⟩, ?_, ?_⟩
  · exact Extended.raise_le hwest (Extended.le_of_lt_finite hfwest)
  · exact Extended.le_lower heast (Extended.finite_le_of_lt hfeast)
  · exact Extended.raise_le hsouth (Extended.le_of_lt_finite hfsouth)
  · exact Extended.le_lower hnorth (Extended.finite_le_of_lt hfnorth)

theorem Surrounds.hasArea_clamp (hp : f.Surrounds p) (hregion : p ∈ e.region) (harea : e.HasArea) :
    (e.clamp f).HasArea := by
  obtain ⟨⟨hwest, heast⟩, hsouth, hnorth⟩ := Envelope.mem_region.mp hregion
  constructor
  · exact Extended.raise_lt_lower harea.1 hwest heast hp.1.1 hp.1.2
  · exact Extended.raise_lt_lower harea.2 hsouth hnorth hp.2.1 hp.2.2

omit [Field K] [FloorRing K] in
theorem HasArea.of_clamp (harea : (e.clamp f).HasArea) : e.HasArea := by
  obtain ⟨⟨hwest, heast⟩, hsouth, hnorth⟩ := e.clamp_within f
  constructor
  · exact hwest.trans_lt (harea.1.trans_le heast)
  · exact hsouth.trans_lt (harea.2.trans_le hnorth)

/-- An envelope that clipping leaves as it is lies in the other one. -/
theorem contains_of_clamp (hmeets : e.finite.intersects f = true)
    (hx : (e.clamp f).minx ≤ e.minx ∧ e.maxx ≤ (e.clamp f).maxx)
    (hy : (e.clamp f).miny ≤ e.miny ∧ e.maxy ≤ (e.clamp f).maxy) :
    f.contains e.finite = true := by
  simp only [intersects, Bool.and_eq_true, decide_eq_true_eq] at hmeets
  obtain ⟨⟨⟨⟨hne, heast⟩, hwest⟩, hnorth⟩, hsouth⟩ := hmeets
  simp only [contains, Bool.and_eq_true, decide_eq_true_eq]
  refine ⟨⟨⟨⟨hne.symm, ?_⟩, ?_⟩, ?_⟩, ?_⟩
  · exact Extended.le_finite_trans (Extended.le_finite_raise hwest) hx.1
  · exact Extended.finite_le_trans hx.2 (Extended.finite_lower_le heast)
  · exact Extended.le_finite_trans (Extended.le_finite_raise hsouth) hy.1
  · exact Extended.finite_le_trans hy.2 (Extended.finite_lower_le hnorth)

theorem intersects_comm {α : Type} [Scalar α] (e f : Envelope α) :
    e.intersects f = f.intersects e := by
  rw [Bool.eq_iff_iff]
  simp only [intersects, Bool.and_eq_true]
  tauto

/-- What an envelope shares with another one has numbers as bounds, whichever of them is clipped. -/
theorem intersection_of_intersects (hmeets : e.finite.intersects f = true) :
    (e.clamp f).Occupied ∧ e.finite.intersection f = (e.clamp f).finite ∧
      f.intersection e.finite = { (e.clamp f).finite with crs := f.crs } := by
  have hmeets' : f.intersects e.finite = true := by rw [intersects_comm, hmeets]
  rw [intersection, if_pos hmeets, intersection, if_pos hmeets']
  simp only [intersects, isEmpty, Bool.and_eq_true, Bool.not_not, decide_eq_true_eq] at hmeets
  obtain ⟨⟨⟨⟨⟨hocc, hx, hy⟩, heast⟩, hwest⟩, hnorth⟩, hsouth⟩ := hmeets
  refine ⟨⟨?_, ?_⟩, ?_, ?_⟩
  · exact Extended.raise_le_lower (Extended.finite_le_finite.mp hocc.1) hx hwest heast
  · exact Extended.raise_le_lower (Extended.finite_le_finite.mp hocc.2) hy hsouth hnorth
  · simp only [finite_minx, finite_miny, finite_maxx, finite_maxy, (Extended.max_eq_raise hwest).2,
      (Extended.max_eq_raise hsouth).2, (Extended.min_eq_lower heast).2,
      (Extended.min_eq_lower hnorth).2]
    rfl
  · simp only [finite_minx, finite_miny, finite_maxx, finite_maxy, (Extended.max_eq_raise hwest).1,
      (Extended.max_eq_raise hsouth).1, (Extended.min_eq_lower heast).1,
      (Extended.min_eq_lower hnorth).1]
    rfl

/-- Whether the bounds of an envelope, which may be infinite, lie around another one. -/
def Encloses (f : Envelope (Extended K)) (e : Envelope K) : Prop :=
  (f.minx ≤ .finite e.minx ∧ .finite e.maxx ≤ f.maxx) ∧
    f.miny ≤ .finite e.miny ∧ .finite e.maxy ≤ f.maxy

theorem encloses_clamp (hmeets : e.finite.intersects f = true) : f.Encloses (e.clamp f) := by
  simp only [intersects, Bool.and_eq_true, decide_eq_true_eq] at hmeets
  obtain ⟨⟨⟨⟨-, heast⟩, hwest⟩, hnorth⟩, hsouth⟩ := hmeets
  exact ⟨⟨Extended.le_finite_raise hwest, Extended.finite_lower_le heast⟩,
    Extended.le_finite_raise hsouth, Extended.finite_lower_le hnorth⟩

theorem isEmpty_of_hasArea {α : Type} [Scalar α] {a : Envelope α} (harea : a.hasArea = true) :
    a.isEmpty = false := by
  simp only [hasArea, Bool.and_eq_true, Bool.not_eq_true'] at harea
  exact harea.1.1

/-- Envelopes that share points meet, and are not empty. -/
theorem intersects_of_intersection {a : Envelope (Extended K)}
    (hne : (a.intersection f).isEmpty = false) : a.intersects f = true := by
  by_contra hapart
  rw [intersection, if_neg hapart] at hne
  contradiction

theorem isEmpty_of_intersection {a : Envelope (Extended K)}
    (hne : (a.intersection f).isEmpty = false) : a.isEmpty = false := by
  have hmeets := intersects_of_intersection hne
  simp only [intersects, Bool.and_eq_true, Bool.not_eq_true'] at hmeets
  exact hmeets.1.1.1.1.1

/-- What an envelope shares with another one, if there are points in it, lies between the bounds of
the other one. -/
theorem exists_of_intersection (hne : (e.finite.intersection f).isEmpty = false) :
    ∃ g : Envelope K, e.finite.intersection f = g.finite ∧ g.Occupied ∧ f.Encloses g := by
  have hmeets := intersects_of_intersection hne
  obtain ⟨hocc, heq, -⟩ := intersection_of_intersects hmeets
  exact ⟨_, heq, hocc, encloses_clamp hmeets⟩

theorem exists_of_intersection_left (hne : (f.intersection e.finite).isEmpty = false) :
    ∃ g : Envelope K, f.intersection e.finite = g.finite ∧ g.Occupied ∧ f.Encloses g := by
  have hmeets := intersects_of_intersection hne
  rw [intersects_comm] at hmeets
  obtain ⟨hocc, -, heq⟩ := intersection_of_intersects hmeets
  exact ⟨{ e.clamp f with crs := f.crs }, heq, hocc, encloses_clamp hmeets⟩

/-! ## Containing -/

/-- What lies in an envelope with numbers as bounds has numbers as bounds. -/
theorem exists_finite_of_contains (hcontains : e.finite.contains f = true) :
    ∃ g : Envelope K, f = g.finite ∧ g.Occupied ∧ (e.minx ≤ g.minx ∧ g.maxx ≤ e.maxx) ∧
      e.miny ≤ g.miny ∧ g.maxy ≤ e.maxy := by
  obtain ⟨minx, miny, maxx, maxy, crs⟩ := f
  simp only [contains, isEmpty, Bool.and_eq_true, Bool.not_not, decide_eq_true_eq] at hcontains
  obtain ⟨⟨⟨⟨⟨-, hx, hy⟩, hwest⟩, heast⟩, hsouth⟩, hnorth⟩ := hcontains
  obtain ⟨west, east, rfl, rfl, hwide, hxs⟩ := Extended.exists_finite_range hwest hx heast
  obtain ⟨south, north, rfl, rfl, hhigh, hys⟩ := Extended.exists_finite_range hsouth hy hnorth
  exact ⟨⟨west, south, east, north, crs⟩, rfl, ⟨hwide, hhigh⟩, hxs, hys⟩

theorem contains_of_within {g : Envelope K} (hocc : g.Occupied)
    (hx : e.minx ≤ g.minx ∧ g.maxx ≤ e.maxx) (hy : e.miny ≤ g.miny ∧ g.maxy ≤ e.maxy) :
    e.finite.contains g.finite = true := by
  have he : e.Occupied := ⟨hx.1.trans (hocc.1.trans hx.2), hy.1.trans (hocc.2.trans hy.2)⟩
  exact (contains_finite he hocc).mpr ⟨hx, hy⟩

/-- What is shared with an envelope lies in it. -/
theorem contains_intersection (hne : (f.intersection e.finite).isEmpty = false) :
    e.finite.contains (f.intersection e.finite) = true := by
  have hmeets := intersects_of_intersection hne
  rw [intersects_comm] at hmeets
  obtain ⟨hocc, -, heq⟩ := intersection_of_intersects hmeets
  obtain ⟨hx, hy⟩ := e.clamp_within f
  rw [heq]
  exact contains_of_within (g := { e.clamp f with crs := f.crs }) hocc hx hy

/-- So does what is shared with something that lies in it. -/
theorem contains_intersection_of_contains {a : Envelope (Extended K)}
    (hcontains : e.finite.contains a = true) (hne : (a.intersection f).isEmpty = false) :
    e.finite.contains (a.intersection f) = true := by
  obtain ⟨g, rfl, -, hx, hy⟩ := exists_finite_of_contains hcontains
  obtain ⟨hocc, heq, -⟩ := intersection_of_intersects (intersects_of_intersection hne)
  obtain ⟨⟨hwest, heast⟩, hsouth, hnorth⟩ := g.clamp_within f
  rw [heq]
  exact contains_of_within hocc ⟨hx.1.trans hwest, heast.trans hx.2⟩
    ⟨hy.1.trans hsouth, hnorth.trans hy.2⟩

end Envelope

end Antimeridian
