import Antimeridian.Proofs.Geometry.Bounds

/-!
# Envelopes with numbers as bounds

Measures, relations and derived envelopes, read in a field. An envelope stands for the points
between its bounds.
-/

namespace Antimeridian.Envelope

variable {K : Type} [LinearOrder K]

/-- The points of an envelope. -/
def region (e : Envelope K) : Set (K × K) := Set.Icc (e.minx, e.miny) (e.maxx, e.maxy)

/-- Whether an envelope has points. -/
def Occupied (e : Envelope K) : Prop := e.minx ≤ e.maxx ∧ e.miny ≤ e.maxy

/-- Whether an envelope has inner points. -/
def HasArea (e : Envelope K) : Prop := e.minx < e.maxx ∧ e.miny < e.maxy

/-- The same bounds in another system. -/
def labelled (e : Envelope K) (crs : Crs) : Envelope K := { e with crs := some crs }

theorem mem_region {e : Envelope K} {p : K × K} :
    p ∈ e.region ↔ (e.minx ≤ p.1 ∧ p.1 ≤ e.maxx) ∧ e.miny ≤ p.2 ∧ p.2 ≤ e.maxy := by
  rw [region, Set.mem_Icc, Prod.le_def, Prod.le_def]
  tauto

theorem HasArea.occupied {e : Envelope K} (harea : e.HasArea) : e.Occupied :=
  ⟨harea.1.le, harea.2.le⟩

/-- What two envelopes share, where they share a point. -/
def meet (e f : Envelope K) : Envelope K :=
  ⟨max e.minx f.minx, max e.miny f.miny, min e.maxx f.maxx, min e.maxy f.maxy, e.crs⟩

theorem mem_region_meet {e f : Envelope K} {p : K × K} :
    p ∈ (e.meet f).region ↔ p ∈ e.region ∧ p ∈ f.region := by
  simp only [mem_region, meet, max_le_iff, le_min_iff]
  tauto

/-- Whether two envelopes share a point. -/
def Meets (e f : Envelope K) : Prop := (e.region ∩ f.region).Nonempty

theorem meets_iff {e f : Envelope K} :
    e.Meets f ↔ (e.Occupied ∧ f.Occupied) ∧
      (e.minx ≤ f.maxx ∧ f.minx ≤ e.maxx) ∧ e.miny ≤ f.maxy ∧ f.miny ≤ e.maxy := by
  rw [Meets, region, region, Set.Icc_inter_Icc, Set.nonempty_Icc]
  simp only [sup_le_iff, le_inf_iff, Prod.le_def, Occupied]
  tauto

theorem Meets.symm {e f : Envelope K} (hmeets : e.Meets f) : f.Meets e := by
  rw [Meets, Set.inter_comm]
  exact hmeets

theorem Meets.occupied_meet {e f : Envelope K} (hmeets : e.Meets f) : (e.meet f).Occupied := by
  obtain ⟨⟨hocc, hfocc⟩, ⟨hwest, heast⟩, hsouth, hnorth⟩ := meets_iff.mp hmeets
  constructor
  · exact max_le (le_min hocc.1 hwest) (le_min heast hfocc.1)
  · exact max_le (le_min hocc.2 hsouth) (le_min hnorth hfocc.2)

theorem meets_of_occupied_meet {e f : Envelope K} (hocc : (e.meet f).Occupied) : e.Meets f := by
  refine ⟨((e.meet f).minx, (e.meet f).miny), mem_region_meet.mp ?_⟩
  rw [mem_region]
  exact ⟨⟨le_rfl, hocc.1⟩, le_rfl, hocc.2⟩

/-! ## Bounds in a field -/

variable [Field K]

/-- The envelope moved along the horizontal axis. -/
def move (e : Envelope K) (dx : K) : Envelope K :=
  { e with minx := e.minx + dx, maxx := e.maxx + dx }

variable [FloorRing K]

theorem isEmpty_finite_iff (e : Envelope K) : e.finite.isEmpty = false ↔ e.Occupied := by
  simp [isEmpty, Occupied]

theorem isEmpty_finite {e : Envelope K} (hocc : e.Occupied) : e.finite.isEmpty = false :=
  (isEmpty_finite_iff e).mpr hocc

theorem width_finite {e : Envelope K} (hocc : e.Occupied) :
    e.finite.width = .finite (e.maxx - e.minx) := by
  simp [width, isEmpty_finite hocc]

theorem height_finite {e : Envelope K} (hocc : e.Occupied) :
    e.finite.height = .finite (e.maxy - e.miny) := by
  simp [height, isEmpty_finite hocc]

theorem shift_finite {e : Envelope K} (hocc : e.Occupied) (dx : K) :
    e.finite.shift (.finite dx) = (e.move dx).finite := by
  rw [shift, translate, isEmpty_finite hocc]
  simp [move, finite]

theorem contains_finite {e f : Envelope K} (he : e.Occupied) (hf : f.Occupied) :
    e.finite.contains f.finite = true ↔
      (e.minx ≤ f.minx ∧ f.maxx ≤ e.maxx) ∧ e.miny ≤ f.miny ∧ f.maxy ≤ e.maxy := by
  simp [contains, isEmpty_finite he, isEmpty_finite hf, and_assoc]

theorem intersects_finite {e f : Envelope K} (he : e.Occupied) (hf : f.Occupied) :
    e.finite.intersects f.finite = true ↔
      (e.minx ≤ f.maxx ∧ f.minx ≤ e.maxx) ∧ e.miny ≤ f.maxy ∧ f.miny ≤ e.maxy := by
  simp [intersects, isEmpty_finite he, isEmpty_finite hf, and_assoc]

theorem intersects_finite_iff {e f : Envelope K} :
    e.finite.intersects f.finite = true ↔ e.Meets f := by
  rw [meets_iff, ← isEmpty_finite_iff, ← isEmpty_finite_iff]
  simp [intersects, and_assoc]

/-- Whether the bounds of an envelope are numbers, unless there is nothing between them. -/
def IsBounded (e : Envelope (Extended K)) : Prop :=
  e.isEmpty = true ∨ ∃ f : Envelope K, e = f.finite

theorem IsBounded.cases {e : Envelope (Extended K)} (hbounded : e.IsBounded) :
    e.isEmpty = true ∨ ∃ f : Envelope K, e = f.finite ∧ f.Occupied := by
  rcases hbounded with hempty | ⟨f, rfl⟩
  · exact .inl hempty
  · cases hempty : f.finite.isEmpty with
    | true => exact .inl rfl
    | false => exact .inr ⟨f, rfl, (isEmpty_finite_iff f).mp hempty⟩

/-! ## Places -/

/-- Whether a place lies in an envelope. -/
def Holds (e : Envelope (Extended K)) (p : K × K) : Prop :=
  e.containsPoint (.finite p.1) (.finite p.2) = true

theorem holds_finite_iff {e : Envelope K} {p : K × K} : e.finite.Holds p ↔ p ∈ e.region := by
  rw [Holds, containsPoint, Bool.and_eq_true, Bool.not_eq_true', isEmpty_finite_iff, mem_region]
  simp only [covers, finite_minx, finite_miny, finite_maxx, finite_maxy, Extended.finite_le_finite,
    Bool.and_eq_true, decide_eq_true_eq, and_assoc]
  rw [and_iff_right_iff_imp]
  rintro ⟨hwest, heast, hsouth, hnorth⟩
  exact ⟨hwest.trans heast, hsouth.trans hnorth⟩

theorem not_holds_of_isEmpty {e : Envelope (Extended K)} (hempty : e.isEmpty = true) (p : K × K) :
    ¬e.Holds p := by
  simp [Holds, containsPoint, hempty]

theorem isEmpty_empty (crs : Option Crs) : (empty crs : Envelope (Extended K)).isEmpty = true := rfl

theorem intersection_finite (e f : Envelope K) :
    e.finite.intersection f.finite =
      if e.finite.intersects f.finite then (e.meet f).finite else empty e.crs := by
  simp only [intersection, finite_minx, finite_miny, finite_maxx, finite_maxy,
    Extended.max_finite, Extended.min_finite]
  rfl

end Antimeridian.Envelope
