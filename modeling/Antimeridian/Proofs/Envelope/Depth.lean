import Antimeridian.Proofs.Envelope.Exact

/-!
# Depth in an envelope

A point can lie at some distance from the edges of an envelope. It then stays inside where the
envelope loses less than that at its edges.
-/

namespace Antimeridian

namespace Envelope

variable {K : Type} [Field K] [LinearOrder K] {e f : Envelope K} {m : K} {p : K × K}

/-- Whether a point lies in an envelope, at some distance from its edges. -/
def Deep (e : Envelope K) (m : K) (p : K × K) : Prop :=
  (e.minx + m ≤ p.1 ∧ p.1 + m ≤ e.maxx) ∧ e.miny + m ≤ p.2 ∧ p.2 + m ≤ e.maxy

variable [IsStrictOrderedRing K]

theorem Deep.mono {l : K} (hdeep : e.Deep m p) (hle : l ≤ m) : e.Deep l p := by
  obtain ⟨⟨hwest, heast⟩, hsouth, hnorth⟩ := hdeep
  refine ⟨⟨?_, ?_⟩, ?_, ?_⟩ <;> linarith

theorem Deep.mem_region (hdeep : e.Deep m p) (hm : 0 ≤ m) : p ∈ e.region := by
  obtain ⟨⟨hwest, heast⟩, hsouth, hnorth⟩ := hdeep
  rw [Envelope.mem_region]
  refine ⟨⟨?_, ?_⟩, ?_, ?_⟩ <;> linarith

theorem Deep.hasArea (hdeep : e.Deep m p) (hm : 0 < m) : e.HasArea := by
  obtain ⟨⟨hwest, heast⟩, hsouth, hnorth⟩ := hdeep
  constructor <;> linarith

theorem Deep.meet (he : e.Deep m p) (hf : f.Deep m p) : (e.meet f).Deep m p := by
  obtain ⟨⟨hewest, heeast⟩, hesouth, henorth⟩ := he
  obtain ⟨⟨hfwest, hfeast⟩, hfsouth, hfnorth⟩ := hf
  refine ⟨⟨?_, ?_⟩, ?_, ?_⟩
  · rw [Envelope.meet, max_add]
    exact max_le hewest hfwest
  · exact le_min heeast hfeast
  · rw [Envelope.meet, max_add]
    exact max_le hesouth hfsouth
  · exact le_min henorth hfnorth

variable [FloorRing K]

omit [IsStrictOrderedRing K] in
theorem intersection_of_mem_region (he : p ∈ e.region) (hf : p ∈ f.region) :
    e.finite.intersection f.finite = (e.meet f).finite := by
  rw [intersection_finite, if_pos (intersects_finite_iff.mpr ⟨p, he, hf⟩)]

theorem hasArea_finite_iff : e.finite.hasArea = true ↔ e.HasArea := by
  by_cases hocc : e.Occupied
  · simp [hasArea, isEmpty_finite hocc, width_finite hocc, height_finite hocc, HasArea]
  · have hempty : e.finite.isEmpty = true := by
      rwa [← Bool.not_eq_false, isEmpty_finite_iff]
    refine iff_of_false ?_ fun harea => hocc harea.occupied
    simp [hasArea, hempty]

/-- Bounds that are numbers have an area between them unless they are out of order or meet. -/
theorem lacksArea_finite (e : Envelope K) :
    (e.finite.isEmpty || e.finite.width == 0 || e.finite.height == 0) = !e.finite.hasArea := by
  cases hempty : e.finite.isEmpty with
  | true => simp [hasArea, hempty]
  | false =>
      have hocc := (isEmpty_finite_iff e).mp hempty
      rw [hasArea, hempty, width_finite hocc, height_finite hocc]
      simp [sub_eq_zero, sub_pos, hocc.1.lt_iff_ne, hocc.2.lt_iff_ne, eq_comm]

end Envelope

end Antimeridian
