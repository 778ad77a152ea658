import Antimeridian.Proofs.Coverage.Outcome
import Antimeridian.Proofs.Grid.NorthUp
import Antimeridian.Proofs.Rendering.ValidArea

/-!
# Reads that are not asked for

A reader is not asked for a grid that shares no point with its data. Where the two are in different
systems they are compared as longitudes and latitudes, each as its own transform expresses it, and
no turns are looked for at which they share a place. Nothing is lost where the two meet as they
are, or at no turns at all.
-/

namespace Antimeridian

namespace Envelope

section Places

variable {K : Type} [Field K] [LinearOrder K] [FloorRing K] {e f : Envelope (Extended K)}

variable [IsStrictOrderedRing K]

/-- The image of an envelope with bounds has bounds. -/
theorem IsBounded.transform {atlas : Atlas (Extended K)} {target : Crs}
    {bound : Envelope (Extended K)} (hbounded : e.IsBounded)
    (hok : e.transform atlas target = .ok bound) :
    bound.IsBounded := by
  cases hcrs : e.crs with
  | none => simp [Envelope.transform, sampledTransform, hcrs] at hok
  | some own =>
      rcases hbounded.cases with hempty | ⟨f, rfl, hocc⟩
      · cases hsame : own.same target with
        | true =>
            rw [transform_of_same hcrs hsame] at hok
            cases hok
            exact .inl hempty
        | false =>
            simp only [Envelope.transform, sampledTransform, hcrs, Crs.same_horizontal_right, hsame,
              hempty, Bool.false_eq_true, if_false, if_true] at hok
            cases hok
            exact .inl (isEmpty_empty _)
      · obtain ⟨image, rfl, -⟩ := exists_image (e := f) hcrs hocc hok
        exact .inr ⟨image, rfl⟩

/-- Whether two envelopes share a place at some turns. -/
def SharesAt (e f : Envelope (Extended K)) (k : Int) : Prop :=
  ∃ p : K × K, e.Holds p ∧ f.Holds (p.1 + 360 * k, p.2)

theorem sharesAt_finite_iff {e f : Envelope K} {k : Int} :
    e.finite.SharesAt f.finite k ↔ (e.move (360 * k)).Meets f := by
  simp only [SharesAt, holds_finite_iff, Meets, Set.Nonempty, Set.mem_inter_iff, mem_region, move]
  constructor
  · rintro ⟨p, ⟨⟨hwest, heast⟩, hlatitude⟩, hother⟩
    refine ⟨(p.1 + 360 * k, p.2), ⟨⟨?_, ?_⟩, hlatitude⟩, hother⟩
    · exact add_le_add_left hwest _
    · exact add_le_add_left heast _
  · rintro ⟨p, ⟨⟨hwest, heast⟩, hlatitude⟩, hother⟩
    refine ⟨(p.1 - 360 * k, p.2), ⟨⟨?_, ?_⟩, hlatitude⟩, by simpa using hother⟩
    · exact le_sub_iff_add_le.mpr hwest
    · exact sub_le_iff_le_add.mpr heast

/-- Whether envelopes with bounds meet as they are if they share a place at any turns. -/
def FacesAsIs (e f : Envelope (Extended K)) : Prop :=
  ∀ e' f' : Envelope K, e = e'.finite → f = f'.finite → e'.Aligned f'

/-- Envelopes that do not meet share no place at any turns exactly if turns make no difference. -/
theorem facesAsIs_iff (he : e.IsBounded) (hf : f.IsBounded) :
    FacesAsIs e f ↔ (e.intersects f = false → ∀ k, ¬SharesAt e f k) := by
  have hnone (hempty : e.isEmpty = true ∨ f.isEmpty = true) (k : Int) : ¬SharesAt e f k := by
    rintro ⟨p, hp, hother⟩
    rcases hempty with hempty | hempty
    · exact not_holds_of_isEmpty hempty p hp
    · exact not_holds_of_isEmpty hempty _ hother
  have hvacuous (hempty : e.isEmpty = true ∨ f.isEmpty = true) : FacesAsIs e f := by
    rintro e' f' rfl rfl
    rw [aligned_iff]
    intro _ k
    rw [← sharesAt_finite_iff]
    exact hnone hempty k
  rcases he.cases with hempty | ⟨e', rfl, -⟩
  · exact iff_of_true (hvacuous (.inl hempty)) fun _ => hnone (.inl hempty)
  · rcases hf.cases with hempty | ⟨f', rfl, -⟩
    · exact iff_of_true (hvacuous (.inr hempty)) fun _ => hnone (.inr hempty)
    · simp only [sharesAt_finite_iff, ← Bool.not_eq_true, intersects_finite_iff]
      rw [← aligned_iff]
      constructor
      · intro hfaces
        exact hfaces e' f' rfl rfl
      · intro haligned e'' f'' heq heq'
        rwa [← Envelope.finite_injective heq, ← Envelope.finite_injective heq']

end Places

end Envelope

namespace CoveragePlan

open Envelope

variable {K : Type} [Field K] [LinearOrder K] [FloorRing K]
  {atlas : Atlas (Extended K)} {p : CoveragePlan (Extended K)} {options : ReadOptions}
  {g : Grid (Extended K)} {progress : Progress (Extended K)}

/-- Whether a reader is not asked for a grid at all. -/
def Rejects (atlas : Atlas (Extended K)) (p : CoveragePlan (Extended K)) (options : ReadOptions)
    (g : Grid (Extended K)) (progress : Progress (Extended K)) : Prop :=
  (p.readGrid atlas options g).outcome progress = (.ok none, progress)

theorem rejects_iff : Rejects atlas p options g progress ↔
    overlaps atlas p.reader g.envelope = .ok false := by
  rw [Rejects, readGrid]
  split
  next hapart => exact iff_of_true rfl hapart
  next hnot =>
    refine iff_of_false (fun hout => ?_) hnot
    have hrequests := congrArg (fun out => out.2.requests) hout
    simp [Action.outcome_bind, Action.outcome_modify, Action.outcome_lift] at hrequests

variable [IsStrictOrderedRing K]

/-- The reader is left alone only where its data and the grid, in their own images, share no point.
That is because they share no place at any turns exactly if turns make no difference to whether
they meet. -/
theorem fast_reject_conservative_iff {data : Envelope (Extended K)}
    (henvelope : p.reader.envelope = .ok data) (hdata : data.IsBounded)
    (hgrid : g.envelope.IsBounded) (hdiffer : Crs.same? data.crs (some g.crs) = false) :
    (Rejects atlas p options g progress → ∃ own requested,
      data.transform atlas Crs.wgs84 = .ok own ∧
        g.envelope.transform atlas Crs.wgs84 = .ok requested) ∧
    ∀ own requested, data.transform atlas Crs.wgs84 = .ok own →
      g.envelope.transform atlas Crs.wgs84 = .ok requested →
      (Rejects atlas p options g progress ↔ own.intersects requested = false) ∧
      ((Rejects atlas p options g progress → ∀ k, ¬SharesAt own requested k) ↔
        FacesAsIs own requested) := by
  have hoverlaps : overlaps atlas p.reader g.envelope = do
      return (← data.transform atlas Crs.wgs84).intersects
        (← g.envelope.transform atlas Crs.wgs84) := by
    have hcrs : Crs.same? data.crs g.envelope.crs = false := hdiffer
    rw [overlaps, henvelope]
    simp only [bind, Except.bind, hcrs]
    rfl
  constructor
  · intro hrejects
    rw [rejects_iff, hoverlaps] at hrejects
    obtain ⟨own, hown, hrejects⟩ := bind_eq_ok_iff.mp hrejects
    obtain ⟨requested, hrequested, -⟩ := bind_eq_ok_iff.mp hrejects
    exact ⟨own, requested, hown, hrequested⟩
  · intro own requested hown hrequested
    have hrejects : Rejects atlas p options g progress ↔ own.intersects requested = false := by
      rw [rejects_iff, hoverlaps, hown, hrequested]
      exact ⟨Except.ok.inj, congrArg Except.ok⟩
    refine ⟨hrejects, ?_⟩
    rw [hrejects, facesAsIs_iff (hdata.transform hown) (hgrid.transform hrequested)]

/-- A view of 170 to 186 degrees of longitude does not ask for data from 180 degrees west on. -/
theorem rejects_data_a_turn_away :
    let crs := Crs.Registry.projected "EPSG:3832" "WGS 84 / PDC Mercator" Crs.Registry.wgs84
      .mercatorA [(.naturalLatitude, 0), (.naturalLongitude, 150), (.naturalScale, 1),
        (.falseEasting, 0), (.falseNorthing, 0)]
    let geographic : Mapping (Extended ℚ) :=
      ⟨fun x y => (.finite 150 + x / .finite 100000, y / .finite 100000), fun _ _ => false, false⟩
    let planar : Mapping (Extended ℚ) :=
      ⟨fun lon lat => ((lon - .finite 150) * .finite 100000, lat * .finite 100000),
        fun _ _ => false, false⟩
    let atlas : Atlas (Extended ℚ) :=
      ⟨fun own _ => some (if own.isGeographic then planar else geographic)⟩
    let data : Envelope ℚ := ⟨-180, -10, -170, 10, some Crs.wgs84⟩
    let view : NorthUp ℚ := ⟨2000000, 1000000, 400000, 500000, by decide, by decide⟩
    let g : Grid (Extended ℚ) := ⟨0, 0, 4, 4, view.affine, crs, by decide, by decide⟩
    let reader : CoverageReader (Extended ℚ) := ⟨Crs.wgs84, .ok data.finite, [], fun _ => .ok none⟩
    let p : CoveragePlan (Extended ℚ) := ⟨reader, g, false, .nearest, 0⟩
    ∀ state, ∃ own requested, data.finite.transform atlas Crs.wgs84 = .ok own ∧
      g.envelope.transform atlas Crs.wgs84 = .ok requested ∧
      ¬(Rejects atlas p {} g { rendering := state } → ∀ k, ¬SharesAt own requested k) := by
  intro crs geographic planar atlas data view g reader p state
  have hstored : data.finite.transform atlas Crs.wgs84 =
      .ok (data.labelled Crs.wgs84.horizontal).finite := transform_of_same rfl (by decide +kernel)
  have hdata : data.finite.IsBounded := .inr ⟨data, rfl⟩
  have hgrid : g.envelope.IsBounded := .inr ⟨_, view.grid_envelope_eq rfl⟩
  have hview : (g.envelope.transform atlas Crs.wgs84).toOption.any (fun e =>
      .finite (-170) < e.minx && e.minx ≤ .finite 181 && .finite 181 ≤ e.maxx &&
        e.miny ≤ .finite 0 && .finite 0 ≤ e.maxy) = true := by decide +kernel
  cases himage : g.envelope.transform atlas Crs.wgs84 with
  | error failure =>
      rw [himage] at hview
      contradiction
  | ok requested =>
      refine ⟨_, requested, hstored, rfl, ?_⟩
      have hdiffer : Crs.wgs84.same crs = false := by decide +kernel
      refine ((fast_reject_conservative_iff (p := p) rfl hdata hgrid hdiffer).2 _ _ hstored
        himage).2.not.mpr fun hfaces => ?_
      obtain ⟨image, rfl, hocc, -⟩ := exists_eq_finite_of_transform rfl (by decide +kernel)
        (by decide +kernel) himage
      simp only [himage, Except.toOption, Option.any_some, Bool.and_eq_true, decide_eq_true_eq,
        finite_minx, finite_miny, finite_maxx, finite_maxy, Extended.finite_lt_finite,
        Extended.finite_le_finite] at hview
      obtain ⟨⟨⟨⟨hwest, hturned⟩, heast⟩, hsouth⟩, hnorth⟩ := hview
      refine aligned_iff.mp (hfaces _ _ rfl rfl) (fun hmeets => ?_) 1 (meets_iff.mpr ?_)
      · exact (meets_iff.mp hmeets).2.1.2.not_gt hwest
      · norm_num [labelled, move, data, Occupied]
        refine ⟨hocc, ⟨?_, ?_⟩, ?_, ?_⟩ <;> linarith

end CoveragePlan

end Antimeridian
