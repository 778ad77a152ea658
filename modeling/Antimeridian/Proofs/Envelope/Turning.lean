import Antimeridian.Proofs.Envelope.Image
import Antimeridian.Proofs.Transform.Preserving

/-!
# Envelopes moved by whole turns

Between systems in longitude and latitude, the image of an envelope moved by whole turns is the
image of the envelope, moved by as many turns: the outline, the images of its points and the bounds
of these all go along.
-/

namespace Antimeridian

open Extended

/-- A failure as it is told of another envelope. -/
def Failure.about {α : Type} (e : Envelope α) : Failure α → Failure α
  | .imageless _ target => .imageless e target
  | failure => failure

namespace Envelope

/-! ## Moves -/

section Moves

variable {α : Type} [Scalar α]

theorem shift_of_isEmpty {e : Envelope α} (hempty : e.isEmpty = true) (dx : α) :
    e.shift dx = e := by
  rw [shift, translate, if_pos hempty]

theorem crs_shift (e : Envelope α) (dx : α) : (e.shift dx).crs = e.crs := by
  rw [shift, translate]
  split <;> rfl

theorem shift_withCrs (e : Envelope α) (crs : Option Crs) (dx : α) :
    (e.withCrs crs).shift dx = (e.shift dx).withCrs crs := by
  rw [shift, shift, translate, translate, apply_ite (withCrs · crs)]
  rfl

end Moves

section Places

variable {K : Type} [Field K] [LinearOrder K]

/-- The envelope around some places. -/
def hull (places : List (K × K)) (crs : Crs) : Envelope K :=
  ⟨least (places.map (·.1)), least (places.map (·.2)), greatest (places.map (·.1)),
    greatest (places.map (·.2)), some crs⟩

theorem occupied_hull {places : List (K × K)} (hne : places ≠ []) (crs : Crs) :
    (hull places crs).Occupied := by
  cases places with
  | nil => contradiction
  | cons first rest => exact ⟨least_le_greatest _ _, least_le_greatest _ _⟩

theorem hull_map_add [IsStrictOrderedRing K] {places : List (K × K)} (hne : places ≠ []) (crs : Crs)
    (dx : K) : hull (places.map fun p => (p.1 + dx, p.2)) crs = (hull places crs).move dx := by
  have hnonempty : places.map (·.1) ≠ [] := by simpa using hne
  have hfst : (places.map fun p => (p.1 + dx, p.2)).map (·.1) =
      (places.map (·.1)).map (· + dx) := by simp
  have hsnd : (places.map fun p => (p.1 + dx, p.2)).map (·.2) = places.map (·.2) := by simp
  rw [hull, hull, move, hfst, hsnd, least_map_add hnonempty, greatest_map_add hnonempty]

end Places

variable {K : Type} [Field K] [LinearOrder K] [FloorRing K] {e : Envelope (Extended K)}

theorem shift_of_points (hne : e.isEmpty = false) (dx : K) :
    e.shift (.finite dx) =
      ⟨e.minx + .finite dx, e.miny, e.maxx + .finite dx, e.maxy, e.crs⟩ := by
  simp [shift, translate, hne, add_finite_zero]

theorem outline_shift (hne : e.isEmpty = false) (density : Int) (dx : K) :
    (e.shift (.finite dx)).outline density = (e.outline density).map (eastward dx) := by
  have hadd (a b : Extended K) : a + .finite dx + b = a + b + .finite dx := by ac_rfl
  have hsub (a b : Extended K) : a + .finite dx - b = a - b + .finite dx := by
    rw [Extended.sub_eq_add_neg, Extended.sub_eq_add_neg]
    ac_rfl
  -- the sides are as long as before
  simp only [outline, shift_of_points hne, add_sub_add_finite]
  simp only [hadd, hsub, List.map_append, List.map_map, List.map_cons, List.map_nil,
    Function.comp_def, eastward]

/-- The points of an outline that have images are the same at any turns, with images as many turns
away. -/
theorem filter_isFinitePoint_shift [IsStrictOrderedRing K] (hne : e.isEmpty = false)
    {density : Int} {base : Transform (Extended K)} {places : List (K × K)}
    (hplaces : ((e.outline density).map fun p =>
        (Transform.preserving base Longitude.turn).image p.1 p.2).filter isFinitePoint =
      places.map fun p => (.finite p.1, .finite p.2)) (k : Int) :
    (((e.shift (.finite (360 * k))).outline density).map fun p =>
        (Transform.preserving base Longitude.turn).image p.1 p.2).filter isFinitePoint =
      (places.map fun p => (p.1 + 360 * (k : K), p.2)).map fun p =>
        (Extended.finite p.1, Extended.finite p.2) := by
  have himage : (fun p => (Transform.preserving base Longitude.turn).image p.1 p.2) ∘
      eastward (360 * (k : K)) = eastward (360 * (k : K)) ∘
        fun p => (Transform.preserving base Longitude.turn).image p.1 p.2 := by
    rw [Longitude.turn, ofNat_eq]
    exact funext fun p => Transform.image_preserving_add (by norm_num) base p.1 p.2 k
  have hfinite : isFinitePoint ∘ eastward (360 * (k : K)) = isFinitePoint := by
    funext p
    rw [Function.comp_apply, isFinitePoint, isFinitePoint, eastward, isFinite_add_finite]
  rw [outline_shift hne, List.map_map, himage, ← List.map_map, List.filter_map, hfinite, hplaces,
    List.map_map, List.map_map]
  rfl

/-! ## Images between systems in longitude and latitude -/

section Images

variable {atlas : Atlas (Extended K)} {own target : Crs} {density : Int}

theorem sampledTransform_of_isEmpty (hcrs : e.crs = some own) (hdiffer : own.same target = false)
    (hempty : e.isEmpty = true) :
    e.sampledTransform atlas target density = .ok (empty (some target.horizontal)) := by
  simp [sampledTransform, hcrs, hdiffer, hempty, pure, Except.pure]

theorem sampledTransform_of_unrelated {failure : Failure (Extended K)} (hcrs : e.crs = some own)
    (hdiffer : own.same target = false) (hne : e.isEmpty = false)
    (hbase : atlas.find own target = .error failure) :
    e.sampledTransform atlas target density = .error failure := by
  simp [sampledTransform, hcrs, hdiffer, hne, hbase, bind, Except.bind]

/-- Where no longitudes have to be unwrapped, the image is the envelope around the places that the
points of the outline go to. -/
theorem sampledTransform_of_places {base : Transform (Extended K)} (hcrs : e.crs = some own)
    (hdiffer : own.same target = false) (hne : e.isEmpty = false)
    (hplain : (target.isGeographic && !own.isGeographic) = false)
    (hbase : atlas.find own target = .ok base) {places : List (K × K)}
    (hplaces : ((e.outline density).map fun p =>
        (if own.isGeographic && target.isGeographic then
          Transform.preserving base Longitude.turn else base).image p.1 p.2).filter isFinitePoint =
      places.map fun p => (.finite p.1, .finite p.2)) :
    e.sampledTransform atlas target density =
      if places = [] then .error (.imageless e target.horizontal)
      else .ok (hull places target.horizontal).finite := by
  simp only [sampledTransform, hcrs, Crs.same_horizontal_right, hdiffer, hne, hbase,
    Atlas.find_horizontal_right, hplaces, hplain, Crs.isGeographic_horizontal, bind, Except.bind,
    Bool.false_eq_true, if_false]
  cases places with
  | nil => rfl
  | cons first rest =>
      simp only [List.map_cons, List.map_map, Function.comp_def, range_map_finite Prod.fst first,
        range_map_finite Prod.snd first, reduceCtorEq, if_false]
      rfl

theorem sampledTransform_of_geographic {base : Transform (Extended K)} (hcrs : e.crs = some own)
    (hdiffer : own.same target = false) (hne : e.isEmpty = false) (hown : own.isGeographic = true)
    (htarget : target.isGeographic = true) (hbase : atlas.find own target = .ok base)
    {places : List (K × K)}
    (hplaces : ((e.outline density).map fun p =>
        (Transform.preserving base Longitude.turn).image p.1 p.2).filter isFinitePoint =
      places.map fun p => (.finite p.1, .finite p.2)) :
    e.sampledTransform atlas target density =
      if places = [] then .error (.imageless e target.horizontal)
      else .ok (hull places target.horizontal).finite := by
  apply sampledTransform_of_places hcrs hdiffer hne _ hbase
  · simpa only [hown, htarget, Bool.and_self, if_true] using hplaces
  · rw [hown, Bool.not_true, Bool.and_false]

variable [IsStrictOrderedRing K]

theorem isEmpty_shift (e : Envelope (Extended K)) (dx : K) :
    (e.shift (.finite dx)).isEmpty = e.isEmpty := by
  cases hempty : e.isEmpty with
  | true => rw [shift_of_isEmpty hempty, hempty]
  | false =>
      rw [shift_of_points hempty, ← hempty]
      simp only [isEmpty, add_finite_le_add_finite_iff]

/-- Moving an envelope by whole turns moves its image by as many; a failure names the envelope that
was asked for. -/
theorem sampledTransform_shift (hcrs : e.crs = some own) (hown : own.isGeographic = true)
    (htarget : target.isGeographic = true) (k : Int) :
    (e.shift (.finite (360 * k))).sampledTransform atlas target density =
      ((e.sampledTransform atlas target density).map (·.shift (.finite (360 * k)))).mapError
        (Failure.about (e.shift (.finite (360 * k)))) := by
  have hcrs' := (crs_shift e (.finite (360 * (k : K)))).trans hcrs
  cases hsame : own.same target with
  | true =>
      rw [sampledTransform_of_same hcrs hsame, sampledTransform_of_same hcrs' hsame, Except.map,
        Except.mapError, shift_withCrs]
  | false =>
      cases hempty : e.isEmpty with
      | true =>
          rw [shift_of_isEmpty hempty, sampledTransform_of_isEmpty hcrs hsame hempty, Except.map,
            Except.mapError, shift_of_isEmpty (isEmpty_empty _)]
      | false =>
          have hempty' := (isEmpty_shift e (360 * (k : K))).trans hempty
          cases hbase : atlas.find own target with
          | error failure =>
              have hunrelated :
                  failure = .unrelated own.horizontal target.horizontal := by
                rw [Atlas.find] at hbase
                split at hbase <;> cases hbase
                rfl
              rw [sampledTransform_of_unrelated hcrs hsame hempty hbase,
                sampledTransform_of_unrelated hcrs' hsame hempty' hbase, hunrelated]
              rfl
          | ok base =>
              obtain ⟨places, hplaces⟩ := exists_filter_isFinitePoint
                ((e.outline density).map fun p =>
                  (Transform.preserving base Longitude.turn).image p.1 p.2)
              rw [sampledTransform_of_geographic hcrs hsame hempty hown htarget hbase hplaces,
                sampledTransform_of_geographic hcrs' hsame hempty' hown htarget hbase
                  (filter_isFinitePoint_shift hempty hplaces k)]
              simp only [List.map_eq_nil_iff]
              by_cases hnone : places = []
              · rw [if_pos hnone, if_pos hnone]
                rfl
              · rw [if_neg hnone, if_neg hnone, hull_map_add hnone, Except.map, Except.mapError,
                  shift_finite (occupied_hull hnone _)]

end Images

variable [IsStrictOrderedRing K]

/-- A transform made to preserve periods does so, whichever it is, and the images of envelopes
between systems in longitude and latitude keep their turns. -/
theorem preserving_keeps_turns {period : K} (hperiod : 0 < period)
    (base : Transform (Extended K)) :
    Transform.PreservesPeriods (.preserving base (.finite period)) base period ∧
      ∀ (atlas : Atlas (Extended K)) (e : Envelope (Extended K)) (own target : Crs)
        (density k : Int), e.crs = some own → own.isGeographic = true →
        target.isGeographic = true →
          (e.shift (.finite (360 * k))).sampledTransform atlas target density =
            ((e.sampledTransform atlas target density).map
              (·.shift (.finite (360 * k)))).mapError
                (Failure.about (e.shift (.finite (360 * k)))) :=
  ⟨Transform.preservesPeriods_preserving hperiod base,
    fun _ _ _ _ _ k hcrs hown htarget => sampledTransform_shift hcrs hown htarget k⟩

/-- A datum shift by two degrees pushes a place at 179 degrees over the antimeridian, beyond which
its images are folded. -/
theorem pushed_over_antimeridian_keeps_turns :
    let own := Crs.ofFrame Crs.Registry.wgs84Paris
    let mapping : Mapping (Extended ℚ) :=
      ⟨fun lon lat => (Longitude.normalize (lon + .finite 2) (.finite 360), lat),
        fun _ _ => false, false⟩
    let base : Transform (Extended ℚ) := .direct own Crs.wgs84 false mapping
    let atlas : Atlas (Extended ℚ) := ⟨fun _ _ => some mapping⟩
    let e : Envelope ℚ := ⟨170, 0, 190, 10, some own⟩
    Transform.image (.preserving base (.finite 360)) (.finite (179 + 360)) (.finite 0) =
        (.finite (181 + 360), .finite 0) ∧
      ∃ f, e.finite.sampledTransform atlas Crs.wgs84 2 = .ok f ∧
        (e.finite.shift (.finite 360)).sampledTransform atlas Crs.wgs84 2 =
          .ok (f.shift (.finite 360)) := by
  intro own mapping base atlas e
  have hturn : (0 : ℚ) < 360 := by norm_num
  have hfolded : base.image (Longitude.normalize (.finite 179) (.finite 360)) (.finite 0) =
      (.finite (-179), .finite 0) := by
    have hstart : Longitude.turns 360 (179 : ℚ) = 0 :=
      Longitude.turns_eq hturn (by norm_num) (by norm_num)
    have hpushed : Longitude.turns 360 (181 : ℚ) = 1 :=
      Longitude.turns_eq hturn (by norm_num) (by norm_num)
    rw [Longitude.normalize_finite _ hturn.ne', hstart]
    norm_num [Transform.image, base, mapping, Longitude.normalize_finite, hpushed]
  obtain ⟨hkeeps, henvelopes⟩ := preserving_keeps_turns hturn base
  constructor
  · obtain ⟨r, hr, -, -, honly⟩ := hkeeps.nearest _ _ _ _ hfolded
    have hplace : (181 : ℚ) = r := honly 181 ⟨1, by norm_num⟩ (by norm_num [abs_lt])
    have hmoved := hkeeps.moves (.finite 179) (.finite 0) 1
    rw [hr, ← hplace] at hmoved
    simpa [eastward] using hmoved
  · have hmoved := henvelopes atlas e.finite own Crs.wgs84 2 1 rfl rfl rfl
    have hok : (e.finite.sampledTransform atlas Crs.wgs84 2).isOk = true := by decide +kernel
    cases himage : e.finite.sampledTransform atlas Crs.wgs84 2 with
    | error failure =>
        rw [himage] at hok
        exact absurd hok Bool.false_ne_true
    | ok f =>
        rw [himage] at hmoved
        exact ⟨f, rfl, by simpa [Except.map, Except.mapError] using hmoved⟩

end Envelope

end Antimeridian
