import Antimeridian.Envelope.Reproject
import Antimeridian.Proofs.Crs.Horizontal
import Antimeridian.Proofs.Envelope.Exact
import Antimeridian.Proofs.Geometry.Gathering
import Antimeridian.Proofs.Longitude.Normalizing

/-!
# Images of envelopes

The image of an envelope in another system is bounded by the images of points along its outline
that are numbers, so that its own bounds are numbers, whatever the chart does. An image in longitude
and latitude has its middle in the period around zero, unless the envelope had longitudes before.
-/

namespace Antimeridian

@[simp] theorem Atlas.find_horizontal_left {α : Type} (atlas : Atlas α) (source target : Crs) :
    atlas.find source.horizontal target = atlas.find source target := by
  rw [find, find, Crs.horizontal_horizontal]

@[simp] theorem Atlas.find_horizontal_right {α : Type} (atlas : Atlas α) (source target : Crs) :
    atlas.find source target.horizontal = atlas.find source target := by
  rw [find, find, Crs.horizontal_horizontal]

/-! ## Longitudes that are numbers -/

namespace Longitude

open Extended

variable {K : Type} [Field K] [LinearOrder K] [FloorRing K] [IsStrictOrderedRing K] {period : K}

/-- A step is corrected by whole periods. -/
theorem exists_stepCorrection (step : K) (hperiod : period ≠ 0) :
    ∃ k : Int, stepCorrection (finite step) (finite period) = finite (period * k) := by
  obtain ⟨n, hfolded⟩ : ∃ n : Int, Scalar.mod (finite step - finite (-(period / 2)))
      (finite period) + finite (-(period / 2)) = finite (step - period * n) := by
    rw [finite_sub, mod_finite _ hperiod, finite_add]
    exact ⟨_, congrArg finite (by ring)⟩
  simp only [stepCorrection, ofNat_eq, zero_eq, abs_finite, finite_div _ (two_ne_zero' K),
    finite_neg, hfolded, finite_beq_finite, finite_lt_finite]
  split_ifs with hshort hedge
  · exact ⟨0, by simp⟩
  · -- the lower edge is replaced by the upper one, a period further
    simp only [Bool.and_eq_true, decide_eq_true_eq] at hedge
    refine ⟨1 - n, ?_⟩
    rw [finite_sub]
    push_cast
    congr 1
    linarith [hedge.1]
  · refine ⟨-n, ?_⟩
    rw [finite_sub]
    push_cast
    congr 1
    ring

theorem exists_zipWith_runningSums (hperiod : period ≠ 0) (n : Int) (x : K) (xs : List K) :
    ∃ ys : List K, List.Forall₂ (Turned period) xs ys ∧
      List.zipWith (· + ·) (xs.map finite) (Scalar.runningSums (finite (period * n))
        ((steps ((x :: xs).map finite)).map (stepCorrection · (finite period)))) =
          ys.map finite := by
  induction xs generalizing n x with
  | nil => exact ⟨[], .nil, rfl⟩
  | cons y rest ih =>
      obtain ⟨k, hk⟩ := exists_stepCorrection (y - x) hperiod
      obtain ⟨ys, hturned, hys⟩ := ih (n + k) y
      have htotal : period * n + period * k = period * ((n + k : Int) : K) := by
        push_cast
        ring
      refine ⟨(y + period * (n + k : Int)) :: ys, .cons ⟨n + k, rfl⟩ hturned, ?_⟩
      simp only [List.map_cons] at hys
      simp only [List.map_cons, steps, finite_sub, hk, Scalar.runningSums, finite_add, htotal,
        List.zipWith_cons_cons, hys]

/-- Unwrapped longitudes are those given, moved by whole periods, and the first one is where it
was. -/
theorem exists_unwrap (hperiod : period ≠ 0) (x : K) (xs : List K) :
    ∃ ys : List K, List.Forall₂ (Turned period) xs ys ∧
      unwrap (finite period) ((x :: xs).map finite) = (x :: ys).map finite := by
  obtain ⟨ys, hturned, hys⟩ := exists_zipWith_runningSums hperiod 0 x xs
  rw [Int.cast_zero, mul_zero] at hys
  refine ⟨ys, hturned, ?_⟩
  rw [List.map_cons, unwrap, ← List.map_cons, zero_eq, hys, List.map_cons]

end Longitude

namespace Envelope

variable {K : Type} [Field K] [LinearOrder K]

/-! ## Places in longitude and latitude -/

/-- Whether the middle of a range of longitudes lies in the period around zero. -/
def Centred (e : Envelope K) : Prop := |e.minx + e.maxx| ≤ 360

/-- Whether an envelope in longitude and latitude, no wider than a turn and with its middle in the
period around zero, holds some places at some turns each. -/
structure Frames (f : Envelope K) (places : List (K × K)) : Prop where
  narrow : f.maxx - f.minx ≤ 360
  centred : f.Centred
  holds : ∀ p ∈ places, ∃ k : Int, (p.1 + 360 * k, p.2) ∈ f.region

/-- The envelope of all longitudes and of the latitudes up to a pole. -/
def widened (f : Envelope K) (pole : K) : Envelope K :=
  ⟨-180, min f.miny pole, 180, max f.maxy pole, f.crs⟩

/-- Whether an envelope in longitude and latitude goes all the way around a pole, and up to it. -/
def ReachesPole (f : Envelope K) (pole : K) : Prop :=
  (f.minx = -180 ∧ f.maxx = 180) ∧ f.miny ≤ pole ∧ pole ≤ f.maxy

theorem Frames.occupied {f : Envelope K} {first : K × K} {rest : List (K × K)}
    (hframes : f.Frames (first :: rest)) : f.Occupied := by
  obtain ⟨k, hp⟩ := hframes.holds first List.mem_cons_self
  obtain ⟨⟨hwest, heast⟩, hsouth, hnorth⟩ := mem_region.mp hp
  exact ⟨hwest.trans heast, hsouth.trans hnorth⟩

theorem reachesPole_widened (f : Envelope K) (pole : K) : (f.widened pole).ReachesPole pole :=
  ⟨⟨rfl, rfl⟩, min_le_right _ _, le_max_right _ _⟩

theorem ReachesPole.widened {f : Envelope K} {pole : K} (hreaches : f.ReachesPole pole)
    (other : K) : (f.widened other).ReachesPole pole :=
  ⟨⟨rfl, rfl⟩, (min_le_left _ _).trans hreaches.2.1, hreaches.2.2.trans (le_max_left _ _)⟩

theorem least_le_greatest (x : K) (xs : List K) : least (x :: xs) ≤ greatest (x :: xs) :=
  (least_spec (List.cons_ne_nil x xs)).2 _ (greatest_spec (List.cons_ne_nil x xs)).1

variable [FloorRing K]

theorem range_finite (x : K) (xs : List K) :
    range (Extended.finite x) (xs.map Extended.finite) =
      (.finite (least (x :: xs)), .finite (greatest (x :: xs))) := by
  rw [range, Extended.minimum_finite, Extended.maximum_finite]
  rfl

theorem range_map_finite {β : Type} (f : β → K) (b : β) (bs : List β) :
    range (Extended.finite (f b)) (bs.map fun c => Extended.finite (f c)) =
      (.finite (least (f b :: bs.map f)), .finite (greatest (f b :: bs.map f))) := by
  rw [← range_finite, List.map_map]
  rfl

/-- Among the images of points, those that are numbers. -/
theorem exists_filter_isFinitePoint (images : List (Extended K × Extended K)) :
    ∃ points : List (K × K), images.filter isFinitePoint =
      points.map fun p => (Extended.finite p.1, Extended.finite p.2) := by
  rw [Geometry.exists_eq_map_iff]
  intro p hp
  have hfinite := (List.mem_filter.mp hp).2
  rw [isFinitePoint, Bool.and_eq_true, Extended.isFinite_iff, Extended.isFinite_iff] at hfinite
  obtain ⟨⟨x, hx⟩, y, hy⟩ := hfinite
  exact ⟨(x, y), Prod.ext hx.symm hy.symm⟩

variable [IsStrictOrderedRing K]

/-- Any longitude comes around once in a turn. -/
theorem exists_turn (x : K) : ∃ k : Int, -180 ≤ x + 360 * k ∧ x + 360 * k ≤ 180 := by
  obtain ⟨hlow, hhigh⟩ := Longitude.sub_turns_within (by norm_num : (0 : K) < 360) x
  refine ⟨-Longitude.turns 360 x, ?_⟩
  push_cast
  constructor <;> linarith

/-- A range of longitudes is no wider than a turn, has its middle in the period around zero, and
reaches every one of the longitudes at some turns. -/
theorem exists_longitudeRange (x : K) (xs : List K) (complete : Bool) :
    ∃ low high : K, longitudeRange (.finite x) (xs.map Extended.finite) complete =
        (.finite low, .finite high) ∧
      (high - low ≤ 360 ∧ |low + high| ≤ 360) ∧
      ∀ y ∈ x :: xs, ∃ k : Int, low ≤ y + 360 * k ∧ y + 360 * k ≤ high := by
  have hturn : (360 : K) ≠ 0 := by norm_num
  obtain ⟨ys, hturned, hys⟩ := Longitude.exists_unwrap hturn x xs
  obtain ⟨last, hlast⟩ : ∃ last : K,
      ((x :: ys).map Extended.finite).getLastD (.finite x) = .finite last := by
    rw [List.getLastD_map]
    exact ⟨_, rfl⟩
  simp only [longitudeRange, Longitude.turn, Extended.ofNat_eq, ← List.map_cons, hys, hlast]
  simp only [List.map_cons, List.headD_cons, List.tail_cons, range_finite, Extended.finite_sub,
    Extended.abs_finite, Extended.finite_add, Extended.finite_le_finite, Extended.finite_neg,
    Extended.finite_div _ hturn, Extended.finite_div _ (two_ne_zero' K), Extended.finite_lt_finite,
    Extended.roundWhole_finite, Extended.finite_mul]
  split
  next hround =>
    refine ⟨-180, 180, rfl, ⟨by norm_num, by norm_num⟩, fun y _ => exists_turn y⟩
  next hnarrow =>
    simp only [Bool.or_eq_true, decide_eq_true_eq, not_or, not_le] at hnarrow
    have hmiddle := Extended.abs_sub_roundEven_le ((least (x :: ys) + greatest (x :: ys)) / 2 / 360)
    generalize Scalar.roundEven (Extended.finite (_ : K)) = n at hmiddle ⊢
    refine ⟨_, _, rfl, ⟨by linarith [hnarrow.1], ?_⟩, fun y hy => ?_⟩
    · rw [abs_le] at hmiddle ⊢
      constructor <;> linarith
    · -- where unwrapping put it, moved back with all the others
      have hall : List.Forall₂ (Longitude.Turned 360) (x :: xs) (x :: ys) :=
        .cons ⟨0, by simp⟩ hturned
      obtain ⟨z, hz, k, rfl⟩ := exists_mem_of_forall₂ hall y hy
      have hlow := (least_spec (List.cons_ne_nil x ys)).2 _ hz
      have hhigh := (greatest_spec (List.cons_ne_nil x ys)).2 _ hz
      refine ⟨k - n, ?_⟩
      push_cast
      constructor <;> linarith

theorem Frames.widened {f : Envelope K} {places : List (K × K)} (hframes : f.Frames places)
    (pole : K) : (f.widened pole).Frames places where
  narrow := by norm_num [Envelope.widened]
  centred := by norm_num [Centred, Envelope.widened]
  holds p hp := by
    obtain ⟨k, hk⟩ := hframes.holds p hp
    obtain ⟨-, hsouth, hnorth⟩ := mem_region.mp hk
    obtain ⟨n, hn⟩ := exists_turn p.1
    exact ⟨n, mem_region.mpr ⟨hn, (min_le_left _ _).trans hsouth, hnorth.trans (le_max_left _ _)⟩⟩

section Poles

omit [IsStrictOrderedRing K]

variable {e : Envelope (Extended K)} {toOwn : Transform (Extended K)} {pole : K}

/-- Whether an envelope holds the image of a pole. -/
def HoldsPole (e : Envelope (Extended K)) (toOwn : Transform (Extended K)) (pole : K) : Prop :=
  ∃ p : K × K, toOwn.image 0 (.finite pole) = (.finite p.1, .finite p.2) ∧ e.Holds p

theorem withPole_of_holdsPole (hpole : e.HoldsPole toOwn pole) (f : Envelope K) :
    withPole e toOwn f.finite (.finite pole) = (f.widened pole).finite := by
  obtain ⟨p, himage, hholds⟩ := hpole
  rw [Holds] at hholds
  rw [withPole, himage]
  simp [hholds, finite, Envelope.widened]

theorem withPole_of_not_holdsPole (hpole : ¬e.HoldsPole toOwn pole)
    (bound : Envelope (Extended K)) : withPole e toOwn bound (.finite pole) = bound := by
  rw [withPole]
  generalize himage : toOwn.image 0 (.finite pole) = image
  obtain ⟨x, y⟩ := image
  refine if_neg fun hholds => hpole ?_
  simp only [Bool.and_eq_true, Extended.isFinite_iff] at hholds
  obtain ⟨⟨⟨x, rfl⟩, y, rfl⟩, hholds⟩ := hholds
  exact ⟨(x, y), himage, hholds⟩

end Poles

/-- Widening a range to a pole keeps the places, and reaches the pole if the envelope holds it. -/
theorem exists_withPole (e : Envelope (Extended K)) (toOwn : Transform (Extended K))
    (f : Envelope K) (pole : K) :
    ∃ f' : Envelope K, withPole e toOwn f.finite (.finite pole) = f'.finite ∧ f'.crs = f.crs ∧
      (∀ places, f.Frames places → f'.Frames places) ∧
      (∀ other, f.ReachesPole other → f'.ReachesPole other) ∧
      (e.HoldsPole toOwn pole → f'.ReachesPole pole) := by
  by_cases hpole : e.HoldsPole toOwn pole
  · exact ⟨_, withPole_of_holdsPole hpole f, rfl, fun _ hframes => hframes.widened pole,
      fun _ hreaches => hreaches.widened pole, fun _ => reachesPole_widened f pole⟩
  · exact ⟨f, withPole_of_not_holdsPole hpole _, rfl, fun _ => id, fun _ => id,
      fun hholds => (hpole hholds).elim⟩

/-- The images of an outline that are numbers are bounded in longitude and latitude wherever the
poles have images at all. -/
theorem exists_boundGeographic {atlas : Atlas (Extended K)} {e : Envelope (Extended K)}
    {own target : Crs} {toOwn : Transform (Extended K)} (htoOwn : atlas.find target own = .ok toOwn)
    (first : K × K) (rest : List (K × K)) (complete : Bool) :
    ∃ f : Envelope K, boundGeographic atlas e own target (.finite first.1, .finite first.2)
        (rest.map fun p => (.finite p.1, .finite p.2)) complete = .ok f.finite ∧
      f.crs = some target ∧ f.Frames (first :: rest) ∧
      ∀ pole ∈ ([90, -90] : List K), e.HoldsPole toOwn pole → f.ReachesPole pole := by
  obtain ⟨low, high, hrange, ⟨hnarrow, hmiddle⟩, hreach⟩ :=
    exists_longitudeRange first.1 (rest.map (·.1)) complete
  have hsnd := range_map_finite Prod.snd first rest
  simp only [List.map_map, Function.comp_def] at hrange
  let f : Envelope K := ⟨low, least (first.2 :: rest.map (·.2)), high,
    greatest (first.2 :: rest.map (·.2)), some target⟩
  have hframes : f.Frames (first :: rest) := by
    refine ⟨hnarrow, hmiddle, fun p hp => ?_⟩
    have hlatitude : p.2 ∈ first.2 :: rest.map (·.2) := List.mem_map_of_mem (f := Prod.snd) hp
    have hlongitude : p.1 ∈ first.1 :: rest.map (·.1) := List.mem_map_of_mem (f := Prod.fst) hp
    obtain ⟨k, hk⟩ := hreach p.1 hlongitude
    exact ⟨k, mem_region.mpr ⟨hk, (least_spec (List.cons_ne_nil _ _)).2 _ hlatitude,
      (greatest_spec (List.cons_ne_nil _ _)).2 _ hlatitude⟩⟩
  obtain ⟨f', hf', hcrs', hkeeps', -, hnorth⟩ := exists_withPole e toOwn f 90
  obtain ⟨f'', hf'', hcrs'', hkeeps'', hreaches'', hsouth⟩ := exists_withPole e toOwn f' (-90)
  refine ⟨f'', ?_, hcrs''.trans hcrs', hkeeps'' _ (hkeeps' _ hframes), ?_⟩
  · rw [← hf'', ← hf', ← Extended.finite_neg, ← Extended.ofNat_eq]
    simp only [boundGeographic, List.map_map, Function.comp_def, hrange, hsnd, htoOwn]
    rfl
  · simp only [List.forall_mem_cons]
    exact ⟨fun hpole => hreaches'' _ (hnorth hpole), hsouth, by simp⟩

section Bounds

omit [IsStrictOrderedRing K]

/-- Away from the poles, the images of an outline are bounded as they are. -/
theorem boundGeographic_of_not_holdsPole {atlas : Atlas (Extended K)} {e : Envelope (Extended K)}
    {own target : Crs} {toOwn : Transform (Extended K)} (htoOwn : atlas.find target own = .ok toOwn)
    (hpoles : ∀ pole ∈ ([90, -90] : List K), ¬e.HoldsPole toOwn pole) (first : K × K)
    (rest : List (K × K)) {complete : Bool} {low high : K}
    (hrange : longitudeRange (.finite first.1) (rest.map fun p => Extended.finite p.1) complete =
      (.finite low, .finite high)) :
    boundGeographic atlas e own target (.finite first.1, .finite first.2)
        (rest.map fun p => (.finite p.1, .finite p.2)) complete =
      .ok (⟨low, least (first.2 :: rest.map (·.2)), high, greatest (first.2 :: rest.map (·.2)),
        some target⟩ : Envelope K).finite := by
  have hsnd := range_map_finite Prod.snd first rest
  have hnorth := withPole_of_not_holdsPole (hpoles 90 (by simp))
  have hsouth := withPole_of_not_holdsPole (hpoles (-90) (by simp))
  rw [← Extended.finite_neg] at hsouth
  simp only [boundGeographic, List.map_map, Function.comp_def, hrange, hsnd, htoOwn,
    Extended.ofNat_eq, hnorth, hsouth, bind, Except.bind]
  rfl

/-- From other systems into longitude and latitude, the images that are numbers are bounded. -/
theorem sampledTransform_of_projected {atlas : Atlas (Extended K)} {e : Envelope (Extended K)}
    {own target : Crs} {chart : Transform (Extended K)} {density : Int} (hcrs : e.crs = some own)
    (hne : e.isEmpty = false) (hdiffer : own.same target = false)
    (hown : own.isGeographic = false) (htarget : target.isGeographic = true)
    (hchart : atlas.find own target = .ok chart) {first : K × K} {rest : List (K × K)}
    (himages : ((e.outline density).map fun p => chart.image p.1 p.2).filter isFinitePoint =
      (first :: rest).map fun p => (.finite p.1, .finite p.2)) :
    e.sampledTransform atlas target density =
      boundGeographic atlas e own target.horizontal (.finite first.1, .finite first.2)
        (rest.map fun p => (.finite p.1, .finite p.2))
        (((e.outline density).map fun p => chart.image p.1 p.2).all isFinitePoint) := by
  simp only [sampledTransform, hcrs, Crs.same_horizontal_right, hdiffer, hne, hchart, hown,
    Atlas.find_horizontal_right, htarget, himages, Crs.isGeographic_horizontal, bind, Except.bind,
    Bool.false_eq_true, if_false, Bool.false_and, List.map_cons]
  rfl

end Bounds

theorem sampledTransform_of_same {α : Type} [Scalar α] {atlas : Atlas α} {e : Envelope α}
    {own target : Crs} (hcrs : e.crs = some own) (hsame : own.same target = true) (density : Int) :
    e.sampledTransform atlas target density = .ok (e.withCrs (some target.horizontal)) := by
  simp [sampledTransform, hcrs, hsame, pure, Except.pure]

theorem transform_of_same {α : Type} [Scalar α] {atlas : Atlas α} {e : Envelope α}
    {own target : Crs} (hcrs : e.crs = some own) (hsame : own.same target = true) :
    e.transform atlas target = .ok (e.withCrs (some target.horizontal)) :=
  sampledTransform_of_same hcrs hsame defaultDensity

/-- Between different systems, the image of an envelope with points is bounded by numbers. -/
theorem exists_eq_finite_of_transform {atlas : Atlas (Extended K)} {e : Envelope (Extended K)}
    {own target : Crs} {bound : Envelope (Extended K)} (hcrs : e.crs = some own)
    (hdiffer : own.same target = false) (hne : e.isEmpty = false)
    (hok : e.transform atlas target = .ok bound) :
    ∃ f : Envelope K, bound = f.finite ∧ f.Occupied ∧ f.crs = some target.horizontal ∧
      (own.isGeographic = false → target.isGeographic = true → f.Centred) := by
  simp only [transform, sampledTransform, hcrs, Crs.same_horizontal_right, hdiffer, hne,
    Bool.false_eq_true, if_false, Crs.isGeographic_horizontal] at hok
  obtain ⟨base, -, hok⟩ := bind_eq_ok_iff.mp hok
  generalize (if own.isGeographic && target.isGeographic then
    Transform.preserving base Longitude.turn else base) = chart at hok
  generalize (e.outline defaultDensity).map (fun p => chart.image p.1 p.2) = images at hok
  -- only the images that are numbers are looked at
  obtain ⟨points, hpoints⟩ := exists_filter_isFinitePoint images
  rw [hpoints] at hok
  cases points with
  | nil => cases hok
  | cons first rest =>
      simp only [List.map_cons] at hok
      split at hok
      next hgeographic =>
        obtain ⟨toOwn, htoOwn, -⟩ := bind_eq_ok_iff.mp hok
        obtain ⟨f, hf, hfcrs, hframes, -⟩ := exists_boundGeographic htoOwn first rest _
        rw [hf] at hok
        exact ⟨f, (Except.ok.inj hok).symm, hframes.occupied, hfcrs, fun _ _ => hframes.centred⟩
      next hother =>
        simp only [List.map_map, Function.comp_def, range_map_finite Prod.fst first,
          range_map_finite Prod.snd first] at hok
        cases hok
        refine ⟨⟨_, _, _, _, _⟩, rfl, ⟨least_le_greatest _ _, least_le_greatest _ _⟩, rfl, ?_⟩
        intro howned htarget
        simp [howned, htarget] at hother

/-- An envelope with points has none in another system, or one with points. -/
theorem isEmpty_of_transform {atlas : Atlas (Extended K)} {e bound : Envelope (Extended K)}
    {target : Crs} (hne : e.isEmpty = false) (hok : e.transform atlas target = .ok bound) :
    bound.isEmpty = false := by
  cases hcrs : e.crs with
  | none => simp [transform, sampledTransform, hcrs] at hok
  | some own =>
      cases hsame : own.same target with
      | true =>
          rw [transform_of_same hcrs hsame] at hok
          cases hok
          exact hne
      | false =>
          obtain ⟨f, rfl, hocc, -⟩ := exists_eq_finite_of_transform hcrs hsame hne hok
          exact isEmpty_finite hocc

/-- An envelope with numbers as bounds has such an image in any system it has one in. -/
theorem exists_image {atlas : Atlas (Extended K)} {e : Envelope K} {own target : Crs}
    {bound : Envelope (Extended K)} (hcrs : e.crs = some own) (hocc : e.Occupied)
    (hok : e.finite.transform atlas target = .ok bound) :
    ∃ f : Envelope K, bound = f.finite ∧ f.Occupied ∧ f.crs = some target.horizontal := by
  cases hsame : own.same target with
  | true =>
      rw [transform_of_same (e := e.finite) hcrs hsame] at hok
      cases hok
      exact ⟨e.labelled target.horizontal, rfl, hocc, rfl⟩
  | false =>
      obtain ⟨f, hf, hfocc, hfcrs, -⟩ :=
        exists_eq_finite_of_transform hcrs hsame (isEmpty_finite hocc) hok
      exact ⟨f, hf, hfocc, hfcrs⟩

end Envelope

end Antimeridian
