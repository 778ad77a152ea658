import Antimeridian.Crs.Registry
import Antimeridian.Proofs.Grid.NorthUp

/-!
# Grids that are grown and counted anew

A grid can be grown or shrunk by a gutter and have its pixels counted from the origin, any number of
times and in any order. A change that would leave no pixels fails and leaves the grid as it was.
Counting from the origin shows nowhere: in the end the pixels lie where one gutter, the sum of those
that succeeded, puts them on the grid of the beginning.
-/

namespace Antimeridian

namespace Affine

variable {K : Type} [Field K] [LinearOrder K] [FloorRing K]

/-- The transform among exact scalars. -/
def finite (t : Affine K) : Affine (Extended K) :=
  ⟨.finite t.a, .finite t.b, .finite t.c, .finite t.d, .finite t.e, .finite t.f⟩

theorem apply_finite (t : Affine K) (x y : K) : t.finite.apply (.finite x) (.finite y) =
    (.finite (t.a * x + t.b * y + t.c), .finite (t.d * x + t.e * y + t.f)) := by
  simp only [finite, apply, Extended.finite_mul, Extended.finite_add, Prod.mk.injEq,
    Extended.finite.injEq]
  constructor <;> ring

/-- Moving first and then applying a transform is a transform again. -/
theorem exists_compose_translation (t : Affine K) (dx dy : K) :
    ∃ s : Affine K, t.finite.compose (translation (.finite dx) (.finite dy)) = s.finite ∧
      ∀ x y : K, s.finite.apply (.finite x) (.finite y) =
        t.finite.apply (.finite (dx + x)) (.finite (dy + y)) := by
  refine ⟨⟨t.a, t.b, t.a * dx + t.b * dy + t.c, t.d, t.e, t.d * dx + t.e * dy + t.f⟩, ?_, ?_⟩
  · simp only [compose, translation, finite, Extended.one_eq, Extended.zero_eq,
      Extended.finite_mul, Extended.finite_add, mul_one, mul_zero, add_zero, zero_add]
  · intro x y
    simp only [apply_finite, Prod.mk.injEq, Extended.finite.injEq]
    constructor <;> ring

end Affine

namespace Grid

/-- A change to a grid. -/
inductive Change where
  /-- Grow it by some pixels on every side, or shrink it by a negative number of them. -/
  | gutter (padding : Int)
  /-- Count its pixels from the origin. -/
  | normalize

/-- The number of pixels a change adds on every side. -/
def Change.padding : Change → Int
  | gutter padding => padding
  | normalize => 0

section Runs

variable {α : Type}

theorem withGutter_eq_error_iff {g : Grid α} {padding : Int} {failure : Failure α} :
    g.withGutter padding = .error failure ↔
      (g.width + 2 * padding ≤ 0 ∨ g.height + 2 * padding ≤ 0) ∧
        failure = .gridSize (g.width + 2 * padding) (g.height + 2 * padding) := by
  rw [withGutter, make]
  split
  next hsize =>
    refine iff_of_false (by simp [bind, Except.bind, pure, Except.pure]) fun hfails => ?_
    dsimp only at hsize
    omega
  next hsize =>
    simp only [not_and_or, not_lt] at hsize
    rw [Except.error.injEq, and_iff_right hsize, eq_comm]

variable [Scalar α]

/-- What a change makes of a grid. -/
def change (g : Grid α) : Change → Except (Failure α) (Grid α)
  | .gutter padding => g.withGutter padding
  | .normalize => .ok g.normalized

/-- The grid after some changes. One that fails leaves it as it was. -/
def after (g : Grid α) : List Change → Grid α
  | [] => g
  | c :: rest =>
    match g.change c with
    | .ok next => next.after rest
    | .error _ => g.after rest

/-- The sum of the paddings of those changes that do not fail. -/
def gained (g : Grid α) : List Change → Int
  | [] => 0
  | c :: rest =>
    match g.change c with
    | .ok next => c.padding + next.gained rest
    | .error _ => g.gained rest

end Runs

variable {K : Type} [Field K] [LinearOrder K] [FloorRing K] {g h k : Grid (Extended K)}

/-- Whether a grid is another one with some pixels more on every side, however they are counted. -/
structure Grown (g h : Grid (Extended K)) (gain : Int) : Prop where
  width_eq : h.width = g.width + 2 * gain
  height_eq : h.height = g.height + 2 * gain
  crs_eq : h.crs = g.crs
  exists_transform : ∃ t : Affine K, h.transform = t.finite
  apply_eq : ∀ x y : K, h.transform.apply (.finite (h.column + x)) (.finite (h.row + y)) =
    g.transform.apply (.finite (g.column - gain + x)) (.finite (g.row - gain + y))

namespace Grown

theorem refl {t : Affine K} (hg : g.transform = t.finite) : g.Grown g 0 where
  width_eq := by omega
  height_eq := by omega
  crs_eq := rfl
  exists_transform := ⟨t, hg⟩
  apply_eq := by simp

theorem trans {gain more : Int} (hgh : g.Grown h gain) (hhk : h.Grown k more) :
    g.Grown k (gain + more) where
  width_eq := by rw [hhk.width_eq, hgh.width_eq]; ring
  height_eq := by rw [hhk.height_eq, hgh.height_eq]; ring
  crs_eq := hhk.crs_eq.trans hgh.crs_eq
  exists_transform := hhk.exists_transform
  apply_eq := by
    intro x y
    have hcolumn : (h.column - more + x : K) = h.column + (x - more) := by ring
    have hrow : (h.row - more + y : K) = h.row + (y - more) := by ring
    rw [hhk.apply_eq, hcolumn, hrow, hgh.apply_eq]
    push_cast
    congr 2 <;> ring

theorem gutter {t : Affine K} (hg : g.transform = t.finite) {padding : Int}
    (hok : g.withGutter padding = .ok h) : g.Grown h padding := by
  obtain ⟨-, htransform, hrect, hcrs⟩ := make_eq_ok hok
  simp only [rect, PixelRect.mk.injEq] at hrect
  obtain ⟨hcolumn, hrow, hwidth, hheight⟩ := hrect
  refine ⟨hwidth, hheight, (Except.ok.inj hcrs).symm, ⟨t, htransform.trans hg⟩, fun x y => ?_⟩
  rw [htransform, hcolumn, hrow]
  push_cast
  rfl

theorem normalized {t : Affine K} (hg : g.transform = t.finite) : g.Grown g.normalized 0 := by
  obtain ⟨s, hs, happly⟩ := t.exists_compose_translation g.column g.row
  have htransform : g.normalized.transform = s.finite := by
    rw [Grid.normalized, hg, Extended.ofInt_eq, Extended.ofInt_eq, hs]
  refine ⟨by simp [Grid.normalized], by simp [Grid.normalized], rfl, ⟨s, htransform⟩, ?_⟩
  intro x y
  have hfirst : g.normalized.column = 0 ∧ g.normalized.row = 0 := ⟨rfl, rfl⟩
  rw [htransform, hfirst.1, hfirst.2, Int.cast_zero, zero_add, zero_add, happly, hg, sub_zero,
    sub_zero]

/-- One change. -/
theorem change {t : Affine K} (hg : g.transform = t.finite) {c : Change}
    (hok : g.change c = .ok h) : g.Grown h c.padding := by
  cases c with
  | gutter padding => exact gutter hg hok
  | normalize =>
      cases hok
      exact normalized hg

/-- Any number of changes, those that fail among them. -/
theorem after {t : Affine K} (hg : g.transform = t.finite) (changes : List Change) :
    g.Grown (g.after changes) (g.gained changes) := by
  induction changes generalizing g t with
  | nil => exact refl hg
  | cons c rest ih =>
      rw [Grid.after, gained]
      cases hchange : g.change c with
      | error failure => exact ih hg
      | ok next =>
          have hnext := change hg hchange
          obtain ⟨s, hs⟩ := hnext.exists_transform
          exact hnext.trans (ih hs)

/-- The same pixels have one envelope. -/
theorem envelope_eq {gain : Int} (hgh : g.Grown h gain) (hgk : g.Grown k gain) :
    h.envelope = k.envelope := by
  have hplace (x y : Int) : h.place (h.column + x) (h.row + y) =
      k.place (k.column + x) (k.row + y) := by
    have happly := (hgh.apply_eq x y).trans (hgk.apply_eq x y).symm
    simpa [place] using happly
  have hwidth : h.width = k.width := hgh.width_eq.trans hgk.width_eq.symm
  have hheight : h.height = k.height := hgh.height_eq.trans hgk.height_eq.symm
  have hcorner := hplace 0 0
  have heast := hplace h.width 0
  have hsouth := hplace 0 h.height
  have hlast := hplace h.width h.height
  simp only [add_zero] at hcorner heast hsouth
  rw [envelope, envelope, hcorner, heast, hsouth, hlast, hgh.crs_eq, hgk.crs_eq, hwidth, hheight]

end Grown

/-- After any changes a grid has the pixels that one gutter gives it, the sum of those that did not
fail, in the places they had on the grid of the beginning. The next gutter fails exactly if the sum
would leave no pixels. -/
theorem changes_keep_places {t : Affine K} (hg : g.transform = t.finite) (changes : List Change) :
    let last := g.after changes
    let gain := g.gained changes
    (last.width = g.width + 2 * gain ∧ last.height = g.height + 2 * gain) ∧
      (∀ x y : K, last.transform.apply (.finite (last.column + x)) (.finite (last.row + y)) =
        g.transform.apply (.finite (g.column - gain + x)) (.finite (g.row - gain + y))) ∧
      (∃ padded, g.withGutter gain = .ok padded ∧ last.envelope = padded.envelope) ∧
      ∀ padding failure, last.withGutter padding = .error failure ↔
        (g.width + 2 * (gain + padding) ≤ 0 ∨ g.height + 2 * (gain + padding) ≤ 0) ∧
          failure =
            .gridSize (g.width + 2 * (gain + padding)) (g.height + 2 * (gain + padding)) := by
  intro last gain
  have hlast : g.Grown last gain := .after hg changes
  refine ⟨⟨hlast.width_eq, hlast.height_eq⟩, hlast.apply_eq, ?_, ?_⟩
  · cases hpadded : g.withGutter gain with
    | error failure =>
        obtain ⟨hsize, -⟩ := withGutter_eq_error_iff.mp hpadded
        rw [← hlast.width_eq, ← hlast.height_eq] at hsize
        have hwidth := last.width_pos
        have hheight := last.height_pos
        omega
    | ok padded => exact ⟨padded, rfl, hlast.envelope_eq (.gutter hg hpadded)⟩
  · intro padding failure
    rw [withGutter_eq_error_iff, hlast.width_eq, hlast.height_eq]
    simp only [mul_add, add_assoc]

/-- A turned grid of five columns and four rows is grown by two pixels and counted anew. It cannot
be shrunk by four of them then, but by one. -/
theorem shrunk_after_renumbering :
    let t : Affine ℚ := ⟨3, 4, 10, 4, -3, 20⟩
    let g : Grid (Extended ℚ) := ⟨3, -2, 5, 4, t.finite, .wgs84, by decide, by decide⟩
    let changes : List Change := [.gutter 2, .normalize, .gutter (-4), .gutter (-1), .normalize]
    let last := g.after changes
    (last.width = 7 ∧ last.height = 6) ∧ last.place 0 0 = g.place 2 (-3) ∧
      (∃ padded, g.withGutter 1 = .ok padded ∧ last.envelope = padded.envelope) ∧
      last.withGutter (-3) = .error (.gridSize 1 0) := by
  intro t g changes last
  have hgained : g.gained changes = 1 := by decide +kernel
  have hfirst : last.column = 0 ∧ last.row = 0 := by decide +kernel
  obtain ⟨hsize, happly, hpadded, hfails⟩ :=
    changes_keep_places (show g.transform = t.finite from rfl) changes
  rw [hgained] at hsize happly hpadded hfails
  refine ⟨hsize, ?_, hpadded, (hfails _ _).mpr ⟨by decide, rfl⟩⟩
  calc last.place 0 0 =
        last.transform.apply (.finite (last.column + 0)) (.finite (last.row + 0)) := by
          simp [place, hfirst]
    _ = g.transform.apply (.finite (g.column - (1 : Int) + 0)) (.finite (g.row - (1 : Int) + 0)) :=
          happly 0 0
    _ = g.place 2 (-3) := by norm_num [place, g]

end Grid

end Antimeridian
