import Antimeridian.Integral
import Mathlib

/-!
# Exact scalars

The numbers of an ordered field, the two infinities, and the missing number. Operations on
numbers are those of the field, without rounding; whatever else they yield follows the rules of
binary64, except that zero has no sign.

Every lemma below moves `finite` outwards: on numbers, the scalars of the library are the
arithmetic of the field.
-/

namespace Antimeridian

/-! ## Numerals

A numeral of a field comes with a proof that it is at least two. These are the ones that definitions
refer to. -/

instance atLeastTwo_two : Nat.AtLeastTwo 2 := ⟨le_rfl⟩

instance atLeastTwo_ten : Nat.AtLeastTwo 10 := ⟨by decide⟩

instance atLeastTwo_halfTurn : Nat.AtLeastTwo 180 := ⟨by decide⟩

instance atLeastTwo_turn : Nat.AtLeastTwo 360 := ⟨by decide⟩

/-- A number of a field, an infinity, or no number. -/
inductive Extended (K : Type) where
  | finite (x : K)
  | above
  | below
  | missing

namespace Extended

variable {K : Type} [Field K] [LinearOrder K]

/-- The infinity with the sign of a number; zero has none. -/
def signed (x : K) : Extended K := if 0 < x then above else if x < 0 then below else missing

protected def neg : Extended K → Extended K
  | finite x => finite (-x)
  | above => below
  | below => above
  | missing => missing

protected def add : Extended K → Extended K → Extended K
  | finite x, finite y => finite (x + y)
  | missing, _ | _, missing => missing
  | above, below | below, above => missing
  | above, _ | _, above => above
  | below, _ | _, below => below

protected def mul : Extended K → Extended K → Extended K
  | finite x, finite y => finite (x * y)
  | missing, _ | _, missing => missing
  | finite x, above | above, finite x => signed x
  | finite x, below | below, finite x => signed (-x)
  | above, above | below, below => above
  | above, below | below, above => below

protected def div : Extended K → Extended K → Extended K
  | finite x, finite y => if y = 0 then signed x else finite (x / y)
  | finite _, above | finite _, below => finite 0
  | above, finite y => if 0 ≤ y then above else below
  | below, finite y => if 0 ≤ y then below else above
  | _, _ => missing

protected def le : Extended K → Extended K → Prop
  | missing, _ | _, missing => False
  | finite x, finite y => x ≤ y
  | below, _ | _, above => True
  | _, _ => False

protected def lt : Extended K → Extended K → Prop
  | finite x, finite y => x < y
  | below, finite _ | below, above | finite _, above => True
  | _, _ => False

protected def beq : Extended K → Extended K → Bool
  | finite x, finite y => x = y
  | above, above | below, below => true
  | _, _ => false

protected def mod [FloorRing K] : Extended K → Extended K → Extended K
  | finite x, finite p => if p = 0 then missing else finite (x - p * ⌊x / p⌋)
  | finite x, above => if x < 0 then above else finite x
  | finite x, below => if 0 < x then below else finite x
  | _, _ => missing

protected def floor [FloorRing K] : Extended K → Int
  | finite x => ⌊x⌋
  | _ => 0

protected def isFinite : Extended K → Bool
  | finite _ => true
  | _ => false

instance decidableLe : DecidableRel (Extended.le (K := K))
  | finite x, finite y => inferInstanceAs (Decidable (x ≤ y))
  | finite _, above | below, finite _ | below, above | below, below | above, above =>
    .isTrue trivial
  | missing, _ | finite _, missing | above, missing | below, missing => .isFalse id
  | above, finite _ | above, below | finite _, below => .isFalse id

instance decidableLt : DecidableRel (Extended.lt (K := K))
  | finite x, finite y => inferInstanceAs (Decidable (x < y))
  | finite _, above | below, finite _ | below, above => .isTrue trivial
  | missing, _ | finite _, missing | above, missing | below, missing => .isFalse id
  | above, finite _ | above, below | above, above | below, below | finite _, below => .isFalse id

instance [FloorRing K] : Scalar (Extended K) where
  add := Extended.add
  sub a b := Extended.add a (Extended.neg b)
  mul := Extended.mul
  div := Extended.div
  neg := Extended.neg
  le := Extended.le
  lt := Extended.lt
  beq := Extended.beq
  decidableLE := decidableLe
  decidableLT := decidableLt
  decimal m p := finite (m / 10 ^ p)
  infinity := above
  floor := Extended.floor
  isFinite := Extended.isFinite
  mod := Extended.mod

variable [FloorRing K]

/-! ## Arithmetic of numbers -/

@[simp] theorem finite_add (x y : K) : finite x + finite y = finite (x + y) := rfl

@[simp] theorem finite_sub (x y : K) : finite x - finite y = finite (x - y) :=
  congrArg finite (sub_eq_add_neg x y).symm

@[simp] theorem finite_mul (x y : K) : finite x * finite y = finite (x * y) := rfl

@[simp] theorem finite_neg (x : K) : -finite x = finite (-x) := rfl

@[simp] theorem finite_div (x : K) {y : K} (hy : y ≠ 0) : finite x / finite y = finite (x / y) :=
  if_neg hy

@[simp] theorem finite_le_finite {x y : K} : finite x ≤ finite y ↔ x ≤ y := Iff.rfl

@[simp] theorem finite_lt_finite {x y : K} : finite x < finite y ↔ x < y := Iff.rfl

@[simp] theorem finite_beq_finite (x y : K) : (finite x == finite y) = decide (x = y) := rfl

omit [Field K] [LinearOrder K] [FloorRing K] in
theorem finite_injective : Function.Injective (finite : K → Extended K) :=
  fun _ _ heq => Extended.finite.inj heq

/-! ## Sums -/

instance : Std.Commutative (α := Extended K) (· + ·) where
  comm a b := by cases a <;> cases b <;> first | rfl | exact congrArg finite (add_comm _ _)

instance : Std.Associative (α := Extended K) (· + ·) where
  assoc a b c := by
    cases a <;> cases b <;> cases c <;> first | rfl | exact congrArg finite (add_assoc _ _ _)

protected theorem sub_eq_add_neg (a b : Extended K) : a - b = a + -b := rfl

theorem add_finite_zero (a : Extended K) : a + finite 0 = a := by
  cases a with
  | finite x => rw [finite_add, add_zero]
  | above | below | missing => rfl

theorem add_sub_add_finite (a b : Extended K) (x : K) : a + finite x - (b + finite x) = a - b := by
  cases a with
  | finite y =>
      cases b with
      | finite z => rw [finite_add, finite_add, finite_sub, finite_sub, add_sub_add_right_eq_sub]
      | above | below | missing => rfl
  | above | below | missing => cases b <;> rfl

/-! ## Constants -/

@[simp] theorem zero_eq : (0 : Extended K) = finite 0 := by
  change finite (((0 : Nat) : Int) / 10 ^ 0 : K) = _
  simp

@[simp] theorem one_eq : (1 : Extended K) = finite 1 := by
  change finite (((1 : Nat) : Int) / 10 ^ 0 : K) = _
  simp

@[simp] theorem ofNat_eq (n : Nat) [n.AtLeastTwo] :
    (OfNat.ofNat n : Extended K) = finite (OfNat.ofNat n) := by
  change finite (((OfNat.ofNat n : Nat) : Int) / 10 ^ 0 : K) = _
  simp

@[simp] theorem ofScientific_eq (m : Nat) (e : Nat) :
    (OfScientific.ofScientific m true e : Extended K) = finite ((m : K) / 10 ^ e) := by
  change finite (((m : Nat) : Int) / 10 ^ e : K) = _
  simp

@[simp] theorem ofInt_eq (n : Int) : (Scalar.ofInt n : Extended K) = finite (n : K) := by
  change finite ((n : Int) / 10 ^ 0 : K) = _
  simp

@[simp] theorem infinity_eq : (Scalar.infinity : Extended K) = above := rfl

@[simp] theorem neg_above : -(above : Extended K) = below := rfl

/-! ## Choices and integers -/

@[simp] theorem max_finite (x y : K) : Scalar.max (finite x) (finite y) = finite (max x y) := by
  rw [Scalar.max, max_def']
  by_cases hlt : x < y
  · simp [hlt, not_le.mpr hlt]
  · simp [hlt, not_lt.mp hlt]

@[simp] theorem min_finite (x y : K) : Scalar.min (finite x) (finite y) = finite (min x y) := by
  rw [Scalar.min, min_def]
  by_cases hlt : y < x
  · simp [hlt, not_le.mpr hlt]
  · simp [hlt, not_lt.mp hlt]

@[simp] theorem isFinite_finite (x : K) : Scalar.isFinite (finite x) = true := rfl

@[simp] theorem floor_finite (x : K) : Scalar.floor (finite x) = ⌊x⌋ := rfl

@[simp] theorem mod_finite (x : K) {p : K} (hp : p ≠ 0) :
    Scalar.mod (finite x) (finite p) = finite (x - p * ⌊x / p⌋) :=
  if_neg hp

/-! ## Bounded scalars -/

theorem exists_eq_finite_of_lt_of_le {x y : K} {a : Extended K} (hlow : finite x < a)
    (hhigh : a ≤ finite y) : ∃ z, a = finite z := by
  cases a with
  | finite z => exact ⟨z, rfl⟩
  | above => exact hhigh.elim
  | below => exact hlow.elim
  | missing => exact hlow.elim

theorem exists_eq_finite_of_le_of_lt {x y : K} {a : Extended K} (hlow : finite x ≤ a)
    (hhigh : a < finite y) : ∃ z, a = finite z := by
  cases a with
  | finite z => exact ⟨z, rfl⟩
  | above => exact hhigh.elim
  | below => exact hlow.elim
  | missing => exact hlow.elim

theorem isFinite_iff {a : Extended K} : Scalar.isFinite a = true ↔ ∃ x, a = finite x := by
  cases a with
  | finite x => simp
  | above => exact iff_of_false Bool.false_ne_true (by simp)
  | below => exact iff_of_false Bool.false_ne_true (by simp)
  | missing => exact iff_of_false Bool.false_ne_true (by simp)

theorem isFinite_add_finite (a : Extended K) (x : K) :
    Scalar.isFinite (a + finite x) = Scalar.isFinite a := by
  cases a <;> rfl

theorem exists_eq_finite_of_add {a b : Extended K} {x : K} (hsum : a + b = finite x) :
    ∃ y, a = finite y := by
  cases a with
  | finite y => exact ⟨y, rfl⟩
  | above | below | missing => cases b <;> cases hsum

/-- A difference is a number only between numbers. -/
theorem exists_eq_finite_of_abs_sub {a b : Extended K}
    (hfinite : Scalar.isFinite (Scalar.abs (a - b)) = true) :
    ∃ x y, a = finite x ∧ b = finite y := by
  have habs (c : Extended K) (hc : Scalar.isFinite (Scalar.abs c) = true) :
      Scalar.isFinite c = true := by
    rw [Scalar.abs] at hc
    split at hc
    · cases c <;> exact hc
    · exact hc
  have hsub := habs _ hfinite
  cases a <;> cases b <;> first | exact ⟨_, _, rfl, rfl⟩ | cases hsub

theorem isFinite_of_ofFinite {read : Extended K → Int} {a : Extended K} {n : Int}
    (hok : Integral.ofFinite read a = .ok n) : Scalar.isFinite a = true := by
  rw [Integral.ofFinite] at hok
  split at hok
  next hfinite => exact hfinite
  next =>
    split at hok
    · contradiction
    · contradiction

theorem exists_eq_finite_of_div {x p : K} {a : Extended K}
    (hfinite : Scalar.isFinite ((a - finite x) / finite p) = true) : ∃ z, a = finite z := by
  have hinfinite (q : K) : Scalar.isFinite (if 0 ≤ q then (above : Extended K) else below) = false ∧
      Scalar.isFinite (if 0 ≤ q then (below : Extended K) else above) = false := by
    split <;> exact ⟨rfl, rfl⟩
  cases a with
  | finite z => exact ⟨z, rfl⟩
  | above => exact absurd ((hinfinite p).1.symm.trans hfinite) Bool.false_ne_true
  | below => exact absurd ((hinfinite p).2.symm.trans hfinite) Bool.false_ne_true
  | missing => cases hfinite

variable [IsStrictOrderedRing K]

theorem add_finite_le_add_finite_iff {a b : Extended K} {x : K} :
    a + finite x ≤ b + finite x ↔ a ≤ b := by
  cases a with
  | finite y =>
      cases b with
      | finite z => simp
      | above | below | missing => rfl
  | above | below | missing => cases b <;> rfl

@[simp] theorem abs_finite (x : K) : Scalar.abs (finite x) = finite |x| := by
  rw [Scalar.abs]
  by_cases hneg : x < 0
  · simp [hneg, abs_of_neg hneg]
  · simp [hneg, abs_of_nonneg (not_lt.mp hneg)]

@[simp] theorem ceil_finite (x : K) : Scalar.ceil (finite x) = ⌈x⌉ := by
  rw [Scalar.ceil, finite_neg, floor_finite, Int.floor_neg, neg_neg]

omit [IsStrictOrderedRing K] in
@[simp] theorem integral_floor_finite (x : K) :
    Integral.floor (finite x) = .ok ⌊x⌋ := rfl

@[simp] theorem integral_ceil_finite (x : K) : Integral.ceil (finite x) = .ok ⌈x⌉ := by
  rw [Integral.ceil, Integral.ofFinite, isFinite_finite, ceil_finite]
  rfl

/-! ## Rounding -/

omit [IsStrictOrderedRing K] in
theorem roundEven_finite (x : K) :
    Scalar.roundEven (finite x) = ⌊x⌋ ∧ x - ⌊x⌋ ≤ 1 / 2 ∨
      Scalar.roundEven (finite x) = ⌊x⌋ + 1 ∧ 1 / 2 ≤ x - ⌊x⌋ := by
  have hhalf : (0.5 : Extended K) = finite (1 / 2) := by
    rw [ofScientific_eq]
    norm_num
  simp only [Scalar.roundEven, floor_finite, ofInt_eq, finite_sub, hhalf, finite_lt_finite]
  split
  next hbelow => exact .inl ⟨rfl, hbelow.le⟩
  next hhigh =>
    rw [not_lt] at hhigh
    split
    next => exact .inr ⟨rfl, hhigh⟩
    next hlow =>
      rw [not_lt] at hlow
      by_cases heven : ⌊x⌋ % 2 = 0
      · exact .inl ⟨if_pos heven, hlow⟩
      · exact .inr ⟨if_neg heven, hhigh⟩

/-- Rounding goes to one of the two integers next to a number, and not to the farther one. -/
theorem abs_sub_roundEven_le (x : K) : |x - Scalar.roundEven (finite x)| ≤ 1 / 2 := by
  have hlow := Int.floor_le x
  have hhigh := Int.lt_floor_add_one x
  rw [abs_le]
  rcases roundEven_finite x with ⟨hround, hrest⟩ | ⟨hround, hrest⟩ <;> rw [hround]
  · constructor <;> linarith
  · push_cast
    constructor <;> linarith

/-- Rounding never passes an integer. -/
theorem roundEven_le {x : K} {n : Int} (hle : x ≤ n) : Scalar.roundEven (finite x) ≤ n := by
  obtain ⟨-, hround⟩ := abs_sub_le_iff.mp (abs_sub_roundEven_le x)
  have hlt : (Scalar.roundEven (finite x) : K) < (n + 1 : Int) := by
    push_cast
    linarith
  exact Int.lt_add_one_iff.mp (Int.cast_lt.mp hlt)

theorem le_roundEven {x : K} {n : Int} (hle : n ≤ x) : n ≤ Scalar.roundEven (finite x) := by
  obtain ⟨hround, -⟩ := abs_sub_le_iff.mp (abs_sub_roundEven_le x)
  have hlt : (n : K) < (Scalar.roundEven (finite x) + 1 : Int) := by
    push_cast
    linarith
  exact Int.lt_add_one_iff.mp (Int.cast_lt.mp hlt)

omit [IsStrictOrderedRing K] in
@[simp] theorem roundWhole_finite (x : K) :
    Scalar.roundWhole (finite x) = finite (Scalar.roundEven (finite x) : K) := by
  rw [Scalar.roundWhole, isFinite_finite, if_pos rfl, ofInt_eq]

/-! ## Lists of numbers -/

omit [IsStrictOrderedRing K] in
theorem minimum_finite (x : K) (xs : List K) :
    Scalar.minimum (finite x) (xs.map finite) = finite (xs.foldl min x) := by
  induction xs generalizing x with
  | nil => rfl
  | cons y ys ih =>
      rw [List.map_cons, Scalar.minimum, List.foldl_cons, min_finite]
      exact ih _

omit [IsStrictOrderedRing K] in
theorem maximum_finite (x : K) (xs : List K) :
    Scalar.maximum (finite x) (xs.map finite) = finite (xs.foldl max x) := by
  induction xs generalizing x with
  | nil => rfl
  | cons y ys ih =>
      rw [List.map_cons, Scalar.maximum, List.foldl_cons, max_finite]
      exact ih _

end Extended

end Antimeridian
