import Antimeridian.Proofs.Scalar.Extended
import Antimeridian.Scalar.Binary64

/-!
# The order of scalars

Numbers and the two infinities are in a linear order. What is missing compares with nothing, not
even with itself. Both the exact scalars and binary64 compare like that, so that whatever follows
from it holds where the library runs, roundings and signed zeros included.
-/

namespace Antimeridian

/-- Scalars that are ordered but for the missing ones, which compare with nothing. -/
class OrderedScalar (α : Type) [Scalar α] : Prop where
  /-- Only what compares with itself compares with anything. -/
  refl_of_le {a b : α} : a ≤ b → a ≤ a ∧ b ≤ b
  le_trans {a b c : α} : a ≤ b → b ≤ c → a ≤ c
  le_total {a b : α} : a ≤ a → b ≤ b → a ≤ b ∨ b ≤ a
  lt_iff {a b : α} : a < b ↔ a ≤ b ∧ ¬b ≤ a
  /-- The infinity exceeds its opposite. -/
  not_infinity_le : ¬(Scalar.infinity : α) ≤ -Scalar.infinity

namespace OrderedScalar

/-- Scalars are ordered where each of them has a rank or is missing. -/
theorem of_rank {α R : Type} [Scalar α] [LinearOrder R] (rank : α → Option R)
    (hle : ∀ a b : α, a ≤ b ↔ ∃ x ∈ rank a, ∃ y ∈ rank b, x ≤ y)
    (hlt : ∀ a b : α, a < b ↔ ∃ x ∈ rank a, ∃ y ∈ rank b, x < y)
    (hinfinity : ¬(Scalar.infinity : α) ≤ -Scalar.infinity) : OrderedScalar α where
  refl_of_le {a b} hab := by
    obtain ⟨x, hx, y, hy, -⟩ := (hle a b).mp hab
    exact ⟨(hle a a).mpr ⟨x, hx, x, hx, le_rfl⟩, (hle b b).mpr ⟨y, hy, y, hy, le_rfl⟩⟩
  le_trans {a b c} hab hbc := by
    obtain ⟨x, hx, y, hy, hxy⟩ := (hle a b).mp hab
    obtain ⟨y', hy', z, hz, hyz⟩ := (hle b c).mp hbc
    obtain rfl := Option.mem_unique hy hy'
    exact (hle a c).mpr ⟨x, hx, z, hz, hxy.trans hyz⟩
  le_total {a b} ha hb := by
    obtain ⟨x, hx, -⟩ := (hle a a).mp ha
    obtain ⟨y, hy, -⟩ := (hle b b).mp hb
    rcases LinearOrder.le_total x y with hxy | hyx
    · exact .inl ((hle a b).mpr ⟨x, hx, y, hy, hxy⟩)
    · exact .inr ((hle b a).mpr ⟨y, hy, x, hx, hyx⟩)
  lt_iff {a b} := by
    rw [hlt, hle, hle]
    constructor
    · rintro ⟨x, hx, y, hy, hxy⟩
      refine ⟨⟨x, hx, y, hy, hxy.le⟩, ?_⟩
      rintro ⟨y', hy', x', hx', hyx⟩
      obtain rfl := Option.mem_unique hx hx'
      obtain rfl := Option.mem_unique hy hy'
      exact hxy.not_ge hyx
    · rintro ⟨⟨x, hx, y, hy, -⟩, hnot⟩
      exact ⟨x, hx, y, hy, not_le.mp fun hyx => hnot ⟨y, hy, x, hx, hyx⟩⟩
  not_infinity_le := hinfinity

variable {α : Type} [Scalar α] [OrderedScalar α] {a b c : α}

/-! ## Choices -/

theorem le_of_not_lt (ha : a ≤ a) (hb : b ≤ b) (hnot : ¬a < b) : b ≤ a := by
  by_contra hba
  exact hnot (lt_iff.mpr ⟨(le_total ha hb).resolve_right hba, hba⟩)

/-- What exceeds two scalars exceeds the larger of them, and the larger exceeds both. -/
theorem max_le_iff (ha : a ≤ a) (hb : b ≤ b) : Scalar.max a b ≤ c ↔ a ≤ c ∧ b ≤ c := by
  rw [Scalar.max]
  split
  next hlt => exact ⟨fun hbc => ⟨le_trans (lt_iff.mp hlt).1 hbc, hbc⟩, fun hc => hc.2⟩
  next hnot => exact ⟨fun hac => ⟨hac, le_trans (le_of_not_lt ha hb hnot) hac⟩, fun hc => hc.1⟩

theorem le_min_iff (ha : a ≤ a) (hb : b ≤ b) : c ≤ Scalar.min a b ↔ c ≤ a ∧ c ≤ b := by
  rw [Scalar.min]
  split
  next hlt => exact ⟨fun hcb => ⟨le_trans hcb (lt_iff.mp hlt).1, hcb⟩, fun hc => hc.2⟩
  next hnot => exact ⟨fun hca => ⟨hca, le_trans hca (le_of_not_lt hb ha hnot)⟩, fun hc => hc.1⟩

theorem le_max (ha : a ≤ a) (hb : b ≤ b) : a ≤ Scalar.max a b ∧ b ≤ Scalar.max a b := by
  rw [← max_le_iff ha hb, Scalar.max]
  split
  · exact hb
  · exact ha

theorem min_le (ha : a ≤ a) (hb : b ≤ b) : Scalar.min a b ≤ a ∧ Scalar.min a b ≤ b := by
  rw [← le_min_iff ha hb, Scalar.min]
  split
  · exact hb
  · exact ha

end OrderedScalar

/-! ## Exact scalars -/

namespace Extended

variable {K : Type} [Field K] [LinearOrder K] [FloorRing K]

/-- The place of an exact scalar among the numbers and the infinities around them. -/
def rank : Extended K → Option (WithBot (WithTop K))
  | finite x => some ((x : WithTop K) : WithBot (WithTop K))
  | above => some ((⊤ : WithTop K) : WithBot (WithTop K))
  | below => some ⊥
  | missing => none

instance : OrderedScalar (Extended K) := by
  refine .of_rank rank (fun a b => ?_) (fun a b => ?_) id
  · change Extended.le a b ↔ _
    cases a <;> cases b <;> simp [rank, Extended.le]
  · change Extended.lt a b ↔ _
    cases a <;> cases b <;> simp [rank, Extended.lt, lt_top_iff_ne_top]

end Extended

/-! ## Binary64 scalars -/

namespace Binary64

open Float.Model

/-- The place of a double among the others: its sign and whether it is infinite, then its exponent,
then its significand. -/
def rank : UnpackedFloat → Option (ℤ ×ₗ ℤ ×ₗ ℤ)
  | .notANumber => none
  | .infinity .negative => some (toLex (-2, toLex (0, 0)))
  | .finite .negative m e _ => some (toLex (-1, toLex (-e, -m)))
  | .zero _ => some (toLex (0, toLex (0, 0)))
  | .finite .positive m e _ => some (toLex (1, toLex (e, m)))
  | .infinity .positive => some (toLex (2, toLex (0, 0)))

theorem then_compare (e e' : ℤ) (m m' : ℕ) :
    (compare e e').then (compare m m') = cmp (toLex (e, m)) (toLex (e', m')) := by
  refine (Ordering.Compares.cmp_eq ?_).symm
  rcases lt_trichotomy e e' with hlt | rfl | hgt
  · rw [compare_lt_iff_lt.mpr hlt]
    exact Prod.Lex.toLex_lt_toLex.mpr (.inl hlt)
  · rw [compare_eq_iff_eq.mpr rfl]
    rcases lt_trichotomy m m' with hlt | rfl | hgt
    · rw [compare_lt_iff_lt.mpr hlt]
      exact Prod.Lex.toLex_lt_toLex.mpr (.inr ⟨rfl, hlt⟩)
    · rw [compare_eq_iff_eq.mpr rfl]
      rfl
    · rw [compare_gt_iff_gt.mpr hgt]
      exact Prod.Lex.toLex_lt_toLex.mpr (.inr ⟨rfl, hgt⟩)
  · rw [compare_gt_iff_gt.mpr hgt]
    exact Prod.Lex.toLex_lt_toLex.mpr (.inl hgt)

/-- Doubles compare as their ranks do; the two zeros have the same one. -/
theorem compare_eq (a b : UnpackedFloat) :
    a.compare b = (rank a).bind fun x => (rank b).map (cmp x) := by
  rcases a with ⟨_ | _⟩ | _ | ⟨_ | _⟩ | ⟨_ | _, m, e, _⟩ <;>
    rcases b with ⟨_ | _⟩ | _ | ⟨_ | _⟩ | ⟨_ | _, m', e', _⟩ <;>
    simp only [UnpackedFloat.compare, rank, then_compare, cmp_swap, Option.bind_some,
      Option.bind_none, Option.map_some, Option.map_none] <;>
    simp [cmp, cmpUsing, Prod.Lex.toLex_lt_toLex, @eq_comm ℤ, compare]

instance : OrderedScalar Float := by
  refine .of_rank (fun a => rank a.toModel.unpack) (fun a b => ?_) (fun a b => ?_)
    (by decide +kernel)
  · have hle : a ≤ b ↔ a.toModel.unpack.le b.toModel.unpack = true := decide_eq_true_iff
    rw [hle, UnpackedFloat.le, compare_eq]
    cases rank a.toModel.unpack <;> cases rank b.toModel.unpack <;>
      simp [Ordering.isLE_iff_ne_gt]
  · have hlt : a < b ↔ a.toModel.unpack.lt b.toModel.unpack = true := decide_eq_true_iff
    rw [hlt, UnpackedFloat.lt, compare_eq]
    cases rank a.toModel.unpack <;> cases rank b.toModel.unpack <;> simp

end Binary64

end Antimeridian
