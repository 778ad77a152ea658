import Antimeridian.Envelope.Split
import Mathlib

/-!
# Whole offsets, nearest first

The offsets of a range are its whole numbers, each of them once, in the order of their distance
from zero; of two equally far the negative one comes first.
-/

namespace Antimeridian.Envelope

/-- Whether an offset comes before another one. -/
def Nearer (j k : Int) : Prop := j.natAbs < k.natAbs ∨ j.natAbs = k.natAbs ∧ j < k

instance : DecidableRel Nearer := fun _ _ => inferInstanceAs (Decidable (_ ∨ _))

theorem Nearer.trans {i j k : Int} (hfirst : Nearer i j) (hsecond : Nearer j k) : Nearer i k := by
  unfold Nearer at *
  omega

theorem Nearer.irrefl (k : Int) : ¬Nearer k k := by
  unfold Nearer
  omega

theorem mem_offsets {low high k : Int} : k ∈ offsets low high ↔ low ≤ k ∧ k ≤ high := by
  simp only [offsets, List.mem_mergeSort, List.mem_map, List.mem_range]
  constructor
  · rintro ⟨i, hi, rfl⟩
    omega
  · rintro ⟨hlow, hhigh⟩
    exact ⟨(k - low).toNat, by omega, by omega⟩

theorem nodup_offsets (low high : Int) : (offsets low high).Nodup := by
  rw [offsets, (List.mergeSort_perm _ _).nodup_iff]
  refine List.Nodup.map (fun i j heq => ?_) List.nodup_range
  exact Int.ofNat.inj (add_left_cancel heq)

/-- The order of the offsets is strict: none comes twice. -/
theorem pairwise_offsets (low high : Int) : (offsets low high).Pairwise Nearer := by
  have hsorted : (offsets low high).Pairwise fun j k =>
      (j.natAbs < k.natAbs || (j.natAbs == k.natAbs && j ≤ k)) = true := by
    refine List.pairwise_mergeSort (fun i j k hfirst hsecond => ?_) (fun j k => ?_) _
    · simp only [Bool.or_eq_true, decide_eq_true_eq, Bool.and_eq_true, beq_iff_eq] at *
      omega
    · simp only [Bool.or_eq_true, decide_eq_true_eq, Bool.and_eq_true, beq_iff_eq]
      omega
  refine (hsorted.and (nodup_offsets low high)).imp fun hpair => ?_
  simp only [Bool.or_eq_true, decide_eq_true_eq, Bool.and_eq_true, beq_iff_eq] at hpair
  unfold Nearer
  omega

/-- A list in strict order is determined by its elements. -/
theorem eq_of_pairwise_nearer {js ks : List Int} (hjs : js.Pairwise Nearer)
    (hks : ks.Pairwise Nearer) (hmem : ∀ k, k ∈ js ↔ k ∈ ks) : js = ks := by
  have hnodup {ls : List Int} (hls : ls.Pairwise Nearer) : ls.Nodup := by
    refine hls.imp fun hnear heq => ?_
    subst heq
    exact Nearer.irrefl _ hnear
  have hperm : js.Perm ks :=
    (List.perm_ext_iff_of_nodup (hnodup hjs) (hnodup hks)).mpr hmem
  exact hperm.eq_of_pairwise
    (fun j k _ _ hjk hkj => (Nearer.irrefl j (hjk.trans hkj)).elim) hjs hks

example : offsets (-2) 3 = [0, -1, 1, -2, 2, 3] := by
  refine eq_of_pairwise_nearer (pairwise_offsets _ _) (by decide) fun k => ?_
  simp only [mem_offsets, List.mem_cons, List.not_mem_nil, or_false]
  omega

end Antimeridian.Envelope
