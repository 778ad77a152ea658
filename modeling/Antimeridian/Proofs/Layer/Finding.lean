import Antimeridian.Layer.Rendering
import Mathlib

/-!
# The features that queries find

A query finds the features that meet it, in the order of the file. Those found by several queries
are listed once, under the first query that finds them.
-/

namespace Antimeridian.Layer

variable {α : Type}

section Lists

variable {β : Type} [BEq β] [LawfulBEq β]

/-- Leaving elements out and dropping repetitions can be done in either order. -/
theorem eraseDups_filter (keep : β → Bool) (l : List β) :
    (l.filter keep).eraseDups = l.eraseDups.filter keep := by
  -- the tail without the head's repetitions is shorter, but no part of the list
  induction hlength : l.length using Nat.strong_induction_on generalizing l with
  | _ n ih =>
      cases l with
      | nil => rfl
      | cons b rest =>
          have hrest := List.length_filter_le (fun c => !c == b) rest
          rw [List.length_cons] at hlength
          have hshort := ih _ (by omega) (rest.filter fun c => !c == b) rfl
          cases hkeep : keep b with
          | true =>
              rw [List.filter_cons_of_pos hkeep, List.eraseDups_cons, List.eraseDups_cons,
                List.filter_cons_of_pos hkeep, ← hshort, List.filter_comm]
          | false =>
              have hapart : rest.filter keep = (rest.filter fun c => !c == b).filter keep := by
                rw [List.filter_filter]
                refine List.filter_congr fun c _ => ?_
                by_cases hcb : c = b
                · simp [hcb, hkeep]
                · simp [hcb]
              have hnot : ¬keep b = true := by simp [hkeep]
              rw [List.filter_cons_of_neg hnot, List.eraseDups_cons, List.filter_cons_of_neg hnot,
                hapart, hshort]

theorem eraseDups_of_nodup {l : List β} (hnodup : l.Nodup) : l.eraseDups = l := by
  induction l with
  | nil => rfl
  | cons b rest ih =>
      obtain ⟨hnotin, hrest⟩ := List.nodup_cons.mp hnodup
      have hself : (rest.filter fun c => !c == b) = rest := by
        rw [List.filter_eq_self]
        intro c hc
        have hne : c ≠ b := fun heq => hnotin (heq ▸ hc)
        simp [hne]
      rw [List.eraseDups_cons, hself, ih hrest]

end Lists

variable (overlay : Overlay α) (file : Layer α)

/-- Whether a query finds the feature at a position. -/
def finds (query : Envelope α) (i : Nat) : Bool := file.features[i]?.any (meets overlay query)

/-- The positions of the features that some queries find. -/
def found (queries : List (Envelope α)) : List Nat :=
  (queries.flatMap (file.positionsWithin overlay)).eraseDups

/-- The number of queries before the first one that finds the feature at a position. -/
def firstQuery (queries : List (Envelope α)) (i : Nat) : Nat :=
  queries.findIdx fun query => finds overlay file query i

/-- A position goes before another one if a query before finds it, or the same one and it is first
in the file. -/
def Before (queries : List (Envelope α)) (i j : Nat) : Prop :=
  firstQuery overlay file queries i < firstQuery overlay file queries j ∨
    firstQuery overlay file queries i = firstQuery overlay file queries j ∧ i < j

variable {overlay file} {query : Envelope α} {queries : List (Envelope α)} {i j : Nat}

theorem mem_positionsWithin_iff :
    i ∈ file.positionsWithin overlay query ↔ finds overlay file query i = true := by
  rw [positionsWithin, finds, Option.any_eq_true]
  simp only [List.mem_map, List.mem_filter]
  constructor
  · rintro ⟨⟨f, i⟩, ⟨hmem, hmeets⟩, rfl⟩
    exact ⟨f, List.mk_mem_zipIdx_iff_getElem?.mp hmem, hmeets⟩
  · rintro ⟨f, hf, hmeets⟩
    exact ⟨(f, i), ⟨List.mk_mem_zipIdx_iff_getElem?.mpr hf, hmeets⟩, rfl⟩

theorem pairwise_positionsWithin : (file.positionsWithin overlay query).Pairwise (· < ·) := by
  have hall : (file.features.zipIdx.map (·.2)).Pairwise (· < ·) := by
    rw [List.zipIdx_map_snd]
    exact List.pairwise_lt_range'
  exact hall.sublist (List.filter_sublist.map _)

theorem mem_found_iff :
    i ∈ found overlay file queries ↔ ∃ query ∈ queries, finds overlay file query i = true := by
  simp only [found, List.mem_eraseDups, List.mem_flatMap, mem_positionsWithin_iff]

/-- What the first query finds goes first; what only others find follows as without it. -/
theorem found_cons : found overlay file (query :: queries) =
    file.positionsWithin overlay query ++
      (found overlay file queries).filter fun i => !finds overlay file query i := by
  have hnodup : (file.positionsWithin overlay query).Nodup :=
    pairwise_positionsWithin.imp fun hlt => Nat.ne_of_lt hlt
  rw [found, List.flatMap_cons, List.eraseDups_append, eraseDups_of_nodup hnodup, List.removeAll,
    eraseDups_filter, ← found]
  congr 1
  refine List.filter_congr fun i _ => ?_
  rw [Bool.eq_iff_iff]
  simp [mem_positionsWithin_iff]

theorem pairwise_found : (found overlay file queries).Pairwise (Before overlay file queries) := by
  induction queries with
  | nil => simp [found]
  | cons query rest ih =>
      have hfirst (i : Nat) (hi : finds overlay file query i = true) :
          firstQuery overlay file (query :: rest) i = 0 := by
        simp [firstQuery, List.findIdx_cons, hi]
      have hlater (i : Nat) (hi : finds overlay file query i = false) :
          firstQuery overlay file (query :: rest) i = firstQuery overlay file rest i + 1 := by
        simp [firstQuery, List.findIdx_cons, hi]
      rw [found_cons, List.pairwise_append]
      refine ⟨?_, ?_, ?_⟩
      · refine pairwise_positionsWithin.imp_of_mem fun {i j} hi hj hlt => ?_
        rw [Before, hfirst i (mem_positionsWithin_iff.mp hi),
          hfirst j (mem_positionsWithin_iff.mp hj)]
        exact .inr ⟨rfl, hlt⟩
      · refine (ih.filter _).imp_of_mem fun {i j} hi hj hbefore => ?_
        have hi' := (List.mem_filter.mp hi).2
        have hj' := (List.mem_filter.mp hj).2
        rw [Bool.not_eq_true'] at hi' hj'
        rw [Before, hlater i hi', hlater j hj']
        rcases hbefore with hlt | ⟨heq, hlt⟩
        · exact .inl (Nat.succ_lt_succ hlt)
        · exact .inr ⟨congrArg Nat.succ heq, hlt⟩
      · intro i hi j hj
        have hj' := (List.mem_filter.mp hj).2
        rw [Bool.not_eq_true'] at hj'
        rw [Before, hfirst i (mem_positionsWithin_iff.mp hi), hlater j hj']
        exact .inl (Nat.succ_pos _)

/-- No feature is listed twice. -/
theorem nodup_found : (found overlay file queries).Nodup := by
  refine pairwise_found.imp ?_
  rintro i j (hlt | ⟨-, hlt⟩) rfl
  · exact lt_irrefl _ hlt
  · exact lt_irrefl _ hlt

/-- What is gathered are the features at the positions that are found. -/
theorem gather_features : (gather overlay file queries).features =
    (found overlay file queries).filterMap (file.features[·]?) := by
  rw [gather, ← found]
  cases found overlay file queries <;> rfl

theorem gather_crs : (gather overlay file queries).crs = file.crs := by
  rw [gather]
  split <;> rfl

end Antimeridian.Layer
