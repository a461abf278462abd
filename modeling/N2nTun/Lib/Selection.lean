import Mathlib.Data.List.MinMax
import Mathlib.Tactic

/-!
# The best of a list

A scan that keeps the best candidate so far, where a candidate with score zero does not count and
a later one has to be better than the one kept.

## Main definitions

* `scanBest` — the scan, with the score of the candidate that is kept.

## Main results

* `scanBest_eq_argmax` — it finds the first maximum among the candidates that count.
* `scanBest_eq_none_iff`, `scanBest_max` — what is found.
-/

namespace Selection

variable {α : Type*} (score : α → ℕ)

/-- One step: the candidate replaces the one that is kept if it is better. -/
def keepBest (best : Option α × ℕ) (a : α) : Option α × ℕ :=
  if best.2 < score a then (some a, score a) else best

/-- The scan of a list. -/
def scanBest (l : List α) : Option α × ℕ := l.foldl (keepBest score) (none, 0)

/-- The score that is kept is the one of the candidate. -/
theorem scanBest_snd (l : List α) :
    (scanBest score l).2 = ((scanBest score l).1.map score).getD 0 := by
  induction l using List.reverseRecOn with
  | nil => rfl
  | append_singleton l a ih =>
    rw [scanBest, List.foldl_append, List.foldl_cons, List.foldl_nil, ← scanBest, keepBest]
    split_ifs
    · rfl
    · exact ih

/-- **The scan finds the first maximum** among the candidates that count. -/
theorem scanBest_eq_argmax (l : List α) :
    (scanBest score l).1 = (l.filter fun a => decide (0 < score a)).argmax score := by
  induction l using List.reverseRecOn with
  | nil => rfl
  | append_singleton l a ih =>
    have hkept := scanBest_snd score l
    rw [scanBest, List.foldl_append, List.foldl_cons, List.foldl_nil, ← scanBest, keepBest,
      List.filter_append]
    by_cases hzero : 0 < score a
    · have hcounts : [a].filter (fun a => decide (0 < score a)) = [a] := by simp [hzero]
      rw [hcounts, List.argmax_concat, ← ih]
      cases hbest : (scanBest score l).1 with
      | none =>
        rw [hbest] at hkept
        rw [hkept, if_pos (show (none.map score).getD 0 < score a from hzero)]
      | some m =>
        have hscore : (scanBest score l).2 = score m := by rw [hkept, hbest]; rfl
        rw [hscore]
        split_ifs with hbetter
        · simp [hbetter]
        · simp [hbetter, hbest]
    · -- the candidate does not count
      have hnone : [a].filter (fun a => decide (0 < score a)) = [] := by simp [hzero]
      rw [hnone, List.append_nil, ← ih, if_neg (by omega)]

variable {score} {l : List α}

theorem scanBest_eq_none_iff : (scanBest score l).1 = none ↔ ∀ a ∈ l, score a = 0 := by
  rw [scanBest_eq_argmax, List.argmax_eq_none, List.filter_eq_nil_iff]
  simp

/-- What is found counts, and nothing is better. -/
theorem scanBest_max {m : α} (h : (scanBest score l).1 = some m) :
    m ∈ l ∧ 0 < score m ∧ ∀ a ∈ l, score a ≤ score m := by
  rw [scanBest_eq_argmax] at h
  obtain ⟨hmem, hpos⟩ := List.mem_filter.mp (List.argmax_mem h)
  refine ⟨hmem, of_decide_eq_true hpos, fun a ha => ?_⟩
  by_cases hcount : 0 < score a
  · exact List.le_of_mem_argmax (List.mem_filter.mpr ⟨ha, decide_eq_true hcount⟩) h
  · omega

end Selection
