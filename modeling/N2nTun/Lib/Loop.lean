import Mathlib.Tactic

/-!
# Loops

A loop is a step that gives the next state or the result. It runs with a bound on the number of
passes; what it ends with does not depend on the bound.

## Main definitions

* `loop` — at most `n` passes.
* `Ends` — the loop ends with a result.

## Main results

* `Ends.unique` — there is one result.
* `ends_of_next`, `ends_of_done` — a pass.
* `loop_isSome` — **a loop whose measure falls in every pass ends**, within a number of passes.
-/

namespace Loops

variable {σ ρ : Type*}

/-- At most `n` passes of the loop. -/
def loop (step : σ → σ ⊕ ρ) : ℕ → σ → Option ρ
  | 0, _ => none
  | n + 1, s =>
    match step s with
    | .inl s' => loop step n s'
    | .inr r => some r

/-- The loop ends with the result `r`. -/
def Ends (step : σ → σ ⊕ ρ) (s : σ) (r : ρ) : Prop := ∃ n, loop step n s = some r

variable {step : σ → σ ⊕ ρ} {s s' : σ} {r r' : ρ}

/-- A result stays when more passes are allowed. -/
theorem loop_mono {n m : ℕ} (h : loop step n s = some r) (hle : n ≤ m) :
    loop step m s = some r := by
  induction n generalizing s m with
  | zero => cases h
  | succ n ih =>
    obtain ⟨m, rfl⟩ : ∃ k, m = k + 1 := ⟨m - 1, by omega⟩
    rw [loop] at h ⊢
    cases hstep : step s with
    | inl s' =>
      rw [hstep] at h
      exact ih h (by omega)
    | inr r' =>
      rw [hstep] at h
      exact h

theorem Ends.unique (h : Ends step s r) (h' : Ends step s r') : r = r' := by
  obtain ⟨n, hn⟩ := h
  obtain ⟨m, hm⟩ := h'
  have hn' := loop_mono hn (Nat.le_max_left n m)
  have hm' := loop_mono hm (Nat.le_max_right n m)
  exact Option.some.inj (hn'.symm.trans hm')

/-- A pass that goes on. -/
theorem ends_of_next (h : step s = .inl s') : Ends step s r ↔ Ends step s' r := by
  constructor
  · rintro ⟨n, hn⟩
    cases n with
    | zero => cases hn
    | succ n =>
      rw [loop, h] at hn
      exact ⟨n, hn⟩
  · rintro ⟨n, hn⟩
    exact ⟨n + 1, by rw [loop, h]; exact hn⟩

/-- The last pass. -/
theorem ends_of_done (h : step s = .inr r') : Ends step s r ↔ r = r' := by
  constructor
  · rintro ⟨n, hn⟩
    cases n with
    | zero => cases hn
    | succ n =>
      rw [loop, h] at hn
      exact (Option.some.inj hn).symm
  · rintro rfl
    exact ⟨1, by rw [loop, h]⟩

/-- **A loop whose measure falls in every pass ends.** -/
theorem loop_isSome {μ : σ → ℕ} (h : ∀ s s', step s = .inl s' → μ s' < μ s) (s : σ) :
    (loop step (μ s + 1) s).isSome := by
  suffices hall : ∀ n s, μ s < n → (loop step n s).isSome from hall _ s (Nat.lt_succ_self _)
  intro n
  induction n with
  | zero => intro s hs; omega
  | succ n ih =>
    intro s hs
    rw [loop]
    cases hstep : step s with
    | inl s' => exact ih s' (by have := h s s' hstep; omega)
    | inr r => rfl

end Loops
