import Mathlib.Data.List.Basic

/-!
# Rounds

A state goes through rounds, each with its own key or number.  If each round can be undone, then the
rounds are undone from the last one to the first.  In a network of two halves, the halves change
their places after each round.

## Main definitions

* `run` — the rounds one after the other.

## Main results

* `run_reverse` — **the rounds are undone in reverse order.**
* `turned_reverse` — **so are rounds with a turn after each of them**, between two more turns.
-/

namespace Rounds

variable {σ ι : Type*}

/-- The rounds with the numbers `rs`. -/
def run (f : ι → σ → σ) (rs : List ι) (s : σ) : σ := rs.foldl (fun s r => f r s) s

@[simp] theorem run_nil (f : ι → σ → σ) (s : σ) : run f [] s = s := rfl

@[simp] theorem run_cons (f : ι → σ → σ) (r : ι) (rs : List ι) (s : σ) :
    run f (r :: rs) s = run f rs (f r s) := rfl

@[simp] theorem run_append (f : ι → σ → σ) (rs rs' : List ι) (s : σ) :
    run f (rs ++ rs') s = run f rs' (run f rs s) := List.foldl_append

theorem run_congr {f g : ι → σ → σ} {rs : List ι} (h : ∀ r ∈ rs, f r = g r) (s : σ) :
    run f rs s = run g rs s := by
  induction rs generalizing s with
  | nil => rfl
  | cons r rs ih =>
    rw [run_cons, h r List.mem_cons_self, ih fun r hr => h r (List.mem_cons_of_mem _ hr), run_cons]

/-- **The rounds are undone in reverse order.** -/
theorem run_reverse {f g : ι → σ → σ} (h : ∀ r s, g r (f r s) = s) (rs : List ι) (s : σ) :
    run g rs.reverse (run f rs s) = s := by
  induction rs generalizing s with
  | nil => rfl
  | cons r rs ih => rw [List.reverse_cons, run_append, run_cons f, ih, run_cons, run_nil, h]

/-- **So are rounds with a turn after each of them**, between two more turns. -/
theorem turned_reverse {f g : ι → σ → σ} {turn : σ → σ} (hturn : ∀ s, turn (turn s) = s)
    (h : ∀ r s, g r (f r s) = s) (rs : List ι) (s : σ) :
    turn (run (fun r s => turn (g r s)) rs.reverse
      (turn (run (fun r s => turn (f r s)) rs s))) = s := by
  induction rs generalizing s with
  | nil => exact hturn s
  | cons r rs ih =>
    have hrest : run (fun r s => turn (g r s)) rs.reverse
        (turn (run (fun r s => turn (f r s)) rs (turn (f r s)))) = f r s := by
      have hundone := congrArg turn (ih (turn (f r s)))
      rwa [hturn, hturn] at hundone
    rw [List.reverse_cons, run_append, run_cons (fun r s => turn (f r s)), hrest, run_cons, run_nil,
      h, hturn]

end Rounds
