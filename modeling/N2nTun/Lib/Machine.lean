import Mathlib.Logic.Basic

/-!
# State machines

A machine has initial states, events that its surroundings can cause, and a step
for each of them.  Reachability takes a condition on the steps, so that one
relation serves for all runs and for those whose steps meet a condition.

## Main results

* `Machine.Reach.invariant` — **what the initial states satisfy and every step
  keeps holds in every state reached.**
* `Inserted.foldlM_eq` — events that change nothing may be inserted into a run.
-/

namespace Machines

/-- Initial states, the events possible in a state, and the state after each. -/
structure Machine (σ ε : Type*) where
  init : σ → Prop
  enabled : σ → ε → Prop
  step : σ → ε → σ

variable {σ ε : Type*}

/-- The states reached by steps that all meet `cond`. -/
inductive Machine.Reach (M : Machine σ ε) (cond : σ → ε → Prop) : σ → Prop
  | init {s : σ} (h : M.init s) : M.Reach cond s
  | step {s : σ} (e : ε) (h : M.Reach cond s) (hen : M.enabled s e) (hcond : cond s e) :
      M.Reach cond (M.step s e)

/-- No condition on the steps. -/
def anyStep (_ : σ) (_ : ε) : Prop := True

theorem Machine.Reach.invariant {M : Machine σ ε} {cond : σ → ε → Prop} {I : σ → Prop}
    (hinit : ∀ s, M.init s → I s)
    (hstep : ∀ s e, I s → M.enabled s e → cond s e → I (M.step s e)) {s : σ}
    (h : M.Reach cond s) : I s := by
  induction h with
  | init h => exact hinit _ h
  | step e _ hen hcond ih => exact hstep _ e ih hen hcond

/-- A weaker condition allows more runs. -/
theorem Machine.Reach.mono {M : Machine σ ε} {cond cond' : σ → ε → Prop}
    (hcond : ∀ s e, cond s e → cond' s e) {s : σ} (h : M.Reach cond s) : M.Reach cond' s := by
  induction h with
  | init h => exact .init h
  | step e _ hen hc ih => exact .step e ih hen (hcond _ _ hc)

/-- The events can happen one after the other. -/
def Machine.Runs (M : Machine σ ε) : σ → List ε → Prop
  | _, [] => True
  | s, e :: es => M.enabled s e ∧ M.Runs (M.step s e) es

instance Machine.decidableRuns (M : Machine σ ε) [∀ s e, Decidable (M.enabled s e)] :
    ∀ s es, Decidable (M.Runs s es)
  | _, [] => inferInstanceAs (Decidable True)
  | s, e :: es =>
    have := M.decidableRuns (M.step s e) es
    inferInstanceAs (Decidable (_ ∧ _))

/-- The state after a run. -/
theorem Machine.Reach.runs {M : Machine σ ε} {es : List ε} {s : σ} (h : M.Reach anyStep s)
    (hruns : M.Runs s es) : M.Reach anyStep (es.foldl M.step s) := by
  induction es generalizing s with
  | nil => exact h
  | cons e es ih => exact ih (.step e h hruns.1 trivial) hruns.2

/-! ### Runs that differ in events that change nothing -/

/-- The second list is the first one with events inserted that are in `P`. -/
inductive Inserted (P : ε → Prop) : List ε → List ε → Prop
  | nil : Inserted P [] []
  | keep {es es' : List ε} (e : ε) (h : Inserted P es es') : Inserted P (e :: es) (e :: es')
  | insert {es es' : List ε} (e : ε) (he : P e) (h : Inserted P es es') :
      Inserted P es (e :: es')

/-- They end in the same state; a step may also fail, and the run with it. -/
theorem Inserted.foldlM_eq {P : ε → Prop} {step : σ → ε → Option σ}
    (hstep : ∀ s e, P e → step s e = some s) {es es' : List ε} (h : Inserted P es es') (s : σ) :
    es'.foldlM step s = es.foldlM step s := by
  induction h generalizing s with
  | nil => rfl
  | keep e _ ih =>
    rw [List.foldlM_cons, List.foldlM_cons]
    cases step s e with
    | none => rfl
    | some s' => exact ih s'
  | insert e he _ ih =>
    rw [List.foldlM_cons, hstep s e he]
    exact ih s

end Machines
