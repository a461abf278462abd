import Mathlib.Data.List.Basic
import Mathlib.Data.List.Perm.Basic

/-!
# Mailboxes with one slot

What is put into the slot is taken from it once.  What is put into a slot that is full takes the
place of what was there, which is lost.

## Main definitions

* `Op` — something is put, or taken.
* `run`, `taken`, `puts` — the slot after some operations, what they take, and what they put.
* `Spaced` — everything that is put finds the slot empty.

## Main results

* `taken_of_spaced` — **then everything is taken, once and in order**, or still in the slot.
* `length_lt_of_not_spaced` — otherwise something has been lost for good.
-/

namespace Mailbox

variable {α : Type*}

/-- Something is put into the slot, or what is there is taken. -/
inductive Op (α : Type*) where
  | put (m : α)
  | take

/-- The slot after an operation. -/
def step : Option α → Op α → Option α
  | _, .put m => some m
  | _, .take => none

/-- The slot after operations. -/
def run (slot : Option α) (ops : List (Op α)) : Option α := ops.foldl step slot

/-- What an operation takes. -/
def out : Option α → Op α → List α
  | _, .put _ => []
  | slot, .take => slot.toList

/-- What is taken. -/
def taken : Option α → List (Op α) → List α
  | _, [] => []
  | slot, op :: ops => out slot op ++ taken (step slot op) ops

/-- What an operation puts. -/
def Op.message : Op α → List α
  | .put m => [m]
  | .take => []

/-- What is put. -/
def puts (ops : List (Op α)) : List α := ops.flatMap Op.message

/-- Everything that is put finds the slot empty. -/
def Spaced : Option α → List (Op α) → Prop
  | _, [] => True
  | slot, .put m :: ops => slot = none ∧ Spaced (some m) ops
  | _, .take :: ops => Spaced none ops

theorem taken_append (slot : Option α) (ops ops' : List (Op α)) :
    taken slot (ops ++ ops') = taken slot ops ++ taken (run slot ops) ops' := by
  induction ops generalizing slot with
  | nil => rfl
  | cons op ops ih => rw [List.cons_append, taken, ih, taken, List.append_assoc]; rfl

theorem run_append (slot : Option α) (ops ops' : List (Op α)) :
    run slot (ops ++ ops') = run (run slot ops) ops' := List.foldl_append

theorem puts_append (ops ops' : List (Op α)) : puts (ops ++ ops') = puts ops ++ puts ops' :=
  List.flatMap_append

theorem spaced_append (slot : Option α) (ops ops' : List (Op α)) :
    Spaced slot (ops ++ ops') ↔ Spaced slot ops ∧ Spaced (run slot ops) ops' := by
  induction ops generalizing slot with
  | nil => exact ⟨fun h => ⟨trivial, h⟩, And.right⟩
  | cons op ops ih =>
    cases op with
    | put m => exact (and_congr_right fun _ => ih (some m)).trans and_assoc.symm
    | take => exact ih none

/-- Where nothing is put, nothing comes into the slot. -/
theorem run_none {ops : List (Op α)} (h : puts ops = []) : run none ops = none := by
  induction ops with
  | nil => rfl
  | cons op ops ih =>
    cases op with
    | put m => cases h
    | take => exact ih h

theorem spaced_of_puts {ops : List (Op α)} (h : puts ops = []) (slot : Option α) :
    Spaced slot ops := by
  induction ops generalizing slot with
  | nil => trivial
  | cons op ops ih =>
    cases op with
    | put m => cases h
    | take => exact ih h none

/-- **If everything finds the slot empty, everything is taken**, once and in order, except for what
is still in the slot. -/
theorem taken_of_spaced {slot : Option α} {ops : List (Op α)} (h : Spaced slot ops) :
    taken slot ops ++ (run slot ops).toList = slot.toList ++ puts ops := by
  induction ops generalizing slot with
  | nil => exact (List.nil_append _).trans (List.append_nil _).symm
  | cons op ops ih =>
    cases op with
    | put m =>
      obtain ⟨rfl, hops⟩ := h
      exact ih hops
    | take =>
      have hrest := @ih none h
      rw [taken, List.append_assoc]
      exact congrArg (slot.toList ++ ·) hrest

section

variable (slot : Option α) (m : α) (ops : List (Op α))

theorem taken_put : taken slot (.put m :: ops) = taken (some m) ops := rfl

theorem taken_take : taken slot (.take :: ops) = slot.toList ++ taken none ops := rfl

theorem run_put : run slot (.put m :: ops) = run (some m) ops := rfl

theorem run_take : run slot (.take :: ops) = run none ops := rfl

theorem puts_put : puts (.put m :: ops) = m :: puts ops := rfl

theorem puts_take : puts (.take :: ops) = puts ops := rfl

/-- Never more is taken than is put. -/
theorem length_taken_le :
    (taken slot ops).length + (run slot ops).toList.length ≤
      slot.toList.length + (puts ops).length := by
  induction ops generalizing slot with
  | nil => exact Nat.le_of_eq (Nat.zero_add _)
  | cons op ops ih =>
    cases op with
    | put m =>
      have hrest := ih (some m)
      rw [Option.toList_some, List.length_singleton] at hrest
      rw [taken_put, run_put, puts_put, List.length_cons]
      omega
    | take =>
      have hrest := ih none
      rw [Option.toList_none, List.length_nil] at hrest
      rw [taken_take, run_take, puts_take, List.length_append]
      omega

end

/-- **Otherwise something has been lost for good.** -/
theorem length_lt_of_not_spaced {slot : Option α} {ops : List (Op α)} (h : ¬ Spaced slot ops) :
    (taken slot ops).length + (run slot ops).toList.length <
      slot.toList.length + (puts ops).length := by
  induction ops generalizing slot with
  | nil => exact absurd trivial h
  | cons op ops ih =>
    cases op with
    | put m =>
      rw [taken_put, run_put, puts_put, List.length_cons]
      cases slot with
      | none =>
        have hrest := @ih (some m) fun hops => h ⟨rfl, hops⟩
        rw [Option.toList_some, List.length_singleton] at hrest
        omega
      | some m' =>
        have hrest := length_taken_le (some m) ops
        rw [Option.toList_some, List.length_singleton] at hrest ⊢
        omega
    | take =>
      have hrest := @ih none h
      rw [Option.toList_none, List.length_nil] at hrest
      rw [taken_take, run_take, puts_take, List.length_append]
      omega

end Mailbox
