import Mathlib.Logic.Function.Basic
import Mathlib.Data.List.Nodup

/-!
# Linked lists in memory

Cells in memory that hold a value and a pointer to the next cell, and the lists that they make up.

## Main definitions

* `Cell`, `Heap` — the memory.
* `Linked` — from a pointer on, the cells at some addresses hold some values.
* `Heap.setNext` — the next cell of a cell is set.

## Main results

* `Linked.congr` — a list only depends on its own cells.
* `Linked.concat` — **a cell that is linked to the last one comes to the end of the list.**
-/

namespace LinkedLists

variable {α : Type*}

/-- A value and the address of the next cell. -/
structure Cell (α : Type*) where
  val : α
  next : Option ℕ

/-- The cells that are allocated. -/
def Heap (α : Type*) : Type _ := ℕ → Option (Cell α)

namespace Heap

/-- A cell is allocated, or its content is set. -/
def set (heap : Heap α) (p : ℕ) (c : Cell α) : Heap α := Function.update heap p (some c)

/-- A cell is freed. -/
def free (heap : Heap α) (p : ℕ) : Heap α := Function.update heap p none

/-- The next cell of a cell is set. -/
def setNext (heap : Heap α) (p : ℕ) (next : Option ℕ) : Heap α :=
  Function.update heap p ((heap p).map fun c => { c with next := next })

end Heap

/-- From a pointer on, the cells at `ps` hold the values `vs`. -/
def Linked (heap : Heap α) : Option ℕ → List ℕ → List α → Prop
  | head, [], [] => head = none
  | head, p :: ps, v :: vs =>
    head = some p ∧ ∃ next, heap p = some ⟨v, next⟩ ∧ Linked heap next ps vs
  | _, _, _ => False

variable {heap heap' : Heap α} {head : Option ℕ} {ps : List ℕ} {vs : List α}

/-- There is a cell for each value. -/
theorem Linked.length_eq (h : Linked heap head ps vs) : ps.length = vs.length := by
  induction ps generalizing head vs with
  | nil =>
    cases vs with
    | nil => rfl
    | cons => exact h.elim
  | cons p ps ih =>
    cases vs with
    | nil => exact h.elim
    | cons v vs =>
      obtain ⟨-, _, -, hrest⟩ := h
      rw [List.length_cons, List.length_cons, ih hrest]

/-- A list only depends on its own cells. -/
theorem Linked.congr (h : Linked heap head ps vs) (heq : ∀ p ∈ ps, heap' p = heap p) :
    Linked heap' head ps vs := by
  induction ps generalizing head vs with
  | nil =>
    cases vs with
    | nil => exact h
    | cons => exact h.elim
  | cons p ps ih =>
    cases vs with
    | nil => exact h.elim
    | cons v vs =>
      obtain ⟨hhead, next, hcell, hrest⟩ := h
      exact ⟨hhead, next, (heq p List.mem_cons_self).trans hcell,
        ih hrest fun q hq => heq q (List.mem_cons_of_mem _ hq)⟩

/-- The cells of a list are allocated. -/
theorem Linked.allocated (h : Linked heap head ps vs) {p : ℕ} (hp : p ∈ ps) : heap p ≠ none := by
  induction ps generalizing head vs with
  | nil => exact absurd hp List.not_mem_nil
  | cons q ps ih =>
    cases vs with
    | nil => exact h.elim
    | cons v vs =>
      obtain ⟨-, next, hcell, hrest⟩ := h
      rcases List.mem_cons.mp hp with rfl | hmem
      · rw [hcell]
        exact Option.some_ne_none _
      · exact ih hrest hmem

/-- An empty list has no first cell. -/
theorem Linked.of_none (h : Linked heap none ps vs) : ps = [] ∧ vs = [] := by
  cases ps with
  | nil =>
    cases vs with
    | nil => exact ⟨rfl, rfl⟩
    | cons => exact h.elim
  | cons p ps =>
    cases vs with
    | nil => exact h.elim
    | cons => exact absurd h.1 (by simp)

/-- The first cell of a list. -/
theorem Linked.of_some {p : ℕ} (h : Linked heap (some p) ps vs) :
    ∃ ps' v vs' next, ps = p :: ps' ∧ vs = v :: vs' ∧ heap p = some ⟨v, next⟩ ∧
      Linked heap next ps' vs' := by
  cases ps with
  | nil =>
    cases vs with
    | nil => cases h
    | cons => exact h.elim
  | cons q ps =>
    cases vs with
    | nil => exact h.elim
    | cons v vs =>
      obtain ⟨hhead, next, hcell, hrest⟩ := h
      obtain rfl := Option.some.inj hhead
      exact ⟨ps, v, vs, next, rfl, rfl, hcell, hrest⟩

/-- **A cell that is linked to the last one comes to the end of the list.** -/
theorem Linked.concat (h : Linked heap head ps vs) (hnodup : ps.Nodup) {t p : ℕ} {v : α}
    (ht : ps.getLast? = some t) (hp : p ∉ ps) (hcell : heap p = some ⟨v, none⟩) :
    Linked (heap.setNext t (some p)) head (ps ++ [p]) (vs ++ [v]) := by
  have hnew : ∀ {q}, q ≠ t → heap.setNext t (some p) q = heap q :=
    fun hq => Function.update_of_ne hq _ _
  have hpt : p ≠ t := fun heq => hp (heq ▸ List.mem_of_getLast? ht)
  induction ps generalizing head vs with
  | nil => cases ht
  | cons q ps ih =>
    cases vs with
    | nil => exact h.elim
    | cons w vs =>
      obtain ⟨hhead, next, hq, hrest⟩ := h
      obtain ⟨hqps, hnodup⟩ := List.nodup_cons.mp hnodup
      cases ps with
      | nil =>
        -- the last cell now points to the new one
        cases vs with
        | cons => exact hrest.elim
        | nil =>
          obtain rfl : q = t := by simpa using ht
          refine ⟨hhead, some p, ?_, rfl, none, (hnew hpt).trans hcell, rfl⟩
          rw [Heap.setNext, hq]
          exact Function.update_self ..
      | cons q' ps =>
        have ht' : (q' :: ps).getLast? = some t := by rwa [List.getLast?_cons_cons] at ht
        have hqt : q ≠ t := fun heq => hqps (heq ▸ List.mem_of_getLast? ht')
        exact ⟨hhead, next, (hnew hqt).trans hq,
          ih hrest hnodup ht' fun hmem => hp (List.mem_cons_of_mem _ hmem)⟩

end LinkedLists
