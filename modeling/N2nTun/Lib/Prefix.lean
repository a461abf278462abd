import Mathlib.Tactic

/-!
# Prefixes of words

Two words agree on their first bits when a mask of these bits leaves the same of both. A network
is a word whose bits behind the mask are clear; the words in it agree with it on the prefix.

## Main definitions

* `prefixMask` — the mask of the first `n` bits.
* `AgreeOn` — two words have the same first `n` bits.
* `NoHostBits` — a word is clear behind its first `n` bits.

## Main results

* `and_prefixMask_eq_iff` — masked words are equal when the words agree on the prefix.
* `eq_and_prefixMask_iff` — **a word equals a masked one when it agrees on the prefix and has no
  bits behind it.**
-/

namespace BitPrefix

variable {w n : ℕ} {a b : BitVec w}

/-- The mask of the first `n` bits. -/
def prefixMask (w n : ℕ) : BitVec w := BitVec.allOnes w <<< (w - n)

/-- Two words have the same first `n` bits. -/
def AgreeOn (n : ℕ) (a b : BitVec w) : Prop := ∀ i, i < n → a.getMsbD i = b.getMsbD i

/-- A word is clear behind its first `n` bits. -/
def NoHostBits (n : ℕ) (a : BitVec w) : Prop := ∀ i, n ≤ i → a.getMsbD i = false

theorem getMsbD_prefixMask (h : n ≤ w) (i : ℕ) : (prefixMask w n).getMsbD i = decide (i < n) := by
  rw [prefixMask, BitVec.getMsbD_shiftLeft, BitVec.getMsbD_allOnes, decide_eq_decide]
  omega

/-- The mask keeps the prefix and clears the rest. -/
theorem getMsbD_and_prefixMask (h : n ≤ w) (i : ℕ) :
    (a &&& prefixMask w n).getMsbD i = (a.getMsbD i && decide (i < n)) := by
  rw [BitVec.getMsbD_and, getMsbD_prefixMask h]

theorem and_prefixMask_eq_iff (h : n ≤ w) :
    a &&& prefixMask w n = b &&& prefixMask w n ↔ AgreeOn n a b := by
  constructor
  · intro heq i hi
    have hbit := congrArg (BitVec.getMsbD · i) heq
    simpa [getMsbD_and_prefixMask h, hi] using hbit
  · intro hagree
    apply BitVec.eq_of_getMsbD_eq
    intro i _
    rw [getMsbD_and_prefixMask h, getMsbD_and_prefixMask h]
    by_cases hi : i < n
    · rw [hagree i hi]
    · simp [hi]

theorem noHostBits_iff (h : n ≤ w) : NoHostBits n a ↔ a &&& prefixMask w n = a := by
  constructor
  · intro hclear
    apply BitVec.eq_of_getMsbD_eq
    intro i _
    rw [getMsbD_and_prefixMask h]
    by_cases hi : i < n
    · simp [hi]
    · simp [hi, hclear i (by omega)]
  · intro heq i hi
    rw [← heq, getMsbD_and_prefixMask h]
    simp [not_lt.mpr hi]

/-- **A comparison with a masked word is two conditions**: the words agree on the prefix, and the
unmasked one has no bits behind it. -/
theorem eq_and_prefixMask_iff (h : n ≤ w) :
    a = b &&& prefixMask w n ↔ AgreeOn n a b ∧ NoHostBits n a := by
  rw [noHostBits_iff h, ← and_prefixMask_eq_iff h]
  constructor
  · rintro rfl
    rw [BitVec.and_assoc, BitVec.and_self]
    exact ⟨rfl, rfl⟩
  · rintro ⟨hagree, hclear⟩
    rw [← hagree, hclear]

instance : Decidable (AgreeOn n a b) :=
  inferInstanceAs (Decidable (∀ i, i < n → a.getMsbD i = b.getMsbD i))

end BitPrefix
