import Mathlib.Algebra.BigOperators.Group.List.Basic
import Mathlib.Tactic.Linarith

/-!
# Reading parts of a short input

A reader asks for parts of given sizes one after the other.  A part that is longer than what
is left is passed over, and the reader goes on with the next one.  The question is when such
a reader deals well with an input that is too short: its count shows that something was
missing, and no later part is filled with the bytes of one that did not fit.

## Main definitions

* `Part` — a size, and whether the reader counts the part.
* `Part.steps` — the parts with what is left when they are asked for.
* `Part.Sound` — a short input is dealt with well.
* `Part.Clean` — the condition for this, on the sizes.

## Main results

* `Part.sound_iff_clean` — **the condition is the right one.**
-/

namespace Parts

/-- A part: its size, and whether it is counted. -/
structure Part where
  size : ℕ
  counted : Bool
  deriving DecidableEq

/-- A part that is asked for when `left` bytes are left. -/
structure Step where
  part : Part
  left : ℕ
  deriving DecidableEq

/-- There are enough bytes. -/
def Step.Fits (s : Step) : Prop := s.part.size ≤ s.left

instance (s : Step) : Decidable s.Fits := inferInstanceAs (Decidable (s.part.size ≤ s.left))

/-- What the step adds to the count. -/
def Step.count (s : Step) : ℕ := if s.part.counted ∧ s.Fits then s.part.size else 0

/-- What is left after a part was asked for. -/
def Part.after (p : Part) (left : ℕ) : ℕ := if p.size ≤ left then left - p.size else left

namespace Part

/-- The steps of a reader. -/
def steps : List Part → ℕ → List Step
  | [], _ => []
  | p :: ps, left => ⟨p, left⟩ :: steps ps (p.after left)

/-- The count for parts that all fit. -/
def full (ps : List Part) : ℕ := (ps.map fun p => if p.counted then p.size else 0).sum

/-- The count. -/
def count (ps : List Part) (left : ℕ) : ℕ := ((steps ps left).map Step.count).sum

/-- A short input is dealt with well. -/
def Sound (ps : List Part) (left : ℕ) : Prop :=
  (∃ s ∈ steps ps left, ¬ s.Fits) → count ps left ≠ full ps ∧
    (steps ps left).Pairwise fun s t => ¬ s.Fits → t.Fits → t.part.size = 0

/-- All parts fit; or after the first one that does not, every part is longer than what is
left, and one of them is counted. -/
def Clean : List Part → ℕ → Prop
  | [], _ => True
  | p :: ps, left =>
    if p.size ≤ left then Clean ps (left - p.size)
    else (∀ q ∈ ps, q.size ≤ left → q.size = 0) ∧ ∃ q ∈ p :: ps, q.counted ∧ q.size ≠ 0

instance : ∀ (ps : List Part) (left : ℕ), Decidable (Clean ps left)
  | [], _ => inferInstanceAs (Decidable True)
  | p :: ps, left =>
    have : Decidable (Clean ps (left - p.size)) := instDecidableClean ps (left - p.size)
    inferInstanceAs (Decidable (if p.size ≤ left then Clean ps (left - p.size) else
      (∀ q ∈ ps, q.size ≤ left → q.size = 0) ∧ ∃ q ∈ p :: ps, q.counted ∧ q.size ≠ 0))

variable {p : Part} {ps : List Part} {left : ℕ}

theorem after_of_le (h : p.size ≤ left) : p.after left = left - p.size := if_pos h

theorem after_of_lt (h : ¬ p.size ≤ left) : p.after left = left := if_neg h

/-- If only parts of no size fit, then the same is left all the time. -/
theorem forall_fits_iff :
    (∀ s ∈ steps ps left, s.Fits → s.part.size = 0) ↔ ∀ q ∈ ps, q.size ≤ left → q.size = 0 := by
  induction ps with
  | nil => simp [steps]
  | cons p ps ih =>
    simp only [steps, List.forall_mem_cons]
    -- if the part fits, it has no size
    have hsame : ((⟨p, left⟩ : Step).Fits → p.size = 0) → p.after left = left := by
      intro h
      by_cases hp : p.size ≤ left
      · rw [after_of_le hp, h hp, Nat.sub_zero]
      · exact after_of_lt hp
    constructor
    · rintro ⟨hp, hps⟩
      rw [hsame hp] at hps
      exact ⟨hp, ih.mp hps⟩
    · rintro ⟨hp, hps⟩
      rw [hsame hp]
      exact ⟨hp, ih.mpr hps⟩

theorem full_cons (p : Part) (ps : List Part) :
    full (p :: ps) = (if p.counted then p.size else 0) + full ps := by
  simp [full]

theorem count_cons (p : Part) (ps : List Part) (left : ℕ) :
    count (p :: ps) left = Step.count ⟨p, left⟩ + count ps (p.after left) := by
  simp [count, steps]

/-- The count is that of nothing if nothing of any size fits. -/
theorem count_eq_zero (h : ∀ s ∈ steps ps left, s.Fits → s.part.size = 0) : count ps left = 0 := by
  refine List.sum_eq_zero fun n hn => ?_
  obtain ⟨s, hs, rfl⟩ := List.mem_map.mp hn
  unfold Step.count
  split_ifs with hcount
  · exact h s hs hcount.2
  · rfl

theorem full_ne_zero_iff : full ps ≠ 0 ↔ ∃ q ∈ ps, q.counted ∧ q.size ≠ 0 := by
  induction ps with
  | nil => simp [full]
  | cons p ps ih =>
    rw [full_cons, List.exists_mem_cons_iff, ← ih]
    by_cases hp : p.counted = true
    · simp [hp, Nat.add_eq_zero_iff]
      tauto
    · simp [hp]

/-- A part that fits makes no difference. -/
theorem sound_cons_of_le (h : p.size ≤ left) : Sound (p :: ps) left ↔ Sound ps (left - p.size) := by
  have hfits : (⟨p, left⟩ : Step).Fits := h
  have hcount : count (p :: ps) left ≠ full (p :: ps) ↔ count ps (left - p.size) ≠ full ps := by
    rw [count_cons, full_cons, after_of_le h, Step.count]
    simp [hfits]
  unfold Sound
  rw [hcount]
  simp [steps, hfits, after_of_le h]

/-- After a part that does not fit, nothing may be read any more. -/
theorem sound_cons_of_lt (h : ¬ p.size ≤ left) :
    Sound (p :: ps) left ↔ (∀ q ∈ ps, q.size ≤ left → q.size = 0) ∧
      ∃ q ∈ p :: ps, q.counted ∧ q.size ≠ 0 := by
  have hfits : ¬ (⟨p, left⟩ : Step).Fits := h
  rw [← forall_fits_iff, ← full_ne_zero_iff]
  unfold Sound
  rw [count_cons, after_of_lt h, Step.count, if_neg (fun hc => hfits hc.2), Nat.zero_add, steps,
    after_of_lt h, List.pairwise_cons]
  constructor
  · intro hsound
    obtain ⟨hcount, hhead, -⟩ := hsound ⟨_, List.mem_cons_self, hfits⟩
    have hall : ∀ s ∈ steps ps left, s.Fits → s.part.size = 0 := fun s hs => hhead s hs hfits
    exact ⟨hall, (count_eq_zero hall ▸ hcount).symm⟩
  · rintro ⟨hall, hfull⟩ -
    refine ⟨(count_eq_zero hall).symm ▸ hfull.symm, fun s hs _ => hall s hs, ?_⟩
    exact List.pairwise_of_forall_mem_list fun s _ t ht _ => hall t ht

/-- **The condition is the right one.** -/
theorem sound_iff_clean : Sound ps left ↔ Clean ps left := by
  induction ps generalizing left with
  | nil => simp [Sound, Clean, steps]
  | cons p ps ih =>
    unfold Clean
    split_ifs with h
    · rw [sound_cons_of_le h, ih]
    · exact sound_cons_of_lt h

end Part

end Parts
