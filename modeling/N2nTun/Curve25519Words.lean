import N2nTun.Curve25519
import N2nTun.Lib.Radix
import Mathlib.Data.UInt
import Mathlib.Data.ZMod.Basic
import Mathlib.Tactic.LinearCombination

/-!
# Words and numbers modulo `2 ^ 255 - 19`

The functions on arrays of words compute modulo the prime, as long as no sum exceeds the 32 bits
of a word.  What comes out of a multiplication has small words again; a sum or a difference of two
such numbers may be multiplied.

## Main definitions

* `value` — the number that an array stands for.
* `Within` — the words are small.

## Main results

* `square_eq` — **a squaring is a multiplication**, for all arrays.
* `add_spec`, `sub_spec`, `mult_spec`, `mult121665_spec` — each function modulo the prime.
* `bytesValue_freeze` — **the bytes of the result are those of the remainder.**
-/

namespace N2n.Curve25519

open Finset Radix

/-- `2 ^ 255 - 19`. -/
def prime : ℕ := 2 ^ 255 - 19

/-- The number that an array stands for. -/
def value (a : Number) : ℕ := Nat.ofDigits 256 (a.map UInt32.toNat)

/-- An array of 32 words; all but the last are bytes, and the last is at most `k`. -/
structure Within (k : ℕ) (a : Number) : Prop where
  length : a.length = 32
  low : ∀ j < 31, (word a j).toNat < 256
  top : (word a 31).toNat ≤ k

/-! ### Squares -/

section

open scoped UInt32.CommRing

theorem squareWord_eq (a : Number) {i : ℕ} (hi : i < 32) : squareWord a i = multWord a a i := by
  have hlow : ((List.range (i + 1)).takeWhile fun j => decide (j < i - j)) =
      List.range' 0 ((i + 1) / 2) := by
    have hiff : (fun j => decide (j < i - j)) = fun j => decide (j < (i + 1) / 2) := by
      funext j
      exact decide_eq_decide.mpr (by omega)
    rw [hiff, List.range_eq_range', takeWhile_range']
    congr 1
    omega
  have hhigh : ((List.range' (i + 1) 32).takeWhile fun j => decide (j < i + 32 - j)) =
      List.range' (i + 1) ((i + 33) / 2 - (i + 1)) := by
    have hiff : (fun j => decide (j < i + 32 - j)) = fun j => decide (j < (i + 33) / 2) := by
      funext j
      exact decide_eq_decide.mpr (by omega)
    rw [hiff, takeWhile_range']
    congr 1
    omega
  have hsum := sum_symmetric (fun j => word a j * word a (i - j)) 0 i (by omega) fun j _ hj => by
      rw [Nat.sub_sub_self (by omega), mul_comm]
  have hsum' := sum_symmetric (fun j => 38 * word a j * word a (i + 32 - j)) (i + 1) (i + 32)
    (by omega) fun j _ hj => by
      rw [Nat.sub_sub_self (by omega)]
      ring
  unfold squareWord multWord
  rw [hlow, hhigh, List.range_eq_range']
  simp only [foldl_add_eq_sum, sum_range', zero_add]
  rw [show i + 1 + (31 - i) = 32 by omega,
    show i + 1 + ((i + 33) / 2 - (i + 1)) = (i + 33) / 2 by omega]
  rw [show i + 32 + 1 - (i + 1) = 32 by omega] at hsum'
  rw [Nat.sub_zero] at hsum
  rw [hsum, hsum', show (i + 32) % 2 = i % 2 by omega,
    show (i + 32) / 2 = i / 2 + 16 by omega]
  by_cases h : i % 2 = 0
  · rw [if_pos h, if_pos h, if_pos h, show i - i / 2 = i / 2 by omega,
      show i + 32 - (i / 2 + 16) = i / 2 + 16 by omega]
    ring
  · rw [if_neg h, if_neg h, if_neg h]
    ring

theorem square_eq (a : Number) : square a = mult a a := by
  unfold square mult
  congr 1
  apply List.map_congr_left
  intro i hi
  exact squareWord_eq a (List.mem_range.mp hi)

end

/-! ### Carrying -/

@[simp] theorem value_nil : value [] = 0 := rfl

@[simp] theorem value_cons (x : UInt32) (l : List UInt32) :
    value (x :: l) = x.toNat + 256 * value l := by
  simp [value, Nat.ofDigits_cons]

theorem value_append (l l' : List UInt32) :
    value (l ++ l') = value l + 256 ^ l.length * value l' := by
  simp [value, Nat.ofDigits_append]

theorem value_range (f : ℕ → UInt32) (n : ℕ) :
    value ((List.range n).map f) = ∑ j ∈ range n, (f j).toNat * 256 ^ j := by
  rw [value, List.map_map, ← ofDigits_range]
  rfl

theorem value_lt {l : List UInt32} (h : ∀ x ∈ l, x.toNat < 256) : value l < 256 ^ l.length := by
  have hlt := Nat.ofDigits_lt_base_pow_length (b := 256) (l := l.map UInt32.toNat) (by decide)
  rw [List.length_map] at hlt
  refine hlt ?_
  intro x hx
  obtain ⟨w, hw, rfl⟩ := List.mem_map.mp hx
  exact h w hw

/-- The words are bytes, and with what is carried out of the last one they have the value `v`. -/
structure Carries (n v : ℕ) (r : List UInt32 × UInt32) : Prop where
  length : r.1.length = n
  bytes : ∀ x ∈ r.1, x.toNat < 256
  value : value r.1 + 256 ^ n * r.2.toNat = v

theorem Carries.value_lt {n v : ℕ} {r : List UInt32 × UInt32} (h : Carries n v r) :
    Curve25519.value r.1 < 256 ^ n := h.length ▸ Curve25519.value_lt h.bytes

/-- **The carry**, when no term is so large that a word overflows. -/
theorem carry_spec {U : ℕ} (hU : 2 ^ 24 ≤ U) (ts : List UInt32) {u : UInt32} (hu : u.toNat ≤ U)
    (ht : ∀ t ∈ ts, t.toNat + U < 2 ^ 32) :
    Carries ts.length (u.toNat + value ts) (carry u ts) := by
  induction ts generalizing u with
  | nil => exact ⟨rfl, by simp [carry], by simp [carry]⟩
  | cons t ts ih =>
    have hsum : (u + t).toNat = u.toNat + t.toNat := by
      rw [UInt32.toNat_add, Nat.mod_eq_of_lt]
      have := ht t List.mem_cons_self
      omega
    have hlow : ((u + t) &&& 255).toNat = (u.toNat + t.toNat) % 256 := by
      rw [UInt32.toNat_and, hsum]
      exact Nat.and_two_pow_sub_one_eq_mod _ 8
    have hhigh : ((u + t) >>> 8).toNat = (u.toNat + t.toNat) / 256 := by
      rw [UInt32.toNat_shiftRight, hsum]
      exact Nat.shiftRight_eq_div_pow _ 8
    have hcarry := ih (u := (u + t) >>> 8) (by
      have := (u + t).toNat_lt
      rw [hhigh]
      omega) fun t' ht' => ht t' (List.mem_cons_of_mem t ht')
    refine ⟨?_, ?_, ?_⟩
    · simp [carry, hcarry.length]
    · intro x hx
      rcases List.mem_cons.mp hx with rfl | hx
      · rw [hlow]
        exact Nat.mod_lt _ (by decide)
      · exact hcarry.bytes x hx
    · have hvalue := hcarry.value
      rw [hhigh] at hvalue
      simp only [carry, value_cons, hlow, List.length_cons, pow_succ]
      have hdiv := Nat.div_add_mod (u.toNat + t.toNat) 256
      linear_combination 256 * hvalue + hdiv

/-! ### Sums and differences -/

theorem map_word {a : Number} (h : a.length = 32) : (List.range 32).map (word a) = a := by
  apply List.ext_getElem
  · simp [h]
  · intro i h₁ h₂
    simp only [List.getElem_map, List.getElem_range, word]
    exact List.getD_eq_getElem _ _ _

theorem value_eq_sum {a : Number} (h : a.length = 32) :
    value a = ∑ j ∈ range 31, (word a j).toNat * 256 ^ j + 256 ^ 31 * (word a 31).toNat := by
  have hvalue := value_range (word a) 32
  rw [map_word h, sum_range_succ] at hvalue
  rw [hvalue, mul_comm (256 ^ 31)]

/-- The last word is put behind what was carried. -/
theorem Carries.within {v : ℕ} {r : List UInt32 × UInt32} (h : Carries 31 v r) {t : UInt32} {k : ℕ}
    (ht : t.toNat ≤ k) : Within k (r.1 ++ [t]) := by
  refine ⟨by simp [h.length], ?_, ?_⟩
  · intro j hj
    have hj' : j < r.1.length := by rw [h.length]; exact hj
    rw [word, List.getD_append _ _ _ _ hj', List.getD_eq_getElem _ _ hj']
    exact h.bytes _ (List.getElem_mem hj')
  · rw [word, List.getD_append_right _ _ _ _ (by rw [h.length]), h.length]
    exact ht

theorem Carries.value_append {v : ℕ} {r : List UInt32 × UInt32} (h : Carries 31 v r) (t : UInt32) :
    Curve25519.value (r.1 ++ [t]) + 256 ^ 31 * r.2.toNat = v + 256 ^ 31 * t.toNat := by
  rw [Curve25519.value_append, h.length, ← h.value]
  simp
  ring

/-- The words that are bytes are less than one unit of the last word. -/
theorem Within.low_lt {k : ℕ} {a : Number} (h : Within k a) :
    ∑ j ∈ range 31, (word a j).toNat * 256 ^ j < 256 ^ 31 := by
  have hlt := Curve25519.value_lt (l := (List.range 31).map (word a)) (by
    intro x hx
    obtain ⟨j, hj, rfl⟩ := List.mem_map.mp hx
    exact h.low j (List.mem_range.mp hj))
  rwa [value_range, List.length_map, List.length_range] at hlt

theorem Within.mono {k l : ℕ} {a : Number} (h : Within k a) (hkl : k ≤ l) : Within l a :=
  ⟨h.length, h.low, h.top.trans hkl⟩

section

variable {a b : Number}

/-- **A sum.** -/
theorem add_spec (ha : Within 128 a) (hb : Within 128 b) :
    Within 257 (add a b) ∧ value (add a b) = value a + value b := by
  have hterm : ∀ j < 31, (word a j + word b j).toNat = (word a j).toNat + (word b j).toNat := by
    intro j hj
    have hja := ha.low j hj
    have hjb := hb.low j hj
    rw [UInt32.toNat_add, Nat.mod_eq_of_lt (by omega)]
  have hcarry := carry_spec (U := 2 ^ 24) le_rfl ((List.range 31).map fun j => word a j + word b j)
    (u := 0) (by decide) (by
      intro t ht
      obtain ⟨j, hj, rfl⟩ := List.mem_map.mp ht
      have hj' := List.mem_range.mp hj
      have hja := ha.low j hj'
      have hjb := hb.low j hj'
      rw [hterm j hj']
      omega)
  rw [value_range, List.length_map, List.length_range, sum_congr rfl fun j hj => by
    rw [hterm j (mem_range.mp hj), add_mul], sum_add_distrib] at hcarry
  unfold add
  dsimp only
  generalize carry 0 ((List.range 31).map fun j => word a j + word b j) = r at hcarry ⊢
  have hlow := ha.low_lt
  have hlow' := hb.low_lt
  have htop := ha.top
  have htop' := hb.top
  have hv := hcarry.value
  have hzero : (0 : UInt32).toNat = 0 := rfl
  have hcarried : r.2.toNat ≤ 1 := by omega
  have hlast : (r.2 + (word a 31 + word b 31)).toNat =
      r.2.toNat + ((word a 31).toNat + (word b 31).toNat) := by
    rw [UInt32.toNat_add, UInt32.toNat_add, Nat.mod_eq_of_lt (a := _ + _) (by omega),
      Nat.mod_eq_of_lt (by omega)]
  refine ⟨hcarry.within (by omega), ?_⟩
  have hvalue := hcarry.value_append (r.2 + (word a 31 + word b 31))
  rw [hlast] at hvalue
  rw [value_eq_sum ha.length, value_eq_sum hb.length]
  omega

/-- **A difference**: twice the prime is added, so that nothing becomes negative. -/
theorem sub_spec (ha : Within 128 a) (hb : Within 128 b) :
    Within 511 (sub a b) ∧ value (sub a b) + value b = value a + 2 * prime := by
  have hterm : ∀ j < 31, (word a j + 65280 - word b j).toNat + (word b j).toNat =
      (word a j).toNat + 65280 ∧ (word a j + 65280 - word b j).toNat < 2 ^ 17 := by
    intro j hj
    have hja := ha.low j hj
    have hjb := hb.low j hj
    have hconst : (65280 : UInt32).toNat = 65280 := rfl
    rw [UInt32.toNat_sub, UInt32.toNat_add, hconst]
    omega
  have hcarry := carry_spec (U := 2 ^ 24) le_rfl
    ((List.range 31).map fun j => word a j + 65280 - word b j) (u := 218) (by decide) (by
      intro t ht
      obtain ⟨j, hj, rfl⟩ := List.mem_map.mp ht
      have hj' := (hterm j (List.mem_range.mp hj)).2
      omega)
  rw [value_range, List.length_map, List.length_range] at hcarry
  have hsum : ∑ j ∈ range 31, (word a j + 65280 - word b j).toNat * 256 ^ j +
      ∑ j ∈ range 31, (word b j).toNat * 256 ^ j =
      ∑ j ∈ range 31, (word a j).toNat * 256 ^ j + ∑ j ∈ range 31, 65280 * 256 ^ j := by
    rw [← sum_add_distrib, ← sum_add_distrib]
    refine sum_congr rfl fun j hj => ?_
    rw [← add_mul, ← add_mul, (hterm j (mem_range.mp hj)).1]
  have hconst : 218 + ∑ j ∈ range 31, 65280 * 256 ^ j = 256 ^ 32 - 38 := by decide
  unfold sub
  dsimp only
  generalize carry 218 ((List.range 31).map fun j => word a j + 65280 - word b j) = r at hcarry ⊢
  have hlow := ha.low_lt
  have hlow' := hb.low_lt
  have hlow'' := hcarry.value_lt
  have htop := ha.top
  have htop' := hb.top
  have hv := hcarry.value
  have hstart : (218 : UInt32).toNat = 218 := rfl
  have hcarried : 254 ≤ r.2.toNat ∧ r.2.toNat ≤ 256 := by omega
  have hlast : (r.2 + (word a 31 - word b 31)).toNat + (word b 31).toNat =
      r.2.toNat + (word a 31).toNat := by
    rw [UInt32.toNat_add, UInt32.toNat_sub]
    omega
  refine ⟨hcarry.within (by omega), ?_⟩
  have hvalue := hcarry.value_append (r.2 + (word a 31 - word b 31))
  rw [value_eq_sum ha.length, value_eq_sum hb.length]
  have hprime : 2 * prime = 256 ^ 32 - 38 := by decide
  rw [hprime]
  omega

/-! ### Products -/

/-- What is above 255 bits is 19 times as much below. -/
theorem fold_spec {v : ℕ} {r : List UInt32 × UInt32} (h : Carries 31 v r) {u : UInt32}
    (hu : u.toNat < 2 ^ 31) :
    Within 128 (fold r.1 u) ∧
      value (fold r.1 u) + prime * (u.toNat / 128) = value r.1 + 256 ^ 31 * u.toNat := by
  have htop : (u &&& 127).toNat = u.toNat % 128 := by
    rw [UInt32.toNat_and]
    exact Nat.and_two_pow_sub_one_eq_mod _ 7
  have hhigh : (u >>> 7).toNat = u.toNat / 128 := by
    rw [UInt32.toNat_shiftRight]
    exact Nat.shiftRight_eq_div_pow _ 7
  have hback : ((19 : UInt32) * (u >>> 7)).toNat = 19 * (u.toNat / 128) := by
    have hconst : (19 : UInt32).toNat = 19 := rfl
    rw [UInt32.toNat_mul, hhigh, hconst, Nat.mod_eq_of_lt (by omega)]
  have hcarry := carry_spec (U := 2 ^ 30) (by decide) r.1 (u := (19 : UInt32) * (u >>> 7))
    (by rw [hback]; omega) (by
      intro t ht
      have := h.bytes t ht
      omega)
  rw [h.length, hback] at hcarry
  unfold fold
  dsimp only
  generalize carry ((19 : UInt32) * (u >>> 7)) r.1 = s at hcarry ⊢
  have hlow := h.value_lt
  have hv := hcarry.value
  have hcarried : s.2.toNat ≤ 1 := by omega
  have hlast : (s.2 + (u &&& 127)).toNat = s.2.toNat + u.toNat % 128 := by
    rw [UInt32.toNat_add, htop, Nat.mod_eq_of_lt (by omega)]
  refine ⟨hcarry.within (by omega), ?_⟩
  have hvalue := hcarry.value_append (s.2 + (u &&& 127))
  have hprime : prime = 2 ^ 255 - 19 := rfl
  rw [hprime]
  omega

/-- The two passes over the words, of which the terms are given. -/
theorem fold_carry_spec {f : ℕ → UInt32} {g : ℕ → ℕ} (hf : ∀ j < 32, (f j).toNat = g j)
    (hg : ∀ j < 32, g j < 2 ^ 30) :
    Within 128 (fold (carry 0 ((List.range 31).map f)).1
        ((carry 0 ((List.range 31).map f)).2 + f 31)) ∧
      (value (fold (carry 0 ((List.range 31).map f)).1
        ((carry 0 ((List.range 31).map f)).2 + f 31)) : ZMod prime) =
        ∑ j ∈ range 32, g j * 256 ^ j := by
  have hcarry := carry_spec (U := 2 ^ 24) le_rfl ((List.range 31).map f) (u := 0) (by decide) (by
      intro t ht
      obtain ⟨j, hj, rfl⟩ := List.mem_map.mp ht
      have hj' : j < 32 := (List.mem_range.mp hj).trans (by decide)
      have hlt := hg j hj'
      rw [hf j hj']
      omega)
  rw [value_range, List.length_map, List.length_range, sum_congr rfl fun j hj => by
    rw [hf j ((mem_range.mp hj).trans (by decide))]] at hcarry
  generalize carry 0 ((List.range 31).map f) = r at hcarry ⊢
  have hzero : (0 : UInt32).toNat = 0 := rfl
  -- what is carried out of the bytes is small
  have hcarried : r.2.toNat ≤ 2 ^ 24 := by
    have hbound : ∑ j ∈ range 31, g j * 256 ^ j ≤ ∑ j ∈ range 31, 2 ^ 30 * 256 ^ j := by
      refine sum_le_sum fun j hj => Nat.mul_le_mul_right _ ?_
      exact (hg j ((mem_range.mp hj).trans (by decide))).le
    have hconst : ∑ j ∈ range 31, 2 ^ 30 * 256 ^ j ≤ 2 ^ 24 * 256 ^ 31 := by decide
    have hv := hcarry.value
    omega
  have hlast : (r.2 + f 31).toNat = r.2.toNat + g 31 := by
    have hlt := hg 31 (by decide)
    rw [UInt32.toNat_add, hf 31 (by decide), Nat.mod_eq_of_lt (by omega)]
  have htop : (r.2 + f 31).toNat < 2 ^ 31 := by
    have hlt := hg 31 (by decide)
    omega
  obtain ⟨hwithin, hvalue⟩ := fold_spec hcarry htop
  refine ⟨hwithin, ?_⟩
  have hv := hcarry.value
  rw [hlast] at hvalue
  have hcast := congrArg (Nat.cast : ℕ → ZMod prime) hvalue
  have hcast' := congrArg (Nat.cast : ℕ → ZMod prime) hv
  rw [hzero] at hcast'
  push_cast at hcast hcast' ⊢
  rw [ZMod.natCast_self] at hcast
  rw [sum_range_succ]
  linear_combination hcast + hcast'

/-- **Squeezing**, when the words have less than 30 bits. -/
theorem squeeze_spec {f : ℕ → UInt32} {g : ℕ → ℕ} (hf : ∀ j < 32, (f j).toNat = g j)
    (hg : ∀ j < 32, g j < 2 ^ 30) :
    Within 128 (squeeze ((List.range 32).map f)) ∧
      (value (squeeze ((List.range 32).map f)) : ZMod prime) = ∑ j ∈ range 32, g j * 256 ^ j := by
  have hword : ∀ j < 32, word ((List.range 32).map f) j = f j := by
    intro j hj
    rw [word, List.getD_eq_getElem _ _ (by simpa using hj)]
    simp
  have hmap : (List.range 31).map (word ((List.range 32).map f)) = (List.range 31).map f :=
    List.map_congr_left fun j hj => hword j ((List.mem_range.mp hj).trans (by decide))
  unfold squeeze
  rw [hmap, hword 31 (by decide)]
  exact fold_carry_spec hf hg

theorem Within.word_le (ha : Within 511 a) {j : ℕ} (hj : j < 32) : (word a j).toNat ≤ 511 := by
  rcases Nat.lt_or_ge j 31 with h | h
  · have := ha.low j h
    omega
  · rw [show j = 31 by omega]
    exact ha.top

theorem word_map_word_cast (h : a.length = 32) :
    (value a : ZMod prime) = ∑ j ∈ range 32, ((word a j).toNat : ZMod prime) * 256 ^ j := by
  have hvalue := value_range (word a) 32
  rw [map_word h] at hvalue
  rw [hvalue]
  push_cast
  rfl

/-- **A small multiple.** -/
theorem mult121665_spec (ha : Within 511 a) :
    Within 128 (mult121665 a) ∧ (value (mult121665 a) : ZMod prime) = 121665 * value a := by
  have hconst : (121665 : UInt32).toNat = 121665 := rfl
  have hspec := fold_carry_spec (f := fun j => 121665 * word a j)
    (g := fun j => 121665 * (word a j).toNat) (fun j hj => by
      have hle := ha.word_le hj
      rw [UInt32.toNat_mul, hconst, Nat.mod_eq_of_lt (by omega)])
    (fun j hj => by
      have hle := ha.word_le hj
      omega)
  refine ⟨hspec.1, hspec.2.trans ?_⟩
  rw [word_map_word_cast ha.length, mul_sum]
  push_cast
  exact sum_congr rfl fun j _ => mul_assoc _ _ _

/-- A loop of additions that stay small. -/
theorem toNat_foldl_add {f : ℕ → UInt32} {g : ℕ → ℕ} {B : ℕ} {l : List ℕ}
    (hf : ∀ j ∈ l, (f j).toNat = g j ∧ g j ≤ B) {u : UInt32}
    (h : u.toNat + l.length * B < 2 ^ 32) :
    (l.foldl (fun u j => u + f j) u).toNat = u.toNat + (l.map g).sum ∧
      (l.map g).sum ≤ l.length * B := by
  induction l generalizing u with
  | nil => simp
  | cons j l ih =>
    obtain ⟨hj, hle⟩ := hf j List.mem_cons_self
    rw [List.length_cons, Nat.succ_mul] at h ⊢
    have hstep : (u + f j).toNat = u.toNat + g j := by
      rw [UInt32.toNat_add, hj, Nat.mod_eq_of_lt (by omega)]
    obtain ⟨hsum, hbound⟩ := ih (fun j hj => hf j (List.mem_cons_of_mem _ hj)) (u := u + f j)
      (by omega)
    rw [List.foldl_cons, hsum, hstep, List.map_cons, List.sum_cons]
    omega

/-- A sum that `mult` stores. -/
theorem toNat_multWord (ha : Within 511 a) (hb : Within 511 b) {i : ℕ} (hi : i < 32) :
    (multWord a b i).toNat = ∑ j ∈ range (i + 1), (word a j).toNat * (word b (i - j)).toNat +
        38 * ∑ j ∈ Ico (i + 1) 32, (word a j).toNat * (word b (i + 32 - j)).toNat ∧
      (multWord a b i).toNat < 2 ^ 30 := by
  have hmul : ∀ j k, j < 32 → k < 32 → (word a j).toNat * (word b k).toNat ≤ 511 * 511 :=
    fun j k hj hk => Nat.mul_le_mul (ha.word_le hj) (hb.word_le hk)
  have hconst : (38 : UInt32).toNat = 38 := rfl
  have hlow := toNat_foldl_add (f := fun j => word a j * word b (i - j))
    (g := fun j => (word a j).toNat * (word b (i - j)).toNat) (B := 38 * (511 * 511))
    (l := List.range (i + 1)) (u := 0) (by
      intro j hj
      have hle := hmul j (i - j) (by have := List.mem_range.mp hj; omega) (by omega)
      refine ⟨?_, by omega⟩
      rw [UInt32.toNat_mul, Nat.mod_eq_of_lt (by omega)]) (by
      rw [List.length_range, UInt32.toNat_zero]
      omega)
  have hhigh := toNat_foldl_add (f := fun j => 38 * word a j * word b (i + 32 - j))
    (g := fun j => 38 * ((word a j).toNat * (word b (i + 32 - j)).toNat)) (B := 38 * (511 * 511))
    (l := List.range' (i + 1) (31 - i))
    (u := (List.range (i + 1)).foldl (fun u j => u + word a j * word b (i - j)) 0) (by
      intro j hj
      have hj' := List.mem_range'_1.mp hj
      have hle := hmul j (i + 32 - j) (by omega) (by omega)
      have hle' := ha.word_le (show j < 32 by omega)
      refine ⟨?_, by omega⟩
      rw [UInt32.toNat_mul, UInt32.toNat_mul, hconst, Nat.mod_eq_of_lt (a := 38 * _) (by omega),
        mul_assoc, Nat.mod_eq_of_lt (by omega)]) (by
      rw [hlow.1, List.length_range', UInt32.toNat_zero]
      have hbound := hlow.2
      rw [List.length_range] at hbound
      omega)
  have hsum := hhigh.1
  have hbound := hlow.2
  have hbound' := hhigh.2
  rw [hlow.1, UInt32.toNat_zero, zero_add] at hsum
  rw [List.length_range] at hbound
  rw [List.length_range'] at hbound'
  unfold multWord
  dsimp only
  refine ⟨?_, by omega⟩
  rw [hsum, sum_range', List.range_eq_range', sum_range', mul_sum, range_eq_Ico, zero_add,
    show i + 1 + (31 - i) = 32 by omega]

/-- The radix to the power 32 is 38. -/
theorem radix_pow : (256 : ZMod prime) ^ 32 = 38 := by
  have hself : ((2 * prime : ℕ) : ZMod prime) = 0 := by
    rw [Nat.cast_mul, ZMod.natCast_self, mul_zero]
  have hpow : (256 : ℕ) ^ 32 = 2 * prime + 38 := by decide
  have hcast := congrArg (Nat.cast : ℕ → ZMod prime) hpow
  rw [Nat.cast_add, hself, zero_add] at hcast
  exact_mod_cast hcast

/-- **A product.** -/
theorem mult_spec (ha : Within 511 a) (hb : Within 511 b) :
    Within 128 (mult a b) ∧ (value (mult a b) : ZMod prime) = value a * value b := by
  obtain ⟨hwithin, hvalue⟩ := squeeze_spec (f := multWord a b)
    (g := fun i => (multWord a b i).toNat) (fun _ _ => rfl)
    fun i hi => (toNat_multWord ha hb hi).2
  refine ⟨hwithin, hvalue.trans ?_⟩
  rw [word_map_word_cast ha.length, word_map_word_cast hb.length, mul_eq_cyclic, radix_pow]
  push_cast
  refine sum_congr rfl fun i hi => ?_
  rw [(toNat_multWord ha hb (mem_range.mp hi)).1]
  push_cast
  rfl

theorem square_spec (ha : Within 511 a) :
    Within 128 (square a) ∧ (value (square a) : ZMod prime) = value a ^ 2 := by
  rw [square_eq, sq]
  exact mult_spec ha ha

end

/-! ### The result -/

/-- The number that bytes stand for. -/
def bytesValue (p : List UInt8) : ℕ := Nat.ofDigits 256 (p.map UInt8.toNat)

/-- The bytes of an array: only the last word may be larger. -/
theorem bytesValue_map {k : ℕ} {a : Number} (h : Within k a) :
    bytesValue (a.map UInt32.toUInt8) + 256 ^ 31 * (256 * ((word a 31).toNat / 256)) = value a := by
  have hbytes : bytesValue (a.map UInt32.toUInt8) =
      ∑ j ∈ range 32, ((word a j).toNat % 256) * 256 ^ j := by
    have hwords : a.map (UInt8.toNat ∘ UInt32.toUInt8) =
        ((List.range 32).map (word a)).map (UInt8.toNat ∘ UInt32.toUInt8) := by
      rw [map_word h.length]
    rw [bytesValue, List.map_map, ← ofDigits_range, hwords, List.map_map]
    rfl
  have hlow : ∑ j ∈ range 31, ((word a j).toNat % 256) * 256 ^ j =
      ∑ j ∈ range 31, (word a j).toNat * 256 ^ j :=
    sum_congr rfl fun j hj => by rw [Nat.mod_eq_of_lt (h.low j (mem_range.mp hj))]
  rw [hbytes, sum_range_succ, hlow, value_eq_sum h.length]
  omega

theorem minusp_within : Within 128 minusp := ⟨rfl, by decide, by decide⟩

theorem value_minusp : value minusp = 2 ^ 255 + 19 := by decide

theorem Within.value_eq_low {k : ℕ} {a : Number} (h : Within k a) :
    ∃ low < 256 ^ 31, value a = low + 256 ^ 31 * (word a 31).toNat :=
  ⟨_, h.low_lt, value_eq_sum h.length⟩

/-- The mask has all bits set if the bit is, and none otherwise. -/
theorem freeze_eq {a : Number} (h : a.length = 32) (hlen : (add a minusp).length = 32) :
    freeze a = if ((word (add a minusp) 31 >>> 7) &&& 1) = 1 then a else add a minusp := by
  have hbit : ∀ x : UInt32, x &&& 1 = 0 ∨ x &&& 1 = 1 := by
    intro x
    have hx : (x &&& 1).toNat = x.toNat % 2 := by
      rw [UInt32.toNat_and]
      exact Nat.and_one_is_mod _
    rcases Nat.mod_two_eq_zero_or_one x.toNat with h0 | h1
    · exact Or.inl (UInt32.toNat_inj.mp (hx.trans h0))
    · exact Or.inr (UInt32.toNat_inj.mp (hx.trans h1))
  unfold freeze
  dsimp only
  generalize add a minusp = a' at hlen
  rcases hbit (word a' 31 >>> 7) with h0 | h1
  · rw [h0, if_neg (by decide)]
    conv_rhs => rw [← map_word hlen]
    apply List.map_congr_left
    intro j _
    simp
  · rw [h1, if_pos rfl]
    conv_rhs => rw [← map_word h]
    apply List.map_congr_left
    intro j _
    have hones : (-1 : UInt32) &&& (word a j ^^^ word a' j) = word a j ^^^ word a' j :=
      UInt32.and_comm _ _ ▸ UInt32.and_neg_one
    rw [hones, UInt32.xor_comm (word a j), ← UInt32.xor_assoc, UInt32.xor_self, UInt32.zero_xor]

/-- **The bytes of the result are those of the remainder.** -/
theorem bytesValue_freeze {a : Number} (h : Within 128 a) :
    bytesValue ((freeze a).map UInt32.toUInt8) = value a % prime := by
  obtain ⟨hwithin, hvalue⟩ := add_spec h minusp_within
  rw [value_minusp] at hvalue
  have hprime : prime = 2 ^ 255 - 19 := rfl
  have hbit : ((word (add a minusp) 31 >>> 7) &&& 1).toNat =
      (word (add a minusp) 31).toNat / 128 % 2 := by
    rw [UInt32.toNat_and, UInt32.toNat_shiftRight]
    exact (Nat.and_one_is_mod _).trans (congrArg (· % 2) (Nat.shiftRight_eq_div_pow _ 7))
  obtain ⟨low, hlow, hsum⟩ := h.value_eq_low
  obtain ⟨low', hlow', hsum'⟩ := hwithin.value_eq_low
  have htop := h.top
  have htop' := hwithin.top
  have hbytes := bytesValue_map h
  have hbytes' := bytesValue_map hwithin
  rw [freeze_eq h.length hwithin.length]
  by_cases hlt : value a < prime
  · have hone : (word (add a minusp) 31 >>> 7) &&& 1 = 1 := by
      apply UInt32.toNat_inj.mp
      rw [hbit]
      change _ = 1
      omega
    rw [if_pos hone, Nat.mod_eq_of_lt hlt]
    omega
  · have hzero : ((word (add a minusp) 31 >>> 7) &&& 1) ≠ 1 := by
      intro hone
      rw [hone] at hbit
      change 1 = _ at hbit
      omega
    have hmod : value a % prime = value a - prime := by
      rw [Nat.mod_eq_sub_mod (not_lt.mp hlt), Nat.mod_eq_of_lt]
      omega
    rw [if_neg hzero, hmod]
    omega

end N2n.Curve25519
