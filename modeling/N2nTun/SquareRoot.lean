import N2nTun.Lib.Loop
import N2nTun.RandomNumbers
import N2nTun.SupernodeList

/-!
# The approximate square root

`i_sqrt` once more, as the code computes it: its loop as a loop, which does not end for a negative
number, every entry that it reads as one that has to be in its table, and every `int` as a number
that has to fit.  `n2n_rand_sqr` uses it twice, the second time on what the first root leaves.

## Main definitions

* `countStep`, `iSqrtIn`, `intSqrtIn` — the loop and the functions.
* `n2nRandSqr` — the random number, with the generator that it is drawn from.

## Main results

* `iSqrtIn_eq` — for a number that is not negative all is in range.
* `iSqrtIn_neg` — for a negative number the loop does not end.
* `n2nRandSqr_within` — **the root is never too large, so that there always is a random number, and
  it is within its bounds.**
-/

namespace N2n

open Loops

/-! ### The functions -/

/-- The value of an expression of type `int`; `none` if it overflows. -/
def inInt (v : ℤ) : Option ℤ := if -2 ^ 31 ≤ v ∧ v < 2 ^ 31 then some v else none

/-- One pass of `while(t) { cnt++; t >>= 1; }`.  The shift is that of a signed number. -/
def countStep (s : ℕ × ℤ) : (ℕ × ℤ) ⊕ ℕ :=
  if s.2 = 0 then .inr s.1 else .inl (s.1 + 1, s.2 / 2)

/-- The number with its leading bits in the places 0 to 5. -/
def leadingBits (cnt : ℕ) (val : ℤ) : Option ℤ :=
  if 6 ≥ cnt then inInt (val * 2 ^ (6 - cnt)) else some (val / 2 ^ (cnt - 6))

/-- `i_sqrt` with at most `passes` passes of its loop; `none` if it does not end or leaves a
range. -/
def iSqrtIn (passes : ℕ) (val : ℤ) : Option ℤ :=
  loop countStep passes (0, val) |>.bind fun cnt =>
  leadingBits cnt val |>.bind fun t =>
  ftbl[cnt]? |>.bind fun high =>
  ftbl2[(t % 32).toNat]? |>.bind fun low =>
  (inInt (high * low)).map fun product => product / 2 ^ 15

/-- `int_sqrt`. -/
def intSqrtIn (passes : ℕ) (val : ℤ) : Option ℤ :=
  iSqrtIn passes val |>.bind fun ret =>
  inInt (ret * ret) |>.bind fun square =>
  inInt (val - square) |>.bind fun left =>
  iSqrtIn passes left |>.bind fun rest => inInt (ret + rest.tdiv 16)

/-- `n2n_rand_sqr`: the number, and the state of the generator. -/
def n2nRandSqr (passes : ℕ) (maxN : UInt32) (state : RnGeneratorState) :
    Option (UInt32 × RnGeneratorState) :=
  let rawMax := (maxN + 2) * (maxN + 2)
  let (rand, state) := n2nRand state
  if rawMax = 0 then none
  else
    let rawRnd := (rand % rawMax.toUInt64).toUInt32
    (intSqrtIn passes rawRnd.toInt32.toInt).map fun root =>
      let ret := Int32.ofInt (root.tdiv 2)
      let ret := if rawRnd &&& 1 ≠ 0 then ret else -ret
      let ret := (maxN / 2 + ret.toUInt32).toInt32
      let ret := if ret < 0 then 0 else ret
      (if ret.toUInt32 > maxN then maxN else ret.toUInt32, state)

/-! ### The loop -/

/-- The loop counts the bits. -/
theorem loop_countStep {bits v : ℕ} (h : v < 2 ^ bits) (cnt : ℕ) :
    loop countStep (bits + 1) (cnt, (v : ℤ)) = some (cnt + bitCount bits v) := by
  induction bits generalizing v cnt with
  | zero =>
    obtain rfl : v = 0 := by omega
    rfl
  | succ bits ih =>
    rw [loop, countStep, bitCount]
    by_cases hzero : v = 0
    · simp [hzero]
    · have hhalf : ((v : ℤ) / 2) = ((v / 2 : ℕ) : ℤ) := by omega
      have hnext := ih (v := v / 2) (by rw [Nat.pow_succ] at h; omega) (cnt + 1)
      simp only [Int.natCast_eq_zero, if_neg hzero, hhalf, hnext]
      congr 1
      omega

/-- A negative number is shifted to `-1`, and stays there. -/
theorem loop_countStep_neg (passes cnt : ℕ) {v : ℤ} (h : v < 0) :
    loop countStep passes (cnt, v) = none := by
  induction passes generalizing cnt v with
  | zero => rfl
  | succ passes ih =>
    rw [loop, countStep, if_neg (by dsimp only; omega)]
    exact ih (cnt + 1) (by omega)

theorem iSqrtIn_neg (passes : ℕ) {v : ℤ} (h : v < 0) : iSqrtIn passes v = none := by
  rw [iSqrtIn, loop_countStep_neg passes 0 h]
  rfl

/-! ### Tables and products -/

theorem inInt_natCast {n : ℕ} (h : n < 2 ^ 31) : inInt n = some (n : ℤ) :=
  if_pos ⟨by omega, by omega⟩

/-- No product of two entries is too large. -/
theorem ftbl_mul_lt (i j : ℕ) : ftbl.getD i 0 * ftbl2.getD j 0 < 2 ^ 31 := by
  have hall : ∀ a ∈ ftbl, ∀ b ∈ ftbl2, a * b < 2 ^ 31 := by decide +kernel
  rw [List.getD_eq_getElem?_getD, List.getD_eq_getElem?_getD]
  cases hi : ftbl[i]? with
  | none => simp
  | some a =>
    cases hj : ftbl2[j]? with
    | none => simp
    | some b => exact hall a (List.mem_of_getElem? hi) b (List.mem_of_getElem? hj)

/-- The leading bits are fewer than the number has. -/
theorem leadingBits_eq {cnt v : ℕ} (h : v < 2 ^ cnt) :
    leadingBits cnt v =
      some ((if 6 ≥ cnt then v * 2 ^ (6 - cnt) else v / 2 ^ (cnt - 6) : ℕ) : ℤ) := by
  unfold leadingBits
  split_ifs with hsmall
  · have hfits : v * 2 ^ (6 - cnt) < 64 := by
      calc v * 2 ^ (6 - cnt) < 2 ^ cnt * 2 ^ (6 - cnt) :=
            Nat.mul_lt_mul_of_pos_right h (Nat.two_pow_pos _)
        _ = 64 := by rw [← Nat.pow_add, Nat.add_sub_cancel' hsmall]
    have hcast : (v : ℤ) * 2 ^ (6 - cnt) = ((v * 2 ^ (6 - cnt) : ℕ) : ℤ) := by
      push_cast
      rfl
    rw [hcast]
    exact inInt_natCast (hfits.trans (by decide))
  · push_cast
    rfl

/-- **For a number that is not negative, all is in range.** -/
theorem iSqrtIn_eq {v : ℕ} (h : v < 2 ^ 31) : iSqrtIn 33 v = iSqrt v := by
  have hv : v < 2 ^ 32 := by omega
  obtain ⟨hlt, hle⟩ := bitCount_bounds hv
  have hcnt : bitCount 32 v ≤ 31 := by
    by_contra hlarge
    have hne : v ≠ 0 := by
      rintro rfl
      exact hlarge (by decide)
    have hpow : 2 ^ 32 ≤ 2 ^ bitCount 32 v := Nat.pow_le_pow_right (by decide) (by omega)
    have := hle hne
    omega
  rw [iSqrtIn, loop_countStep hv 0, iSqrt, if_neg (by omega), Int.toNat_natCast, Option.bind_some,
    Nat.zero_add]
  generalize bitCount 32 v = cnt at hlt hle hcnt
  rw [leadingBits_eq hlt, Option.bind_some]
  dsimp only
  generalize (if 6 ≥ cnt then v * 2 ^ (6 - cnt) else v / 2 ^ (cnt - 6)) = t
  have hindex : ((t : ℤ) % 32).toNat = t % 32 := by omega
  have hmod := Nat.mod_lt t (show 0 < 32 by decide)
  have hhigh : ftbl[cnt]? = some (ftbl.getD cnt 0) := by
    have hlen : ftbl.length = 33 := rfl
    rw [List.getD_eq_getElem _ _ (by omega), List.getElem?_eq_getElem]
  have hlow : ftbl2[t % 32]? = some (ftbl2.getD (t % 32) 0) := by
    have hlen : ftbl2.length = 32 := rfl
    rw [List.getD_eq_getElem _ _ (by omega), List.getElem?_eq_getElem]
  rw [hindex, hhigh, hlow, Option.bind_some, Option.bind_some, ← Int.natCast_mul,
    inInt_natCast (ftbl_mul_lt cnt (t % 32)), Option.map_some]
  push_cast
  rfl

/-! ### The random number -/

theorem lt_of_sq_lt {n : ℕ} (h : n * n < 2 ^ 31) : n < 2 ^ 16 := by
  by_contra hlarge
  have := Nat.mul_le_mul (not_lt.mp hlarge) (not_lt.mp hlarge)
  omega

/-- The root of the rest is in range as well. -/
theorem intSqrtIn_eq {v : ℕ} (h : v < 2 ^ 31) :
    ∃ root : ℕ, intSqrt v = some (root : ℤ) ∧ intSqrtIn 33 v = some (root : ℤ) := by
  obtain ⟨r, hr, hle⟩ := iSqrt_sq_le h
  have hrest : v - r * r < 2 ^ 31 := lt_of_le_of_lt (Nat.sub_le _ _) h
  obtain ⟨r', hr', hle'⟩ := iSqrt_sq_le hrest
  have hleft : (v : ℤ) - (r * r : ℕ) = (v - r * r : ℕ) := (Nat.cast_sub hle).symm
  have hdiv : (r' : ℤ).tdiv 16 = (r' / 16 : ℕ) := by
    rw [Int.tdiv_eq_ediv_of_nonneg (Int.natCast_nonneg _)]
    push_cast
    rfl
  have hsum : r + r' / 16 < 2 ^ 31 := by
    have hrb := lt_of_sq_lt (lt_of_le_of_lt hle h)
    have hrb' := lt_of_sq_lt (lt_of_le_of_lt hle' hrest)
    omega
  refine ⟨r + r' / 16, ?_, ?_⟩
  · rw [intSqrt, hr, Option.bind_some, ← Int.natCast_mul, hleft, hr', Option.map_some]
    push_cast
    rfl
  · rw [intSqrtIn, iSqrtIn_eq h, hr, Option.bind_some, ← Int.natCast_mul,
      inInt_natCast (lt_of_le_of_lt hle h), Option.bind_some, hleft, inInt_natCast hrest,
      Option.bind_some, iSqrtIn_eq hrest, hr', Option.bind_some, hdiv, ← Int.natCast_add,
      inInt_natCast hsum]

theorem intSqrtIn_neg (passes : ℕ) {v : ℤ} (h : v < 0) : intSqrtIn passes v = none := by
  rw [intSqrtIn, iSqrtIn_neg passes h]
  rfl

theorem intSqrt_neg {v : ℤ} (h : v < 0) : intSqrt v = none := by
  rw [intSqrt, iSqrt, if_pos h]
  rfl

/-- As an `int`, the random number is negative from `2 ^ 31` on. -/
theorem toInt_toInt32_neg {x : UInt32} (h : 2 ^ 31 ≤ x.toNat) : x.toInt32.toInt < 0 := by
  show x.toBitVec.toInt < 0
  have hx := x.toNat_lt
  rw [BitVec.toInt_eq_toNat_cond, if_neg]
  · show ((x.toNat : ℕ) : ℤ) - (2 ^ 32 : ℕ) < 0
    omega
  · show ¬ 2 * x.toNat < 2 ^ 32
    omega

/-- **The number is the one of the generator**, whatever the bound is. -/
theorem n2nRandSqr_eq (maxN : UInt32) (state : RnGeneratorState) :
    n2nRandSqr 33 maxN state =
      (nRandSqr maxN (n2nRand state).1).map fun r => (r, (n2nRand state).2) := by
  unfold n2nRandSqr nRandSqr
  dsimp only
  by_cases hzero : (maxN + 2) * (maxN + 2) = 0
  · rw [if_pos hzero, if_pos hzero]
    rfl
  · rw [if_neg hzero, if_neg hzero]
    generalize ((n2nRand state).1 % ((maxN + 2) * (maxN + 2)).toUInt64).toUInt32 = rawRnd
    by_cases hsmall : rawRnd.toNat < 2 ^ 31
    · obtain ⟨root, hroot, hrootIn⟩ := intSqrtIn_eq hsmall
      rw [toInt_toInt32 hsmall, hroot, hrootIn, Option.map_some, Option.map_some,
        Option.map_some, Int.tdiv_eq_ediv_of_nonneg (Int.natCast_nonneg _)]
    · have hneg := toInt_toInt32_neg (not_lt.mp hsmall)
      rw [intSqrtIn_neg 33 hneg, intSqrt_neg hneg]
      rfl

theorem clamp_le (maxN x : UInt32) : (if x > maxN then maxN else x) ≤ maxN := by
  split_ifs with hlarge
  · exact UInt32.le_refl maxN
  · exact UInt32.not_lt.mp hlarge

/-- The number is clamped at its end. -/
theorem nRandSqr_le {maxN r : UInt32} {rand : UInt64} (h : nRandSqr maxN rand = some r) :
    r ≤ maxN := by
  unfold nRandSqr at h
  dsimp only at h
  by_cases hzero : (maxN + 2) * (maxN + 2) = 0
  · rw [if_pos hzero] at h
    cases h
  · rw [if_neg hzero] at h
    obtain ⟨root, -, rfl⟩ := Option.map_eq_some_iff.mp h
    exact clamp_le _ _

/-- **The root is never too large, and the random number is within its bounds.**  The square of
`i_sqrt` is at most its argument, so that the second call of `int_sqrt` has one that is not
negative; no entry outside the tables is read, and no product overflows. -/
theorem n2nRandSqr_within :
    (∀ v : ℕ, v < 2 ^ 31 → ∃ r : ℕ, iSqrtIn 33 v = some (r : ℤ) ∧ r * r ≤ v) ∧
    ∀ (maxN : UInt32) (state : RnGeneratorState), (maxN.toNat + 2) ^ 2 < 2 ^ 31 →
      ∃ r, n2nRandSqr 33 maxN state = some (r, (n2nRand state).2) ∧ r ≤ maxN := by
  constructor
  · intro v hv
    rw [iSqrtIn_eq hv]
    exact iSqrt_sq_le hv
  · intro maxN state hmax
    have hroot : maxN.toNat + 2 ≤ 46340 := by
      by_contra hlarge
      have := Nat.mul_le_mul (not_le.mp hlarge) (not_le.mp hlarge)
      rw [Nat.pow_two] at hmax
      omega
    obtain ⟨r, hr⟩ := Option.isSome_iff_exists.mp (nRandSqr_isSome hroot (n2nRand state).1)
    refine ⟨r, ?_, nRandSqr_le hr⟩
    rw [n2nRandSqr_eq, hr]
    rfl

end N2n
