import Mathlib.Data.UInt
import N2nTun.TimeStamp

/-!
# The order of issued time stamps

A stamp is the seconds in its upper half, then the microseconds and an 8-bit counter, or a
28-bit counter alone, and four flag bits. This module reads the mask arithmetic of
`time_stamp` as arithmetic on these parts and settles when the issued stamps increase: as long
as the clock does, except at the step that gives up the microseconds.

## Main definitions

* `timeStamps` — the stamps issued by successive calls.
* `ClockAhead` — at a call, the kept part of the clock does not go back, and the microseconds
  are not given up after the first one of a second.

## Main results

* `timeStamp_fine`, `timeStamp_coarse` — the stamp issued next, in both modes.
* `timeStamps_lt_iff` — the issued stamps increase exactly when the clock stays ahead.
* `clockStaysAhead_zero_iff` — which a clock that does not go back does unless it meets a full
  counter late in a second.
-/

namespace N2n

/-! ### Masks as arithmetic -/

/-- The bits above a mask of `k` low bits. -/
theorem and_not_lowMask (x : BitVec 64) (k : Nat) :
    x &&& ~~~ (BitVec.ofNat 64 (2 ^ k - 1)) = (x >>> k) <<< k := by
  apply BitVec.eq_of_getLsbD_eq
  intro i hi
  simp only [BitVec.getLsbD_and, BitVec.getLsbD_not, BitVec.getLsbD_ofNat,
    Nat.testBit_two_pow_sub_one, BitVec.getLsbD_shiftLeft, BitVec.getLsbD_ushiftRight]
  by_cases hik : i < k
  · simp [hik, hi]
  · simp [hik, hi, Nat.add_sub_cancel' (Nat.le_of_not_lt hik)]

theorem toNat_shift_back (x : BitVec 64) (k : Nat) :
    ((x >>> k) <<< k).toNat = x.toNat / 2 ^ k * 2 ^ k := by
  rw [BitVec.toNat_shiftLeft, BitVec.toNat_ushiftRight, Nat.shiftRight_eq_div_pow,
    Nat.shiftLeft_eq]
  have hle : x.toNat / 2 ^ k * 2 ^ k ≤ x.toNat := Nat.div_mul_le_self _ _
  exact Nat.mod_eq_of_lt (hle.trans_lt x.isLt)

/-- `maskLo` with the flag clear: the counter and flag bits. -/
theorem maskLo_zero : maskLo 0 = 0xFFF := by decide

/-- `maskLo` with the flag set: everything below the seconds. -/
theorem maskLo_one : maskLo 1 = 0xFFFFFFFF := by decide

@[simp] theorem toNat_and_fine (x : UInt64) : (x &&& 0xFFF).toNat = x.toNat % 2 ^ 12 := by
  rw [UInt64.toNat_and]
  exact Nat.and_two_pow_sub_one_eq_mod _ 12

@[simp] theorem toNat_and_coarse (x : UInt64) : (x &&& 0xFFFFFFFF).toNat = x.toNat % 2 ^ 32 := by
  rw [UInt64.toNat_and]
  exact Nat.and_two_pow_sub_one_eq_mod _ 32

@[simp] theorem toNat_and_notFine (x : UInt64) :
    (x &&& ~~~ 0xFFF).toNat = x.toNat / 2 ^ 12 * 2 ^ 12 := by
  have h := congrArg BitVec.toNat (and_not_lowMask x.toBitVec 12)
  rw [toNat_shift_back] at h
  exact h

@[simp] theorem toNat_and_notCoarse (x : UInt64) :
    (x &&& ~~~ 0xFFFFFFFF).toNat = x.toNat / 2 ^ 32 * 2 ^ 32 := by
  have h := congrArg BitVec.toNat (and_not_lowMask x.toBitVec 32)
  rw [toNat_shift_back] at h
  exact h

/-- The flag bit of a stamp. -/
theorem toNat_flag (x : UInt64) : ((x <<< 63) >>> 63).toNat = x.toNat % 2 := by
  have hlt := x.toNat_lt
  rw [UInt64.toNat_shiftRight, UInt64.toNat_shiftLeft, Nat.shiftRight_eq_div_pow,
    Nat.shiftLeft_eq]
  have h63 : (63 : UInt64).toNat % 64 = 63 := rfl
  rw [h63]
  omega

theorem flag_eq_zero {x : UInt64} (h : x.toNat % 2 = 0) : (x <<< 63) >>> 63 = 0 :=
  UInt64.toNat_inj.mp ((toNat_flag x).trans h)

theorem flag_eq_one {x : UInt64} (h : x.toNat % 2 = 1) : (x <<< 63) >>> 63 = 1 :=
  UInt64.toNat_inj.mp ((toNat_flag x).trans h)

/-- Bits set below a multiple of a power of two are added. -/
theorem toNat_or_low {x y : UInt64} {k a : Nat} (hx : x.toNat = a * 2 ^ k)
    (hy : y.toNat < 2 ^ k) : (x ||| y).toNat = a * 2 ^ k + y.toNat := by
  rw [UInt64.toNat_or, hx, Nat.mul_comm, Nat.two_pow_add_eq_or_of_lt hy]

/-! ### One stamp -/

/-- The `micro_seconds` that `time_stamp` makes of the time of day. -/
def Tod.microSeconds (tod : Tod) : UInt64 := (tod.sec <<< 32) + (tod.usec <<< 12)

/-- The seconds of a stamp. -/
def Tod.second (tod : Tod) : Nat := tod.microSeconds.toNat / 2 ^ 32

/-- The microseconds of `gettimeofday` leave the 12 bits of the counter and the flags free. -/
theorem Tod.microSeconds_dvd (tod : Tod) : tod.microSeconds.toNat / 2 ^ 12 * 2 ^ 12 =
    tod.microSeconds.toNat := by
  have h32 : (32 : UInt64).toNat % 64 = 32 := rfl
  have h12 : (12 : UInt64).toNat % 64 = 12 := rfl
  rw [microSeconds, UInt64.toNat_add, UInt64.toNat_shiftLeft, UInt64.toNat_shiftLeft, h32, h12,
    Nat.shiftLeft_eq, Nat.shiftLeft_eq]
  omega

/-- What stands for the branchless choice of `time_stamp`: the flag as a mask. -/
theorem and_neg_flag (x : UInt64) (p : Prop) [Decidable p] :
    x &&& (0 - (if p then 1 else 0)) = if p then x else 0 := by
  split_ifs
  · exact UInt64.and_neg_one
  · exact UInt64.and_zero

theorem toNat_counter (x : UInt64) {c : Nat} (hx : x.toNat / 16 = c) :
    (((x >>> 4) + 1) <<< 4).toNat = (c + 1) * 16 % 2 ^ 64 := by
  have h4 : (4 : UInt64).toNat % 64 = 4 := rfl
  have hone : (1 : UInt64).toNat = 1 := rfl
  rw [UInt64.toNat_shiftLeft, UInt64.toNat_add, UInt64.toNat_shiftRight, h4, hone,
    Nat.shiftRight_eq_div_pow, Nat.shiftLeft_eq]
  omega

theorem fine_div {m c : Nat} (hc : c < 256) : (m * 2 ^ 12 + c * 16) / 2 ^ 12 = m := by omega

theorem fine_mod {m c : Nat} (hc : c < 256) : (m * 2 ^ 12 + c * 16) % 2 ^ 12 = c * 16 := by omega

/-- **The next stamp while the microseconds are kept**: a new microsecond clears the counter,
an old one raises it, and raising a full one gives up the microseconds. -/
theorem timeStamp_fine {previous : UInt64} {m c : Nat}
    (hprev : previous.toNat = m * 2 ^ 12 + c * 16) (hc : c < 256) (tod : Tod) :
    (timeStamp previous tod).toNat =
      if m = tod.microSeconds.toNat / 2 ^ 12 then
        if c = 255 then tod.second * 2 ^ 32 + 0x1001 else m * 2 ^ 12 + (c + 1) * 16
      else tod.microSeconds.toNat := by
  have hco : (previous <<< 63) >>> 63 = 0 := flag_eq_zero (by omega)
  have hsame : previous &&& ~~~ 0xFFF = tod.microSeconds &&& ~~~ 0xFFF ↔
      m = tod.microSeconds.toNat / 2 ^ 12 := by
    rw [← UInt64.toNat_inj, toNat_and_notFine, toNat_and_notFine]
    omega
  have hdvd := tod.microSeconds_dvd
  unfold timeStamp
  dsimp only
  rw [hco, maskLo_zero, ← Tod.microSeconds]
  simp only [hsame, and_neg_flag]
  by_cases hm : m = tod.microSeconds.toNat / 2 ^ 12
  · simp only [if_pos hm]
    have hcounter := toNat_counter (previous &&& 0xFFF) (c := c)
      (by rw [toNat_and_fine]; omega)
    generalize (((previous &&& 0xFFF) >>> 4) + 1) <<< 4 = counter at hcounter
    have hfull : counter &&& 0xFFF = 0 ↔ c = 255 := by
      have hzero : (0 : UInt64).toNat = 0 := rfl
      rw [← UInt64.toNat_inj, toNat_and_fine, hzero]
      omega
    by_cases h255 : c = 255
    · have hflag : ((1 : UInt64) &&& 1) ||| 0 = 1 := by decide
      have hhigh := toNat_or_low (toNat_and_notCoarse tod.microSeconds) (y := counter) (by omega)
      have hcounter : counter.toNat = 4096 := by omega
      have hlow : (tod.microSeconds &&& ~~~ 0xFFFFFFFF ||| counter).toNat =
          (tod.second * 2 ^ 31 + 2048) * 2 ^ 1 := by
        rw [hhigh, hcounter, Tod.second]
        ring
      rw [if_pos (hfull.mpr h255), if_pos h255, hflag, maskLo_one,
        toNat_or_low hlow (by decide)]
      have hone : (1 : UInt64).toNat = 1 := rfl
      rw [hone]
      ring
    · have hflag : ((0 : UInt64) &&& 1) ||| 0 = 0 := by decide
      rw [if_neg (mt hfull.mp h255), if_neg h255, hflag, maskLo_zero, UInt64.or_zero,
        toNat_or_low (toNat_and_notFine _) (by omega), hcounter, ← hm,
        Nat.mod_eq_of_lt (by omega)]
  · have hcounter : (0 : UInt64) <<< 4 = 0 := by decide
    have hflag : ((1 : UInt64) &&& 0) ||| 0 = 0 := by decide
    have hzero : (0 : UInt64) &&& 0xFFF = 0 := by decide
    simp only [if_neg hm]
    rw [hcounter, hzero, if_pos rfl, hflag, maskLo_zero, UInt64.or_zero, UInt64.or_zero,
      toNat_and_notFine, hdvd]

/-- **The next stamp once the microseconds are given up**: a new second clears the counter, an
old one raises it. -/
theorem timeStamp_coarse {previous : UInt64} {s c : Nat}
    (hprev : previous.toNat = s * 2 ^ 32 + c * 16 + 1) (hc : c < 2 ^ 28) (tod : Tod)
    (hc' : s = tod.second → c + 1 < 2 ^ 28) :
    (timeStamp previous tod).toNat =
      if s = tod.second then s * 2 ^ 32 + (c + 1) * 16 + 1 else tod.second * 2 ^ 32 + 1 := by
  have hco : (previous <<< 63) >>> 63 = 1 := flag_eq_one (by omega)
  have hsame : previous &&& ~~~ 0xFFFFFFFF = tod.microSeconds &&& ~~~ 0xFFFFFFFF ↔
      s = tod.second := by
    rw [← UInt64.toNat_inj, toNat_and_notCoarse, toNat_and_notCoarse, Tod.second]
    omega
  have hflag : ∀ p : Prop, [Decidable p] → ∀ q : Prop, [Decidable q] →
      (((if p then 1 else 0) &&& (if q then 1 else 0)) ||| 1 : UInt64) = 1 := by
    intro p _ q _
    split_ifs <;> decide
  unfold timeStamp
  dsimp only
  rw [hco, maskLo_one, ← Tod.microSeconds]
  simp only [hsame, and_neg_flag, hflag, maskLo_one]
  have hhigh := toNat_and_notCoarse tod.microSeconds
  have hone : (1 : UInt64).toNat = 1 := rfl
  by_cases hs : s = tod.second
  · have hc' := hc' hs
    have hcounter := toNat_counter (previous &&& 0xFFFFFFFF) (c := c)
      (by rw [toNat_and_coarse]; omega)
    simp only [if_pos hs]
    generalize (((previous &&& 0xFFFFFFFF) >>> 4) + 1) <<< 4 = counter at hcounter
    have hlow : (tod.microSeconds &&& ~~~ 0xFFFFFFFF ||| counter).toNat =
        (s * 2 ^ 31 + (c + 1) * 8) * 2 ^ 1 := by
      rw [toNat_or_low hhigh (by omega), hcounter, hs, Tod.second]
      omega
    rw [toNat_or_low hlow (by decide), hone]
    omega
  · have hcounter : (0 : UInt64) <<< 4 = 0 := by decide
    simp only [if_neg hs]
    rw [hcounter, UInt64.or_zero, toNat_or_low hhigh (by decide), hone, Tod.second]

/-! ### The parts of an issued stamp -/

/-- A stamp as it is issued, with a counter of at most `n`. -/
inductive Issued (stamp : UInt64) (n : Nat) : Prop
  | fine (m c : Nat) (hstamp : stamp.toNat = m * 2 ^ 12 + c * 16) (hc : c < 256) (hn : c ≤ n)
  | coarse (s c : Nat) (hstamp : stamp.toNat = s * 2 ^ 32 + c * 16 + 1) (hn : c ≤ n)

/-- The number of calls in the second of the next stamp, that call included. -/
def callsInSecond (previous : UInt64) (n : Nat) (tod : Tod) : Nat :=
  if previous.toNat / 2 ^ 32 = tod.second then n + 1 else 1

/-- The stamp `previous` has used up its 8-bit counter in the microsecond of `tod`: the next
stamp gives up the microseconds. -/
def CounterFull (previous : UInt64) (tod : Tod) : Prop :=
  previous &&& 0xFFF = 0xFF0 ∧ previous &&& ~~~ 0xFFF = tod.microSeconds &&& ~~~ 0xFFF

/-- The part of the clock that the mode of `previous` keeps does not go back, and if the
microseconds are given up, then in the first one of a second. -/
def ClockAhead (previous : UInt64) (tod : Tod) : Prop :=
  previous &&& ~~~ maskLo (previous &&& 1) ≤ tod.microSeconds &&& ~~~ maskLo (previous &&& 1) ∧
    (CounterFull previous tod → tod.microSeconds &&& 0xFFFFFFFF = 0)

theorem toNat_and_one (x : UInt64) : (x &&& 1).toNat = x.toNat % 2 := by
  rw [UInt64.toNat_and]
  exact Nat.and_two_pow_sub_one_eq_mod _ 1

theorem and_one_of_fine {stamp : UInt64} {m c : Nat}
    (hstamp : stamp.toNat = m * 2 ^ 12 + c * 16) : stamp &&& 1 = 0 :=
  UInt64.toNat_inj.mp ((toNat_and_one stamp).trans (show stamp.toNat % 2 = 0 by omega))

theorem and_one_of_coarse {stamp : UInt64} {s c : Nat}
    (hstamp : stamp.toNat = s * 2 ^ 32 + c * 16 + 1) : stamp &&& 1 = 1 :=
  UInt64.toNat_inj.mp ((toNat_and_one stamp).trans (show stamp.toNat % 2 = 1 by omega))

theorem issued_timeStamp {previous : UInt64} {n : Nat} (h : Issued previous n)
    (hn : n < 2 ^ 28) (tod : Tod) (hn' : callsInSecond previous n tod < 2 ^ 28) :
    Issued (timeStamp previous tod) (callsInSecond previous n tod) ∧
      (timeStamp previous tod).toNat / 2 ^ 32 = tod.second := by
  have hdvd := tod.microSeconds_dvd
  have hsecond : tod.second = tod.microSeconds.toNat / 2 ^ 32 := rfl
  unfold callsInSecond at hn' ⊢
  cases h with
  | fine m c hstamp hc hcn =>
    have hnext := timeStamp_fine hstamp hc tod
    by_cases hm : m = tod.microSeconds.toNat / 2 ^ 12
    · have hsame : previous.toNat / 2 ^ 32 = tod.second := by omega
      rw [if_pos hm] at hnext
      rw [if_pos hsame]
      by_cases hfull : c = 255
      · rw [if_pos hfull] at hnext
        exact ⟨.coarse tod.second 256 (by omega) (by omega), by omega⟩
      · rw [if_neg hfull] at hnext
        exact ⟨.fine m (c + 1) hnext (by omega) (by omega), by omega⟩
    · rw [if_neg hm] at hnext
      exact ⟨.fine (tod.microSeconds.toNat / 2 ^ 12) 0 (by omega) (by omega) (Nat.zero_le _),
        by omega⟩
  | coarse s c hstamp hcn =>
    have hprev : previous.toNat / 2 ^ 32 = s := by omega
    rw [hprev] at hn' ⊢
    have hnext := timeStamp_coarse hstamp (by omega) tod
      (fun hs => by rw [if_pos hs] at hn'; omega)
    by_cases hs : s = tod.second
    · rw [if_pos hs] at hnext
      rw [if_pos hs] at hn' ⊢
      exact ⟨.coarse s (c + 1) hnext (by omega), by omega⟩
    · rw [if_neg hs] at hnext
      exact ⟨.coarse tod.second 0 (by omega) (Nat.zero_le _), by omega⟩

/-- **One call**: the stamp goes up exactly when the clock is ahead. -/
theorem lt_timeStamp_iff {previous : UInt64} {n : Nat} (h : Issued previous n)
    (hn : n < 2 ^ 28) {tod : Tod} (hn' : callsInSecond previous n tod < 2 ^ 28) :
    previous < timeStamp previous tod ↔ ClockAhead previous tod := by
  have hdvd := tod.microSeconds_dvd
  have hsecond : tod.second = tod.microSeconds.toNat / 2 ^ 32 := rfl
  have hfull : CounterFull previous tod ↔ previous.toNat % 2 ^ 12 = 4080 ∧
      previous.toNat / 2 ^ 12 = tod.microSeconds.toNat / 2 ^ 12 := by
    have h4080 : (0xFF0 : UInt64).toNat = 4080 := rfl
    rw [CounterFull, ← UInt64.toNat_inj, ← UInt64.toNat_inj, toNat_and_fine, toNat_and_notFine,
      toNat_and_notFine, h4080]
    omega
  have hstart : tod.microSeconds &&& 0xFFFFFFFF = 0 ↔ tod.microSeconds.toNat % 2 ^ 32 = 0 := by
    rw [← UInt64.toNat_inj, toNat_and_coarse]
    rfl
  rw [ClockAhead, hfull, hstart, UInt64.lt_iff_toNat_lt]
  cases h with
  | fine m c hstamp hc hcn =>
    have hnext := timeStamp_fine hstamp hc tod
    rw [and_one_of_fine hstamp, maskLo_zero, UInt64.le_iff_toNat_le, toNat_and_notFine,
      toNat_and_notFine]
    split_ifs at hnext <;> omega
  | coarse s c hstamp hcn =>
    have hnext := timeStamp_coarse hstamp (by omega) tod (by grind [callsInSecond])
    rw [and_one_of_coarse hstamp, maskLo_one, UInt64.le_iff_toNat_le, toNat_and_notCoarse,
      toNat_and_notCoarse]
    split_ifs at hnext <;> omega

/-! ### Runs of calls -/

/-- The stamps that successive calls of `time_stamp` issue. -/
def timeStamps (previous : UInt64) : List Tod → List UInt64
  | [] => []
  | tod :: tods => timeStamp previous tod :: timeStamps (timeStamp previous tod) tods

/-- The clock is ahead at every call. -/
def ClockStaysAhead (previous : UInt64) : List Tod → Prop
  | [] => True
  | tod :: tods => ClockAhead previous tod ∧ ClockStaysAhead (timeStamp previous tod) tods

/-- `n` calls were made in the second of `previous`, and with those to come no second sees
`2 ^ 28` of them. -/
def RateOk (previous : UInt64) (n : Nat) (tods : List Tod) : Prop :=
  ∀ s, (if s = previous.toNat / 2 ^ 32 then n else 0) + tods.countP (fun tod => tod.second = s) <
    2 ^ 28

theorem RateOk.calls {previous : UInt64} {n : Nat} {tod : Tod} {tods : List Tod}
    (h : RateOk previous n (tod :: tods)) :
    n < 2 ^ 28 ∧ callsInSecond previous n tod < 2 ^ 28 := by
  have hs := h (previous.toNat / 2 ^ 32)
  rw [if_pos rfl, List.countP_cons] at hs
  unfold callsInSecond
  by_cases htod : previous.toNat / 2 ^ 32 = tod.second
  · simp only [htod, decide_true, if_true] at hs ⊢
    omega
  · rw [if_neg htod]
    omega

theorem RateOk.next {previous : UInt64} {n : Nat} {tod : Tod} {tods : List Tod}
    (h : RateOk previous n (tod :: tods)) {stamp : UInt64}
    (hstamp : stamp.toNat / 2 ^ 32 = tod.second) :
    RateOk stamp (callsInSecond previous n tod) tods := by
  intro s
  have hs := h s
  rw [List.countP_cons] at hs
  rw [hstamp]
  unfold callsInSecond
  by_cases htod : s = tod.second
  · subst htod
    simp only [decide_true, if_true, eq_comm (a := tod.second)] at hs ⊢
    split_ifs at hs ⊢ <;> omega
  · rw [if_neg htod]
    omega

/-- From any issued stamp, the later ones go up from it exactly when the clock stays ahead. -/
theorem isChain_timeStamps_iff (tods : List Tod) (previous : UInt64) (n : Nat)
    (h : Issued previous n) (hrate : RateOk previous n tods) :
    (previous :: timeStamps previous tods).IsChain (· < ·) ↔ ClockStaysAhead previous tods := by
  -- by induction on the calls: the invariant is that a stamp's counter is bounded by the calls
  -- already made in its second
  induction tods generalizing previous n with
  | nil => simp [timeStamps, ClockStaysAhead]
  | cons tod tods ih =>
    obtain ⟨hn, hn'⟩ := hrate.calls
    obtain ⟨hissued, hsecond⟩ := issued_timeStamp h hn _ hn'
    rw [timeStamps, ClockStaysAhead, List.isChain_cons_cons, lt_timeStamp_iff h hn hn',
      ih _ _ hissued (hrate.next hsecond)]

theorem issued_zero : Issued 0 0 := .fine 0 0 rfl (by decide) (Nat.zero_le _)

theorem rateOk_zero {tods : List Tod}
    (hrate : ∀ second, tods.countP (fun tod => tod.second = second) < 2 ^ 28) :
    RateOk 0 0 tods := by
  intro second
  simpa using hrate second

/-- **The issued stamps increase exactly when the clock stays ahead**, for every sequence of
answers of `gettimeofday` with fewer than `2 ^ 28` calls within one second. -/
theorem timeStamps_lt_iff (tods : List Tod)
    (hrate : ∀ second, tods.countP (fun tod => tod.second = second) < 2 ^ 28) :
    (timeStamps 0 tods).Pairwise (· < ·) ↔ ClockStaysAhead 0 tods := by
  have hrate₀ := rateOk_zero hrate
  rw [← List.isChain_iff_pairwise, ← isChain_timeStamps_iff tods 0 0 issued_zero hrate₀]
  cases tods with
  | nil => simp [timeStamps]
  | cons tod tods =>
    -- the first stamp is above the stored zero, whatever the clock says
    have hfirst : 0 < timeStamp 0 tod := by
      obtain ⟨hn, hn'⟩ := hrate₀.calls
      refine (lt_timeStamp_iff issued_zero hn hn').mpr ⟨?_, fun hfull => ?_⟩
      · exact UInt64.zero_le
      · exact absurd hfull.1 (by decide)
    rw [timeStamps, List.isChain_cons_cons]
    exact ⟨fun h => ⟨hfirst, h⟩, fun h => h.2⟩

theorem timeStamps_lt_twoCalls :
    (timeStamps 0 [⟨1, 1⟩, ⟨1, 1⟩]).Pairwise (· < ·) ↔ ClockStaysAhead 0 [⟨1, 1⟩, ⟨1, 1⟩] :=
  timeStamps_lt_iff _ fun _ =>
    List.countP_le_length.trans_lt (by decide)

/-! ### A clock that does not go back -/

/-- The order of times of day. -/
def Tod.le (a b : Tod) : Prop := a.sec < b.sec ∨ a.sec = b.sec ∧ a.usec ≤ b.usec

/-- A full counter is met in the first microsecond of a second only. -/
def GivesUpEarly (previous : UInt64) : List Tod → Prop
  | [] => True
  | tod :: tods => (CounterFull previous tod → tod.microSeconds &&& 0xFFFFFFFF = 0) ∧
      GivesUpEarly (timeStamp previous tod) tods

/-- Inside the 32 bits that a stamp has for the seconds, the clock word follows the clock. -/
theorem Tod.microSeconds_le {a b : Tod} (h : a.le b) (ha : a.usec < 1000000)
    (hb : b.sec < 2 ^ 32 ∧ b.usec < 1000000) : a.microSeconds ≤ b.microSeconds := by
  obtain ⟨hsec, husec⟩ := hb
  have h32 : (32 : UInt64).toNat % 64 = 32 := rfl
  have h12 : (12 : UInt64).toNat % 64 = 12 := rfl
  have hmega : (1000000 : UInt64).toNat = 1000000 := rfl
  have hmax : ((2 : UInt64) ^ 32).toNat = 2 ^ 32 := rfl
  simp only [UInt64.lt_iff_toNat_lt, hmega, hmax] at ha hsec husec
  simp only [le, UInt64.lt_iff_toNat_lt, UInt64.le_iff_toNat_le, ← UInt64.toNat_inj] at h
  simp only [microSeconds, UInt64.le_iff_toNat_le, UInt64.toNat_add, UInt64.toNat_shiftLeft, h32,
    h12, Nat.shiftLeft_eq]
  omega

/-- A stamp keeps of the clock what its mode keeps. -/
theorem and_hi_timeStamp {previous : UInt64} {n : Nat} (h : Issued previous n)
    (hn : n < 2 ^ 28) {tod : Tod} (hn' : callsInSecond previous n tod < 2 ^ 28) :
    (timeStamp previous tod) &&& ~~~ maskLo (timeStamp previous tod &&& 1) =
      tod.microSeconds &&& ~~~ maskLo (timeStamp previous tod &&& 1) := by
  obtain ⟨-, hsecond⟩ := issued_timeStamp h hn _ hn'
  have hdvd := tod.microSeconds_dvd
  have hclock : tod.second = tod.microSeconds.toNat / 2 ^ 32 := rfl
  have hcoarse : ∀ {stamp : UInt64} {s c : Nat}, stamp.toNat / 2 ^ 32 = tod.second →
      stamp.toNat = s * 2 ^ 32 + c * 16 + 1 →
      stamp &&& ~~~ maskLo (stamp &&& 1) = tod.microSeconds &&& ~~~ maskLo (stamp &&& 1) := by
    intro stamp s c hsecond hstamp
    rw [and_one_of_coarse hstamp, maskLo_one, ← UInt64.toNat_inj, toNat_and_notCoarse,
      toNat_and_notCoarse, hsecond, hclock]
  cases h with
  | fine m c hstamp hc hcn =>
    have hnext := timeStamp_fine hstamp hc tod
    have hfine : ∀ {stamp : UInt64} {d : Nat}, d < 256 →
        stamp.toNat = tod.microSeconds.toNat / 2 ^ 12 * 2 ^ 12 + d * 16 →
        stamp &&& ~~~ maskLo (stamp &&& 1) = tod.microSeconds &&& ~~~ maskLo (stamp &&& 1) := by
      intro stamp d hd hstamp
      rw [and_one_of_fine hstamp, maskLo_zero, ← UInt64.toNat_inj, toNat_and_notFine,
        toNat_and_notFine, hstamp, fine_div hd]
    split_ifs at hnext with hm hfull
    · exact hcoarse hsecond (s := tod.second) (c := 256) (by omega)
    · exact hfine (d := c + 1) (by omega) (hm ▸ hnext)
    · exact hfine (d := 0) (by decide) (hnext.trans (hdvd.symm.trans (Nat.add_zero _).symm))
  | coarse s c hstamp hcn =>
    have hnext := timeStamp_coarse hstamp (by omega) tod (by grind [callsInSecond])
    split_ifs at hnext with hs
    · exact hcoarse hsecond (s := s) (c := c + 1) hnext
    · exact hcoarse hsecond (s := tod.second) (c := 0) (by omega)

theorem and_hi_mono {a b : UInt64} (h : a ≤ b) (stamp : UInt64) :
    a &&& ~~~ maskLo (stamp &&& 1) ≤ b &&& ~~~ maskLo (stamp &&& 1) := by
  rw [UInt64.le_iff_toNat_le] at h
  rcases Nat.mod_two_eq_zero_or_one stamp.toNat with hmod | hmod
  · rw [(UInt64.toNat_inj.mp ((toNat_and_one stamp).trans hmod) : stamp &&& 1 = 0), maskLo_zero,
      UInt64.le_iff_toNat_le, toNat_and_notFine, toNat_and_notFine]
    exact Nat.mul_le_mul_right _ (Nat.div_le_div_right h)
  · rw [(UInt64.toNat_inj.mp ((toNat_and_one stamp).trans hmod) : stamp &&& 1 = 1), maskLo_one,
      UInt64.le_iff_toNat_le, toNat_and_notCoarse, toNat_and_notCoarse]
    exact Nat.mul_le_mul_right _ (Nat.div_le_div_right h)

/-- Once a stamp is issued, a clock word that does not go back leaves only the switch. -/
theorem clockStaysAhead_iff_of_le (tods : List Tod) (tod : Tod) (previous : UInt64) (n : Nat)
    (h : Issued previous n) (hrate : RateOk previous n (tod :: tods))
    (hclock : (tod :: tods).IsChain (fun a b => a.microSeconds ≤ b.microSeconds)) :
    ClockStaysAhead (timeStamp previous tod) tods ↔
      GivesUpEarly (timeStamp previous tod) tods := by
  -- by induction on the calls: the stamp holds the kept part of the last clock word
  induction tods generalizing previous n tod with
  | nil => exact Iff.rfl
  | cons next tods ih =>
    obtain ⟨hn, hn'⟩ := hrate.calls
    obtain ⟨hissued, hsecond⟩ := issued_timeStamp h hn _ hn'
    obtain ⟨hle, hclock⟩ := List.isChain_cons_cons.mp hclock
    have hkept : timeStamp previous tod &&& ~~~ maskLo (timeStamp previous tod &&& 1) ≤
        next.microSeconds &&& ~~~ maskLo (timeStamp previous tod &&& 1) := by
      rw [and_hi_timeStamp h hn hn']
      exact and_hi_mono hle _
    rw [ClockStaysAhead, GivesUpEarly, ClockAhead, and_iff_right hkept,
      ih _ _ _ hissued (hrate.next hsecond) hclock]

/-- **For a clock that does not go back, the switch is all that counts**, as long as its seconds
have 32 bits. -/
theorem clockStaysAhead_zero_iff (tods : List Tod)
    (hvalid : ∀ tod ∈ tods, tod.sec < 2 ^ 32 ∧ tod.usec < 1000000) (hle : tods.Pairwise Tod.le)
    (hrate : ∀ second, tods.countP (fun tod => tod.second = second) < 2 ^ 28) :
    ClockStaysAhead 0 tods ↔ GivesUpEarly 0 tods := by
  have hclock : tods.IsChain (fun a b => a.microSeconds ≤ b.microSeconds) :=
    List.isChain_iff_pairwise.mpr (hle.imp_of_mem fun ha hb h =>
      Tod.microSeconds_le h (hvalid _ ha).2 (hvalid _ hb))
  cases tods with
  | nil => exact Iff.rfl
  | cons tod tods =>
    have hfirst : 0 &&& ~~~ maskLo (0 &&& 1) ≤ tod.microSeconds &&& ~~~ maskLo (0 &&& 1) :=
      UInt64.zero_le
    rw [ClockStaysAhead, GivesUpEarly, ClockAhead, and_iff_right hfirst,
      clockStaysAhead_iff_of_le tods tod 0 0 issued_zero (rateOk_zero hrate) hclock]

/-- Calls in one microsecond, other than the first of its second, until the counter is full. -/
theorem not_clockStaysAhead_replicate (tod : Tod) (hlate : tod.microSeconds.toNat % 2 ^ 32 ≠ 0)
    (k c : Nat) (hk : c + k = 255) (previous : UInt64)
    (hprevious : previous.toNat = tod.microSeconds.toNat + c * 16) :
    ¬ ClockStaysAhead previous (List.replicate (k + 1) tod) := by
  have hdvd := tod.microSeconds_dvd
  have hstamp : previous.toNat = tod.microSeconds.toNat / 2 ^ 12 * 2 ^ 12 + c * 16 := by omega
  -- by induction on the calls that are left until the counter is full
  induction k generalizing c previous with
  | zero =>
    rintro ⟨⟨-, hfull⟩, -⟩
    have h := hfull ⟨UInt64.toNat_inj.mp ?_, UInt64.toNat_inj.mp ?_⟩
    · rw [← UInt64.toNat_inj, toNat_and_coarse] at h
      exact hlate h
    · obtain rfl : c = 255 := hk
      rw [toNat_and_fine, hstamp, fine_mod (by decide)]
      rfl
    · rw [toNat_and_notFine, toNat_and_notFine, hstamp, fine_div (by omega)]
  | succ k ih =>
    rintro ⟨-, hrest⟩
    have hnext := timeStamp_fine hstamp (by omega) tod
    rw [if_pos rfl, if_neg (by omega)] at hnext
    exact ih (c + 1) (by omega) _ (by omega) (by omega) hrest

/-- **The stamps go back when the microseconds are given up.** In microsecond 1 of second 1 the
257th call finds a full counter, and its stamp is below those of all the others. -/
theorem not_timeStamps_lt : ¬ ∀ tods : List Tod,
    (∀ tod ∈ tods, tod.sec < 2 ^ 32 ∧ tod.usec < 1000000) → tods.Pairwise Tod.le →
    (∀ second, tods.countP (fun tod => tod.second = second) < 2 ^ 28) →
    (timeStamps 0 tods).Pairwise (· < ·) := by
  intro h
  have hword : (Tod.microSeconds ⟨1, 1⟩).toNat = 2 ^ 32 + 2 ^ 12 := by decide
  have hrate : ∀ second,
      (List.replicate 257 (Tod.mk 1 1)).countP (fun tod => tod.second = second) < 2 ^ 28 :=
    fun _ => List.countP_le_length.trans_lt (by rw [List.length_replicate]; decide)
  have hlt := h (List.replicate 257 ⟨1, 1⟩)
    (fun tod htod => by rw [List.eq_of_mem_replicate htod]; decide)
    (List.pairwise_replicate.mpr (.inr (.inr ⟨rfl, UInt64.le_refl _⟩))) hrate
  have hissued := issued_timeStamp issued_zero (by decide) ⟨1, 1⟩ (by decide)
  have hfirst : (timeStamp 0 ⟨1, 1⟩).toNat = 2 ^ 32 + 2 ^ 12 := by decide
  have hchain := List.isChain_iff_pairwise.mpr hlt
  rw [List.replicate_succ, timeStamps, isChain_timeStamps_iff _ _ _ hissued.1
    ((rateOk_zero hrate).next hissued.2)] at hchain
  exact not_clockStaysAhead_replicate ⟨1, 1⟩ (by rw [hword]; decide) 255 0 rfl _
    (by rw [hfirst, hword, Nat.zero_mul, Nat.add_zero]) hchain

end N2n
