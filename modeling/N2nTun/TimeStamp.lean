import Mathlib.Tactic

/-!
# Time stamps

The replay protection of `n2n.c`: stamps made from the time of day and a counter, and
their verification against the current time and the last valid stamp of a peer.

## Main definitions

* `timeStamp`, `initialTimeStamp` — the stamp that is issued next.
* `timeStampVerifyAndUpdate` — the check of a received stamp.

## Main results

* `lt_of_timeStampVerify` — a stamp that passes without jitter is above the previous
  one, as long as no difference wraps.
-/

namespace N2n

/-- `TIME_STAMP_FRAME`. -/
def timeStampFrame : UInt64 := 0x0000001000000000

/-- `TIME_STAMP_JITTER`. -/
def timeStampJitter : UInt64 := 0x0000000027100000

/-- An answer of `gettimeofday`. -/
structure Tod where
  sec : UInt64
  usec : UInt64
  deriving DecidableEq

/-- The mask of the low bits for a "counter only" flag of 0 or 1. -/
def maskLo (co : UInt64) : UInt64 :=
  let lo := (0 - co) >>> 32
  lo ||| ((~~~ lo) >>> 52)

/-- `time_stamp`, given the previously issued stamp. -/
def timeStamp (previous : UInt64) (tod : Tod) : UInt64 :=
  let microSeconds := (tod.sec <<< 32) + (tod.usec <<< 12)
  let co := (previous <<< 63) >>> 63
  let hi := ~~~ maskLo co
  let hiUnchanged : UInt64 := if previous &&& hi = microSeconds &&& hi then 1 else 0
  let counter := (((previous &&& maskLo co) >>> 4) + hiUnchanged) &&& (0 - hiUnchanged)
  let counter := counter <<< 4
  let overflow : UInt64 := if counter &&& maskLo co = 0 then 1 else 0
  let newCo := (overflow &&& hiUnchanged) ||| co
  (microSeconds &&& ~~~ maskLo newCo) ||| counter ||| newCo

/-- `initial_time_stamp`, given the stamp that `time_stamp` returns. -/
def initialTimeStamp (now : UInt64) : UInt64 := now - timeStampFrame

/-- `time_stamp_verify_and_update`, given the stamp `now` that `time_stamp` returns: its
result, and `*previous_stamp` afterwards. -/
def timeStampVerifyAndUpdate (stamp now : UInt64) (previous : Option UInt64)
    (allowJitter : Bool) : Bool × Option UInt64 :=
  let co := (stamp <<< 63) >>> 63
  let diff := (stamp - now).toInt64
  let diff := if diff < 0 then -diff else diff
  if timeStampFrame.toInt64 ≤ diff then (false, previous)
  else
    match previous with
    | none => (true, none)
    | some previous =>
      let diff := (stamp - previous).toInt64
      let diff := if allowJitter then diff + (timeStampJitter <<< (co <<< 3)).toInt64 else diff
      if diff ≤ 0 then (false, some previous)
      else (true, some (if previous < stamp then stamp else previous))

/-- A difference that is positive as a signed number. -/
theorem lt_of_toInt64_sub_pos {a b : UInt64} (h : ¬ (a - b).toInt64 ≤ 0)
    (hwrap : b.toNat < a.toNat + 2 ^ 63) : b < a := by
  rw [Int64.le_iff_toInt_le] at h
  have htoInt : (a - b).toInt64.toInt = (a - b).toBitVec.toInt := rfl
  rw [htoInt, BitVec.toInt_eq_toNat_cond] at h
  rw [UInt64.lt_iff_toNat_lt]
  have hsub : (a - b).toBitVec.toNat = (2 ^ 64 - b.toNat + a.toNat) % 2 ^ 64 := by
    rw [UInt64.toNat_toBitVec, UInt64.toNat_sub]
  rw [hsub] at h
  have ha := a.toNat_lt
  have hb := b.toNat_lt
  have hzero : (0 : Int64).toInt = 0 := rfl
  rw [hzero] at h
  split_ifs at h with hsmall <;> omega

/-- **A stamp that passes without jitter is above the previous one**, unless that is more than
half of the range of stamps ahead. -/
theorem lt_of_timeStampVerify {stamp now previous : UInt64}
    (h : (timeStampVerifyAndUpdate stamp now (some previous) false).1 = true)
    (hwrap : previous.toNat < stamp.toNat + 2 ^ 63) :
    previous < stamp ∧
      (timeStampVerifyAndUpdate stamp now (some previous) false).2 = some stamp := by
  unfold timeStampVerifyAndUpdate at h ⊢
  dsimp only at h ⊢
  generalize (if (stamp - now).toInt64 < 0 then -(stamp - now).toInt64
    else (stamp - now).toInt64) = diff at h ⊢
  by_cases hframe : timeStampFrame.toInt64 ≤ diff
  · rw [if_pos hframe] at h
    cases h
  · rw [if_neg hframe] at h ⊢
    rw [if_neg Bool.false_ne_true] at h ⊢
    by_cases hdiff : (stamp - previous).toInt64 ≤ 0
    · rw [if_pos hdiff] at h
      cases h
    · have hlt := lt_of_toInt64_sub_pos hdiff hwrap
      rw [if_neg hdiff, if_pos hlt]
      exact ⟨hlt, rfl⟩

/-- The last valid stamp stays if the new one is rejected or is not later. -/
theorem getD_timeStampVerify {stamp now previous : UInt64} {jitter : Bool}
    (h : (timeStampVerifyAndUpdate stamp now (some previous) jitter).1 = true →
      ¬ previous < stamp) :
    (timeStampVerifyAndUpdate stamp now (some previous) jitter).2.getD previous = previous := by
  unfold timeStampVerifyAndUpdate at h ⊢
  dsimp only at h ⊢
  split_ifs at h ⊢ <;> simp_all

/-- A stamp that is accepted and later becomes the last valid one. -/
theorem timeStampVerify_of_lt {stamp now previous : UInt64} {jitter : Bool}
    (h : (timeStampVerifyAndUpdate stamp now (some previous) jitter).1 = true)
    (hlt : previous < stamp) :
    (timeStampVerifyAndUpdate stamp now (some previous) jitter).2 = some stamp := by
  unfold timeStampVerifyAndUpdate at h ⊢
  dsimp only at h ⊢
  split_ifs at h ⊢ <;> simp_all

/-- The last valid stamp never goes back. -/
theorem le_of_timeStampVerify (stamp now previous : UInt64) (jitter : Bool) :
    previous ≤ (timeStampVerifyAndUpdate stamp now (some previous) jitter).2.getD previous := by
  unfold timeStampVerifyAndUpdate
  dsimp only
  split_ifs <;> simp_all [UInt64.le_of_lt]

end N2n
