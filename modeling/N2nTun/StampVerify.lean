import N2nTun.StampOrder

/-!
# When a time stamp is verified

`time_stamp_verify_and_update` compares unsigned stamps by the sign of their difference. The
differences wrap, the absolute value has no positive counterpart at one point, and the jitter of
a counter-only stamp is shifted by eight places where eight times the jitter is meant. This
module reads the comparisons as statements about integers and settles for which stamps the
verdict is the one that the comments describe.

## Main definitions

* `allowance` — the allowed deviation of the comments, and `codedAllowance` that of the code.
* `Timely` — the stamp is around the current time and not too old.
* `VerifyLaw` — the verdict and the stored stamp as they are meant.
* `VerifyExact` — where the wrapped differences give the same verdict.

## Main results

* `timeStampVerify_iff` — the verdict of the code, on integers.
* `verifyLaw_iff` — **the law holds exactly there.**
-/

namespace N2n

/-! ### Signed differences -/

/-- A difference of stamps, read as a signed number. -/
theorem toInt_toInt64_sub (a b : UInt64) :
    (a - b).toInt64.toInt = ((a.toNat : ℤ) - b.toNat).bmod (2 ^ 64) := by
  have hsub : (a - b).toInt64.toInt = (a.toBitVec - b.toBitVec).toInt := rfl
  rw [hsub, BitVec.toInt_sub, BitVec.toInt_eq_toNat_bmod, BitVec.toInt_eq_toNat_bmod,
    Int.sub_bmod_bmod, Int.bmod_sub_bmod]
  rfl

/-- The magnitude that the conditional negation leaves: the most negative number stays. -/
def wrappedAbs (d : Int64) : Int64 := if d < 0 then -d else d

theorem lt_wrappedAbs_iff {d f : Int64} (hf : 0 < f.toInt) :
    wrappedAbs d < f ↔ |d.toInt| < f.toInt ∨ d.toInt = -2 ^ 63 := by
  have hlow := d.le_toInt
  have hhigh := d.toInt_lt
  have hzero : (0 : Int64).toInt = 0 := rfl
  have hneg : (-d).toInt = (-d.toInt).bmod (2 ^ 64) := Int64.toInt_neg d
  rw [wrappedAbs, Int64.lt_iff_toInt_lt, apply_ite Int64.toInt, hneg, Int.bmod_def]
  simp only [Int64.lt_iff_toInt_lt, hzero]
  rcases lt_or_ge d.toInt 0 with h | h
  · rw [if_pos h, abs_of_neg h]
    split_ifs <;> omega
  · rw [if_neg (not_lt.mpr h), abs_of_nonneg h]
    omega

/-! ### What is meant -/

/-- The allowed deviation from the previous stamp: none, `TIME_STAMP_JITTER`, or eight times
that for a counter-only stamp. -/
def allowance (stamp : UInt64) (allowJitter : Bool) : ℤ :=
  if allowJitter then (if stamp.toNat % 2 = 1 then 8 else 1) * timeStampJitter.toNat else 0

/-- The deviation that the code adds: the jitter shifted by `co << 3` places. -/
def codedAllowance (stamp : UInt64) (allowJitter : Bool) : ℤ :=
  if allowJitter then (if stamp.toNat % 2 = 1 then 256 else 1) * timeStampJitter.toNat else 0

/-- The distance of two stamps as numbers. -/
def stampDistance (stamp now : UInt64) : ℤ := |(stamp.toNat : ℤ) - now.toNat|

/-- How far a stamp, with the deviation that the code adds, is above the previous one. -/
def codedLead (stamp previous : UInt64) (allowJitter : Bool) : ℤ :=
  stamp.toNat + codedAllowance stamp allowJitter - previous.toNat

/-- The stamp is around the current time and, where a previous stamp is given, above that
minus the allowed deviation. -/
def Timely (stamp now : UInt64) (previous : Option UInt64) (allowJitter : Bool) : Prop :=
  stampDistance stamp now < timeStampFrame.toNat ∧
    ∀ p ∈ previous, (p.toNat : ℤ) - allowance stamp allowJitter < stamp.toNat

/-- **The verdict and the stored stamp as they are meant.** -/
structure VerifyLaw (stamp now : UInt64) (previous : Option UInt64) (allowJitter : Bool) :
    Prop where
  verdict : (timeStampVerifyAndUpdate stamp now previous allowJitter).1 = true ↔
    Timely stamp now previous allowJitter
  accepted : (timeStampVerifyAndUpdate stamp now previous allowJitter).1 = true →
    (timeStampVerifyAndUpdate stamp now previous allowJitter).2 = previous.map (max stamp)
  rejected : (timeStampVerifyAndUpdate stamp now previous allowJitter).1 = false →
    (timeStampVerifyAndUpdate stamp now previous allowJitter).2 = previous
  never_back : ∀ p ∈ previous,
    ∀ q ∈ (timeStampVerifyAndUpdate stamp now previous allowJitter).2, p ≤ q

/-- The signed 64-bit number that a lead wraps to is positive. -/
def TakenAsLater (lead : ℤ) : Prop := 0 < lead ∧ lead < 2 ^ 63 ∨ lead < -2 ^ 63 ∨ 2 ^ 64 < lead

/-- **Where the wrapped differences do no harm.** Around the current time the lead over the
previous stamp keeps its sign, and a counter-only stamp is not between 8 and 256 jitters behind;
a stamp at the far end, whose distance from the current time wraps, is too old anyway. -/
structure VerifyExact (stamp now : UInt64) (previous : Option UInt64) (allowJitter : Bool) :
    Prop where
  near : stampDistance stamp now < timeStampFrame.toNat → ∀ p ∈ previous,
    if (p.toNat : ℤ) - allowance stamp allowJitter < stamp.toNat then
      codedLead stamp p allowJitter < 2 ^ 63 ∨ 2 ^ 64 < codedLead stamp p allowJitter
    else -2 ^ 63 ≤ codedLead stamp p allowJitter ∧ codedLead stamp p allowJitter ≤ 0
  far : stampDistance stamp now = 2 ^ 63 ∨ 2 ^ 64 - timeStampFrame.toNat < stampDistance stamp now →
    ∃ p ∈ previous, (-2 ^ 63 ≤ codedLead stamp p allowJitter ∧ codedLead stamp p allowJitter ≤ 0) ∨
      (2 ^ 63 ≤ codedLead stamp p allowJitter ∧ codedLead stamp p allowJitter ≤ 2 ^ 64)

/-! ### The comparisons of the code -/

/-- The magnitude of the wrapped distance is small around the current time, at the point without
a positive counterpart, and at the far end. -/
theorem wrappedAbs_sub_lt_iff (stamp now : UInt64) :
    wrappedAbs (stamp - now).toInt64 < timeStampFrame.toInt64 ↔
      stampDistance stamp now < timeStampFrame.toNat ∨ stampDistance stamp now = 2 ^ 63 ∨
        2 ^ 64 - timeStampFrame.toNat < stampDistance stamp now := by
  have hs := stamp.toNat_lt
  have hn := now.toNat_lt
  have hframe : timeStampFrame.toInt64.toInt = 0x1000000000 := by decide
  have hframe' : (timeStampFrame.toNat : ℤ) = 0x1000000000 := by decide
  rw [lt_wrappedAbs_iff (by rw [hframe]; decide), toInt_toInt64_sub, hframe, hframe',
    stampDistance, Int.bmod_def]
  simp only [abs_lt, lt_abs, abs_eq (show (0 : ℤ) ≤ 2 ^ 63 by decide)]
  split_ifs <;> omega

/-- The shifted jitter as it is added. -/
theorem toInt_shiftedJitter (stamp : UInt64) :
    (timeStampJitter <<< (((stamp <<< 63) >>> 63) <<< 3)).toInt64.toInt =
      codedAllowance stamp true := by
  have hflag := toNat_flag stamp
  rw [codedAllowance, if_pos rfl]
  rcases Nat.mod_two_eq_zero_or_one stamp.toNat with h | h
  · -- the flag is clear
    have hco : (stamp <<< 63) >>> 63 = 0 := UInt64.toNat_inj.mp (by rw [hflag, h]; rfl)
    rw [hco, if_neg (by omega)]
    decide
  · have hco : (stamp <<< 63) >>> 63 = 1 := UInt64.toNat_inj.mp (by rw [hflag, h]; rfl)
    rw [hco, if_pos h]
    decide

theorem codedAllowance_range (stamp : UInt64) (allowJitter : Bool) :
    0 ≤ codedAllowance stamp allowJitter ∧ codedAllowance stamp allowJitter < 2 ^ 62 := by
  have hjitter : (timeStampJitter.toNat : ℤ) = 0x27100000 := by decide
  rw [codedAllowance, hjitter]
  split_ifs <;> omega

/-- A stamp passes the second test exactly when its wrapped lead is positive. -/
theorem wrappedLead_pos_iff (stamp previous : UInt64) (allowJitter : Bool) :
    let diff := (stamp - previous).toInt64
    let diff := if allowJitter then
      diff + (timeStampJitter <<< (((stamp <<< 63) >>> 63) <<< 3)).toInt64 else diff
    diff ≤ 0 ↔ ¬ TakenAsLater (codedLead stamp previous allowJitter) := by
  intro diff diff'
  have hs := stamp.toNat_lt
  have hp := previous.toNat_lt
  have hrange := codedAllowance_range stamp allowJitter
  have hdiff : diff'.toInt =
      (stamp.toNat + codedAllowance stamp allowJitter - previous.toNat : ℤ).bmod (2 ^ 64) := by
    cases allowJitter with
    | false =>
      have hzero : codedAllowance stamp false = 0 := rfl
      rw [hzero, add_zero]
      exact toInt_toInt64_sub stamp previous
    | true =>
      have hadd : diff'.toInt = (diff.toInt + codedAllowance stamp true).bmod (2 ^ 64) := by
        rw [← toInt_shiftedJitter]
        exact Int64.toInt_add _ _
      rw [hadd, toInt_toInt64_sub, Int.bmod_add_bmod]
      congr 1
      ring
  rw [Int64.le_iff_toInt_le, hdiff, show (0 : Int64).toInt = 0 from rfl, TakenAsLater, codedLead,
    Int.bmod_def]
  split_ifs <;> omega

/-- **The verdict of the code, on integers.** -/
theorem timeStampVerify_iff (stamp now : UInt64) (previous : Option UInt64) (allowJitter : Bool) :
    (timeStampVerifyAndUpdate stamp now previous allowJitter).1 = true ↔
      (stampDistance stamp now < timeStampFrame.toNat ∨ stampDistance stamp now = 2 ^ 63 ∨
        2 ^ 64 - timeStampFrame.toNat < stampDistance stamp now) ∧
      ∀ p ∈ previous, TakenAsLater (codedLead stamp p allowJitter) := by
  rw [← wrappedAbs_sub_lt_iff]
  unfold timeStampVerifyAndUpdate wrappedAbs
  dsimp only
  generalize (if (stamp - now).toInt64 < 0 then -(stamp - now).toInt64
    else (stamp - now).toInt64) = diff
  rw [← Int64.not_le]
  by_cases hframe : timeStampFrame.toInt64 ≤ diff
  · simp [hframe]
  · rw [if_neg hframe]
    cases previous with
    | none => simp [hframe]
    | some previous =>
      have hlead := wrappedLead_pos_iff stamp previous allowJitter
      dsimp only at hlead ⊢
      generalize (if allowJitter = true then _ else _ : Int64) = diff' at hlead ⊢
      by_cases hold : diff' ≤ 0
      · have hlate := hlead.mp hold
        simp [hold, hlate]
      · have hlate := not_not.mp (mt hlead.mpr hold)
        simp [hold, hlate, hframe]

/-- The conditional of the code is the maximum. -/
theorem max_stamp (stamp previous : UInt64) :
    max stamp previous = if previous < stamp then stamp else previous := by
  have hdef : max stamp previous = if stamp ≤ previous then previous else stamp := rfl
  rw [hdef]
  by_cases hle : stamp ≤ previous
  · rw [if_pos hle, if_neg (UInt64.not_lt.mpr hle)]
  · rw [if_neg hle, if_pos (UInt64.not_le.mp hle)]

/-- The later stamp is stored on success. -/
theorem timeStampVerify_accepted {stamp now : UInt64} {previous : Option UInt64}
    {allowJitter : Bool} (h : (timeStampVerifyAndUpdate stamp now previous allowJitter).1 = true) :
    (timeStampVerifyAndUpdate stamp now previous allowJitter).2 = previous.map (max stamp) := by
  cases previous with
  | none =>
    unfold timeStampVerifyAndUpdate
    dsimp only
    split_ifs <;> rfl
  | some previous =>
    rw [Option.map_some, max_stamp]
    split_ifs with hlt
    · exact timeStampVerify_of_lt h hlt
    · -- the previous stamp stays
      unfold timeStampVerifyAndUpdate
      dsimp only
      split_ifs <;> rfl

/-- Nothing is stored on failure. -/
theorem timeStampVerify_rejected {stamp now : UInt64} {previous : Option UInt64}
    {allowJitter : Bool} (h : (timeStampVerifyAndUpdate stamp now previous allowJitter).1 = false) :
    (timeStampVerifyAndUpdate stamp now previous allowJitter).2 = previous := by
  unfold timeStampVerifyAndUpdate at h ⊢
  dsimp only at h ⊢
  generalize (if (stamp - now).toInt64 < 0 then -(stamp - now).toInt64
    else (stamp - now).toInt64) = diff at h ⊢
  by_cases hframe : timeStampFrame.toInt64 ≤ diff
  · rw [if_pos hframe]
  · rw [if_neg hframe] at h ⊢
    cases previous with
    | none => rfl
    | some previous =>
      dsimp only at h ⊢
      generalize (if allowJitter = true then _ else _ : Int64) = diff' at h ⊢
      by_cases hold : diff' ≤ 0
      · rw [if_pos hold]
      · rw [if_neg hold] at h
        cases h

theorem allowance_le_coded (stamp : UInt64) (allowJitter : Bool) :
    allowance stamp allowJitter ≤ codedAllowance stamp allowJitter := by
  rw [allowance, codedAllowance]
  split_ifs <;> omega

theorem allowance_nonneg (stamp : UInt64) (allowJitter : Bool) :
    0 ≤ allowance stamp allowJitter := by
  rw [allowance]
  split_ifs <;> omega

/-- The stored stamp is the intended one, whatever the verdict. -/
theorem VerifyLaw.of_verdict {stamp now : UInt64} {previous : Option UInt64} {allowJitter : Bool}
    (h : (timeStampVerifyAndUpdate stamp now previous allowJitter).1 = true ↔
      Timely stamp now previous allowJitter) : VerifyLaw stamp now previous allowJitter where
  verdict := h
  accepted := timeStampVerify_accepted
  rejected := timeStampVerify_rejected
  never_back := by
    intro p hp q hq
    obtain rfl := Option.mem_def.mp hp
    have hback := le_of_timeStampVerify stamp now p allowJitter
    rwa [Option.mem_def.mp hq] at hback

/-- **The verdict is the intended one exactly where no wrapped difference and no shifted jitter
changes it.** -/
theorem verifyLaw_iff (stamp now : UInt64) (previous : Option UInt64) (allowJitter : Bool) :
    VerifyLaw stamp now previous allowJitter ↔ VerifyExact stamp now previous allowJitter := by
  have hframe : (timeStampFrame.toNat : ℤ) = 0x1000000000 := by decide
  have hs := stamp.toNat_lt
  have hle := allowance_le_coded stamp allowJitter
  have hpos := allowance_nonneg stamp allowJitter
  have hrange := codedAllowance_range stamp allowJitter
  have hlaw : VerifyLaw stamp now previous allowJitter ↔
      ((timeStampVerifyAndUpdate stamp now previous allowJitter).1 = true ↔
        Timely stamp now previous allowJitter) := ⟨VerifyLaw.verdict, VerifyLaw.of_verdict⟩
  rw [hlaw, timeStampVerify_iff, Timely]
  have hnear : ∀ p : UInt64, (TakenAsLater (codedLead stamp p allowJitter) ↔
      (p.toNat : ℤ) - allowance stamp allowJitter < stamp.toNat) ↔
      if (p.toNat : ℤ) - allowance stamp allowJitter < stamp.toNat then
        codedLead stamp p allowJitter < 2 ^ 63 ∨ 2 ^ 64 < codedLead stamp p allowJitter
      else -2 ^ 63 ≤ codedLead stamp p allowJitter ∧ codedLead stamp p allowJitter ≤ 0 := by
    intro p
    have hp := p.toNat_lt
    rw [TakenAsLater, codedLead]
    split_ifs <;> omega
  have hfar : ∀ p : UInt64, ¬ TakenAsLater (codedLead stamp p allowJitter) ↔
      (-2 ^ 63 ≤ codedLead stamp p allowJitter ∧ codedLead stamp p allowJitter ≤ 0) ∨
      (2 ^ 63 ≤ codedLead stamp p allowJitter ∧ codedLead stamp p allowJitter ≤ 2 ^ 64) := by
    intro p
    rw [TakenAsLater]
    omega
  constructor
  · intro h
    refine ⟨fun hclose p hp => (hnear p).mp ?_, fun hwrap => ?_⟩
    · -- around the current time both verdicts are decided by the previous stamp
      obtain rfl := Option.mem_def.mp hp
      simpa [hclose] using h
    · have hnot : ¬ stampDistance stamp now < timeStampFrame.toNat := by omega
      by_contra hnone
      push Not at hnone
      refine hnot (h.mp ⟨.inr hwrap, fun p hp => ?_⟩).1
      have hp' := (hfar p).not.mpr (by have := hnone p hp; omega)
      exact not_not.mp hp'
  · rintro ⟨hexact, hwrapped⟩
    constructor
    · rintro ⟨hclose | hwrap, hlater⟩
      · exact ⟨hclose, fun p hp => ((hnear p).mpr (hexact hclose p hp)).mp (hlater p hp)⟩
      · obtain ⟨p, hp, hlead⟩ := hwrapped hwrap
        exact absurd (hlater p hp) ((hfar p).mpr hlead)
    · rintro ⟨hclose, hlater⟩
      exact ⟨.inl hclose, fun p hp => ((hnear p).mpr (hexact hclose p hp)).mpr (hlater p hp)⟩

/-- A counter-only stamp that is a hundred jitters (16 seconds) behind the previous one is
accepted, where eight are allowed. -/
theorem not_verifyLaw_counterOnly :
    ¬ VerifyLaw 0x6400000001 0x6400000000 (some (0x6400000001 + 100 * timeStampJitter)) true := by
  intro h
  have hlate := h.verdict.mp (by decide)
  exact absurd (hlate.2 _ rfl) (by decide)

end N2n
