import N2nTun.EdgeRegister
import N2nTun.SquareRoot

/-!
# PINGs to the supernodes

With a null MAC, `send_query_peer` sends a PING to some of the supernodes: to those at the top of
the list, and after a random number of others to some of the rest.  The random number comes from
`n2n_rand_sqr`, which takes a square in 32 bits and a root of what may be negative then.

## Main definitions

* `pingLoop` — the loop over the list, with its three counters.
* `skippedSns`, `pingTargets` — the random number, and the supernodes that get a PING.
* `PingsEnough` — as many supernodes as there are to be, those at the top among them.
* `SkipDrawn` — `n2n_rand_sqr` returns.

## Main results

* `pingLoop_eq` — what the loop takes from the list.
* `pinged_pingTargets` — the edge sends to these supernodes.
* `pingsEnough_iff` — **there are enough PINGs exactly if `n2n_rand_sqr` returns.**
* `skipDrawn_of_length` — which it does unless the list is very long.
-/

namespace N2n

variable {α : Type*}

/-! ### The loop -/

/-- The loop of `send_query_peer` over the supernodes, with the counters `n_o_top_sn`,
`n_o_skip_sn` and `n_o_rest_sn`: the supernodes that a PING is sent to. -/
def pingLoop : List α → ℕ → ℕ → ℕ → List α
  | [], _, _, _ => []
  | peer :: peers, top, skip, rest =>
    if top ≠ 0 then peer :: pingLoop peers (top - 1) skip rest
    else if skip ≠ 0 then pingLoop peers top (skip - 1) rest
    else if rest ≠ 0 then peer :: pingLoop peers top skip (rest - 1)
    else []

/-- `n_o_skip_sn`, for so many supernodes; `none` if `n2n_rand_sqr` does not return. -/
def skippedSns (count : ℕ) (pings : UInt8) (rand : UInt64) : Option ℕ :=
  let skip := (UInt32.ofNat count - pings.toUInt32).toInt32
  if skip < 0 then some 0 else (nRandSqr skip.toUInt32 rand).map (·.toNat)

/-- The supernodes that get a PING. -/
def pingTargets (peers : List α) (pings : UInt8) (rand : UInt64) : Option (List α) :=
  (skippedSns peers.length pings rand).map fun skip =>
    pingLoop peers (pings.toNat >>> 1) skip ((pings.toNat + 1) >>> 1)

/-- What the PINGs are to be: as many as are configured, or as there are supernodes; none twice;
and the top of the list among them. -/
def PingsEnough (peers : List α) (pings : UInt8) (rand : UInt64) : Prop :=
  ∃ sent, pingTargets peers pings rand = some sent ∧
    sent.length = min pings.toNat peers.length ∧ sent.Sublist peers ∧
    peers.take (pings.toNat / 2) <+: sent

/-- `n2n_rand_sqr` is not called, or it returns: the square is not zero in 32 bits, and the number
below it is not negative as an `int`. -/
def SkipDrawn (count : ℕ) (pings : UInt8) (rand : UInt64) : Prop :=
  let excess := UInt32.ofNat count - pings.toUInt32
  let rawMax := (excess + 2) * (excess + 2)
  2 ^ 31 ≤ excess.toNat ∨ rawMax ≠ 0 ∧ (rand % rawMax.toUInt64).toUInt32.toNat < 2 ^ 31

instance (count : ℕ) (pings : UInt8) (rand : UInt64) : Decidable (SkipDrawn count pings rand) :=
  inferInstanceAs (Decidable (_ ∨ _))

/-- **What the loop takes**: the top, and the first of those behind the ones that are skipped. -/
theorem pingLoop_eq (peers : List α) (top skip rest : ℕ) :
    pingLoop peers top skip rest =
      peers.take top ++ ((peers.drop top).drop skip).take rest := by
  induction peers generalizing top skip rest with
  | nil => simp [pingLoop]
  | cons peer peers ih =>
    rw [pingLoop]
    cases top with
    | succ top => simp [ih]
    | zero =>
      cases skip with
      | succ skip => simp [ih]
      | zero =>
        cases rest with
        | succ rest => simp [ih]
        | zero => simp

/-- Nothing is taken twice. -/
theorem pingLoop_sublist (peers : List α) (top skip rest : ℕ) :
    (pingLoop peers top skip rest).Sublist peers := by
  rw [pingLoop_eq]
  conv_rhs => rw [← List.take_append_drop top peers]
  refine List.Sublist.append (.refl _) ?_
  exact (List.take_sublist _ _).trans (List.drop_sublist _ _)

theorem length_pingLoop {peers : List α} {top skip rest : ℕ}
    (h : skip = 0 ∨ top + skip + rest ≤ peers.length) :
    (pingLoop peers top skip rest).length = min (top + rest) peers.length := by
  rw [pingLoop_eq, List.length_append, List.length_take, List.length_take, List.length_drop,
    List.length_drop]
  omega

/-! ### The random number -/

theorem toInt32_neg_iff (x : UInt32) : x.toInt32 < 0 ↔ 2 ^ 31 ≤ x.toNat := by
  constructor
  · intro hneg
    by_contra hsmall
    exact toInt32_nonneg (not_le.mp hsmall) hneg
  · intro hlarge
    rw [Int32.lt_iff_toInt_lt]
    exact toInt_toInt32_neg hlarge

/-- `n2n_rand_sqr` returns unless it divides by zero or takes the root of a negative number. -/
theorem nRandSqr_isSome_iff (maxN : UInt32) (rand : UInt64) :
    (nRandSqr maxN rand).isSome ↔
      (maxN + 2) * (maxN + 2) ≠ 0 ∧
        (rand % ((maxN + 2) * (maxN + 2)).toUInt64).toUInt32.toNat < 2 ^ 31 := by
  unfold nRandSqr
  dsimp only
  by_cases hzero : (maxN + 2) * (maxN + 2) = 0
  · simp [hzero]
  · rw [if_neg hzero, Option.isSome_map]
    generalize (rand % ((maxN + 2) * (maxN + 2)).toUInt64).toUInt32 = rawRnd
    by_cases hsmall : rawRnd.toNat < 2 ^ 31
    · rw [toInt_toInt32 hsmall]
      exact iff_of_true (intSqrt_isSome hsmall) ⟨hzero, hsmall⟩
    · rw [intSqrt_neg (toInt_toInt32_neg (not_lt.mp hsmall))]
      exact iff_of_false Bool.false_ne_true fun h => hsmall h.2

theorem skippedSns_isSome_iff (count : ℕ) (pings : UInt8) (rand : UInt64) :
    (skippedSns count pings rand).isSome ↔ SkipDrawn count pings rand := by
  unfold skippedSns SkipDrawn
  dsimp only
  generalize UInt32.ofNat count - pings.toUInt32 = excess
  by_cases hneg : excess.toInt32 < 0
  · rw [if_pos hneg]
    exact iff_of_true rfl (Or.inl ((toInt32_neg_iff excess).mp hneg))
  · rw [if_neg hneg, Option.isSome_map, UInt32.toUInt32_toInt32, nRandSqr_isSome_iff]
    rw [toInt32_neg_iff] at hneg
    exact (or_iff_right hneg).symm

/-- What is skipped is not needed. -/
theorem skippedSns_le {count skip : ℕ} {pings : UInt8} {rand : UInt64}
    (h : skippedSns count pings rand = some skip) : skip = 0 ∨ pings.toNat + skip ≤ count := by
  unfold skippedSns at h
  dsimp only at h
  have hcount : (UInt32.ofNat count).toNat = count % 2 ^ 32 := UInt32.toNat_ofNat'
  have hpings : pings.toUInt32.toNat = pings.toNat := UInt8.toNat_toUInt32 pings
  have hlt := pings.toNat_lt
  have hsub := UInt32.toNat_sub (UInt32.ofNat count) pings.toUInt32
  generalize UInt32.ofNat count - pings.toUInt32 = excess at h hsub
  rw [hcount, hpings] at hsub
  by_cases hneg : excess.toInt32 < 0
  · rw [if_pos hneg] at h
    exact Or.inl (Option.some.inj h).symm
  · rw [if_neg hneg, UInt32.toUInt32_toInt32] at h
    obtain ⟨r, hr, rfl⟩ := Option.map_eq_some_iff.mp h
    have hle := UInt32.le_iff_toNat_le.mp (nRandSqr_le hr)
    rw [toInt32_neg_iff] at hneg
    have hmod := Nat.mod_le count (2 ^ 32)
    right
    omega

/-- The random number is drawn for all lists but very long ones. -/
theorem skipDrawn_of_length {count : ℕ} {pings : UInt8} (h : count ≤ pings.toNat + 46338)
    (rand : UInt64) : SkipDrawn count pings rand := by
  rw [← skippedSns_isSome_iff]
  unfold skippedSns
  dsimp only
  have hlt := pings.toNat_lt
  have hcount : (UInt32.ofNat count).toNat = count := by
    rw [UInt32.toNat_ofNat']
    exact Nat.mod_eq_of_lt (by omega)
  have hpings : pings.toUInt32.toNat = pings.toNat := UInt8.toNat_toUInt32 pings
  have hsub := UInt32.toNat_sub (UInt32.ofNat count) pings.toUInt32
  generalize UInt32.ofNat count - pings.toUInt32 = excess at hsub ⊢
  rw [hcount, hpings] at hsub
  by_cases hneg : excess.toInt32 < 0
  · rw [if_pos hneg]
    rfl
  · rw [if_neg hneg, Option.isSome_map, UInt32.toUInt32_toInt32]
    rw [toInt32_neg_iff] at hneg
    exact nRandSqr_isSome (by omega) rand

/-! ### The PINGs -/

/-- **The edge sends to these supernodes**: they are the sockets that `sendQueryPeer` goes
through. -/
theorem pinged_pingTargets {peers targets : List PeerInfo} {pings : UInt8} {rand : UInt64}
    (h : pingTargets peers pings rand = some targets) :
    ∃ skip, skippedSns peers.length pings rand = some skip ∧
      Edge.pinged (peers.map (·.sock)) pings.toNat
        (if pings.toNat ≤ peers.length then skip else 0) = targets.map (·.sock) := by
  obtain ⟨skip, hskip, rfl⟩ := Option.map_eq_some_iff.mp h
  refine ⟨skip, hskip, ?_⟩
  have hsame : (if pings.toNat ≤ peers.length then skip else 0) = skip := by
    have hle := skippedSns_le hskip
    split_ifs <;> omega
  rw [hsame, pingLoop_eq, Edge.pinged]
  simp only [List.map_append, List.map_take, List.map_drop, Nat.shiftRight_eq_div_pow, Nat.pow_one]

/-- **There are enough PINGs exactly if the random number is drawn.** -/
theorem pingsEnough_iff (peers : List α) (pings : UInt8) (rand : UInt64) :
    PingsEnough peers pings rand ↔ SkipDrawn peers.length pings rand := by
  rw [← skippedSns_isSome_iff]
  unfold PingsEnough pingTargets
  constructor
  · rintro ⟨sent, hsent, -⟩
    rw [← Option.isSome_map, hsent]
    rfl
  · intro hdrawn
    obtain ⟨skip, hskip⟩ := Option.isSome_iff_exists.mp hdrawn
    have hle := skippedSns_le hskip
    have hhalves : pings.toNat >>> 1 + (pings.toNat + 1) >>> 1 = pings.toNat := by
      rw [Nat.shiftRight_eq_div_pow, Nat.shiftRight_eq_div_pow]
      omega
    refine ⟨_, by rw [hskip]; rfl, ?_, pingLoop_sublist _ _ _ _, ?_⟩
    · rw [length_pingLoop (by omega), hhalves]
    · rw [pingLoop_eq, Nat.shiftRight_eq_div_pow, Nat.pow_one]
      exact List.prefix_append _ _

/-- With 15 PINGs and 65549 supernodes, the square is that of `2 ^ 16`, which is divided by. -/
theorem not_pingsEnough_many : ¬ PingsEnough (List.range 65549) 15 0 := by
  rintro ⟨sent, hsent, -⟩
  have hnone : skippedSns 65549 15 0 = none := by decide
  rw [pingTargets, List.length_range, hnone] at hsent
  cases hsent

end N2n
