import N2nTun.SnMachine
import N2nTun.Uninitialised.Registration

/-!
# The list of supernodes

A REGISTER_SUPER_ACK carries a list of supernodes, so that edges and supernodes come to know the
federation.  Entries that cannot be used are left out, and a random number of entries is
skipped at the front, so that all have a chance if there are too many.

The count of the list includes the entry that does not fit.  The random number goes up to the
number of entries less one, where it was to be the number of entries less those that fit: the
quotient has the size of an entry twice.

## Main definitions

* `writtenPeers` — the supernodes whose entries are written.
* `ListLaw` — what the list is to be.
* `nRandSqr`, `randomSkip` — how many entries are skipped.
* `CompleteLaw`, `NoneSkipped` — no supernode is missing.

## Main results

* `writtenPeers_eq` — the supernodes that can be used behind the skipped ones, as many as fit.
* `listLaw_iff` — **when the list is what it is to be.**
* `completeLaw_iff` — **when no supernode is missing.**
* `randomSkip_one` — half of the supernodes may be skipped.
-/

namespace N2n

open Bytes

/-! ### What is written -/

/-- The supernodes whose entries `assemblePayload` writes. -/
def writtenPeers (sender : Sock) (now : ℤ) : List PeerInfo → ℕ → ℕ → List PeerInfo
  | [], _, _ => []
  | _ :: rest, skip + 1, num => writtenPeers sender now rest skip num
  | peer :: rest, 0, num =>
    if peer.sock.family = afInvalid ∨ peer.sock = sender ∨ now - peer.lastSeen ≥ lastSeenSnNew then
      writtenPeers sender now rest 0 num
    else if (num + 1) * regSuperAckPayloadEntrySize > regSuperAckPayloadSpace then []
    else peer :: writtenPeers sender now rest 0 (num + 1)

/-- **The supernodes that are written**: those that can be listed behind the skipped ones, as many
as fit. -/
theorem writtenPeers_eq (sender : Sock) (now : ℤ) (peers : List PeerInfo) (skip num : ℕ)
    (hnum : num ≤ payloadCapacity) :
    writtenPeers sender now peers skip num =
      (listedPeers peers sender now skip).take (payloadCapacity - num) := by
  have hcap : payloadCapacity = 44 := by decide
  have hsize : regSuperAckPayloadEntrySize = 26 := rfl
  have hspace : regSuperAckPayloadSpace = 1166 := rfl
  unfold listedPeers
  induction peers generalizing skip num with
  | nil => simp [writtenPeers]
  | cons peer peers ih =>
    cases skip with
    | succ skip => exact ih skip num hnum
    | zero =>
      rw [writtenPeers, List.drop_zero, List.filter_cons]
      by_cases hskip : peer.sock.family = afInvalid ∨ peer.sock = sender ∨
          now - peer.lastSeen ≥ lastSeenSnNew
      · have hno : peer.isListable sender now = false := decide_eq_false (not_not.mpr hskip)
        rw [if_pos hskip, hno]
        exact ih 0 num hnum
      have hyes : peer.isListable sender now = true := decide_eq_true hskip
      rw [if_neg hskip, if_pos hyes, hsize, hspace]
      split_ifs with hfull
      · rw [show payloadCapacity - num = 0 by omega, List.take_zero]
      · rw [show payloadCapacity - num = payloadCapacity - (num + 1) + 1 by omega,
          List.take_succ_cons, ih 0 (num + 1) (by omega), List.drop_zero]

/-- The bytes of the list, and what is left of `payload_buf`. -/
theorem assemblePayload_written (sender : Sock) (now : ℤ) (peers : List PeerInfo) (skip : ℕ)
    (buf : List UInt8) :
    let written := payloadEntries (writtenPeers sender now peers skip 0)
    (assemblePayload sender now peers skip 0 buf).2 = written ++ buf.drop written.length := by
  have h := assemblePayload_from sender now buf peers skip 0 [] (Nat.zero_le _) rfl
  dsimp only at h ⊢
  rw [writtenPeers_eq sender now peers skip 0 (Nat.zero_le _)]
  exact congrArg Prod.snd h

/-! ### Decoding -/

/-- A list of supernodes, decoded entry by entry into a variable `payload_sock`. -/
def decodePayloadList (payloadSock : Sock) (buf : List UInt8) (numSn : ℕ) : List (Sock × Mac) :=
  (List.range numSn).map fun i =>
    let entry := slice buf (i * regSuperAckPayloadEntrySize) regSuperAckPayloadEntrySize
    ((decodeSockPayload payloadSock entry ⟨20, 0⟩).out, sliceVec entry 20 6)

/-- What comes back of a supernode: the type of the socket is not in the list, and the decoder
leaves the one of its variable alone. -/
def PeerInfo.listed (peer : PeerInfo) (payloadSock : Sock) : Sock × Mac :=
  ({ peer.sock with type := payloadSock.type }, peer.macAddr)

theorem payloadEntry_eq (peer : PeerInfo) :
    payloadEntry peer = [peer.sock.family, 0, peer.sock.port.toUInt8,
      (peer.sock.port >>> 8).toUInt8] ++ peer.sock.addr.toList ++ peer.macAddr.toList := by
  simp [payloadEntry, encodeSockPayload, encodeUint8, encodeBuf, encodeStart, overwrite,
    Encoded.bytes]

/-- **One entry**: `decode_sock_payload` gives back what `encode_sock_payload` has written. -/
theorem decode_payloadEntry (payloadSock : Sock) (peer : PeerInfo) :
    ((decodeSockPayload payloadSock (payloadEntry peer) ⟨20, 0⟩).out,
      sliceVec (payloadEntry peer) 20 6) = peer.listed payloadSock := by
  have hrem : (20 - 1 + 2 ^ 64 - 1) % 2 ^ 64 = 18 := by norm_num
  rw [payloadEntry_eq]
  have haddr : sliceVec ([peer.sock.family, 0, peer.sock.port.toUInt8,
      (peer.sock.port >>> 8).toUInt8] ++ peer.sock.addr.toList ++ peer.macAddr.toList) 4 16 =
        peer.sock.addr :=
    List.Vector.toList_injective (slice_middle rfl peer.sock.addr.2)
  have hmac : sliceVec ([peer.sock.family, 0, peer.sock.port.toUInt8,
      (peer.sock.port >>> 8).toUInt8] ++ peer.sock.addr.toList ++ peer.macAddr.toList) 20 6 =
        peer.macAddr := by
    apply List.Vector.toList_injective
    have hlen : ([peer.sock.family, 0, peer.sock.port.toUInt8,
        (peer.sock.port >>> 8).toUInt8] ++ peer.sock.addr.toList).length = 20 := by simp
    have hcut := slice_middle (z := []) hlen peer.macAddr.2
    rw [List.append_nil] at hcut
    exact hcut
  refine Prod.ext ?_ hmac
  simp only [decodeSockPayload, decodeUint8, decodeVec, decodeField, Cursor.advance,
    if_neg (show ¬ 20 < 1 by decide), hrem]
  show (⟨peer.sock.family, payloadSock.type,
    be16 (peer.sock.port >>> 8).toUInt8 peer.sock.port.toUInt8, sliceVec _ 4 16⟩ : Sock) = _
  rw [haddr, be16_bytes16]
  rfl

/-- The entries are cut out where they have been written. -/
theorem slice_payloadEntries (peers : List PeerInfo) {i : ℕ} (h : i < peers.length) :
    slice (payloadEntries peers) (i * regSuperAckPayloadEntrySize) regSuperAckPayloadEntrySize =
      payloadEntry peers[i] := by
  induction peers generalizing i with
  | nil => cases h
  | cons peer peers ih =>
    have hlen := length_payloadEntry peer
    rw [payloadEntries_cons]
    cases i with
    | zero => rw [Nat.zero_mul, ← hlen, slice_left, List.getElem_cons_zero]
    | succ i =>
      rw [Nat.add_mul, Nat.one_mul, Nat.add_comm]
      nth_rewrite 1 [← hlen]
      rw [slice_append, List.getElem_cons_succ]
      exact ih (Nat.lt_of_succ_lt_succ h)

/-- **A list of entries** is decoded to the supernodes. -/
theorem decodePayloadList_payloadEntries (payloadSock : Sock) (peers : List PeerInfo) :
    decodePayloadList payloadSock (payloadEntries peers) peers.length =
      peers.map (·.listed payloadSock) := by
  apply List.ext_getElem
  · simp [decodePayloadList]
  · intro i hi hi'
    rw [List.length_map] at hi'
    simp only [decodePayloadList, List.getElem_map, List.getElem_range]
    rw [slice_payloadEntries peers hi', decode_payloadEntry]

/-! ### When the list is what it is to be -/

namespace World

/-- The supernodes that are written into the list for `rx`. -/
def snWritten (w : World) (rx : Rx) : List PeerInfo :=
  writtenPeers rx.sender rx.now (w.sss.edges w.sss.federation).values w.listSkip 0

/-- `ack.num_sn`. -/
def numSn (w : World) (rx : Rx) : UInt8 := UInt8.ofNat (w.supernodeList rx).2.1

/-- What the list is to be: it counts the entries that have been written, these fit into
`payload_buf`, and what is sent is decoded to the supernodes, in their order. -/
structure ListLaw (w : World) (rx : Rx) : Prop where
  counted : (w.numSn rx).toNat = (w.snWritten rx).length
  fits : (w.numSn rx).toNat * regSuperAckPayloadEntrySize ≤ regSuperAckPayloadSpace
  decoded : ∀ payloadSock,
    decodePayloadList payloadSock (snListBytes (w.numSn rx) (w.supernodeList rx).2.2)
      (w.numSn rx).toNat = (w.snWritten rx).map (·.listed payloadSock)

theorem snWritten_eq (w : World) (rx : Rx) :
    w.snWritten rx = (w.listed rx).take payloadCapacity :=
  writtenPeers_eq rx.sender rx.now _ w.listSkip 0 (Nat.zero_le _)

theorem numSn_toNat (w : World) (rx : Rx) :
    (w.numSn rx).toNat = min (payloadCapacity + 1) (w.listed rx).length := by
  have hcap : payloadCapacity = 44 := by decide
  have hcount : (w.supernodeList rx).2.1 = min (payloadCapacity + 1) (w.listed rx).length := by
    rw [supernodeList_list]
    exact (snListBytes_assemble _ _ _ _ rx.stack.payloadBuf).1
  rw [numSn, hcount, UInt8.toNat_ofNat']
  exact Nat.mod_eq_of_lt (by omega)

/-- **When the list is what it is to be**: there are no more supernodes than fit. -/
theorem listLaw_iff (w : World) (rx : Rx) : w.ListLaw rx ↔ ¬w.ListOverflows rx := by
  have hcap : payloadCapacity = 44 := by decide
  have hsize : regSuperAckPayloadEntrySize = 26 := rfl
  have hspace : regSuperAckPayloadSpace = 1166 := rfl
  have hnum := w.numSn_toNat rx
  constructor
  · intro hlaw hover
    have hlen := hlaw.counted
    have hover' : payloadCapacity < (w.listed rx).length := hover
    rw [hnum, snWritten_eq, List.length_take] at hlen
    omega
  · intro hover
    have hroom : (w.listed rx).length ≤ payloadCapacity := Nat.le_of_not_lt hover
    have hall : w.snWritten rx = w.listed rx := by rw [snWritten_eq, List.take_of_length_le hroom]
    have hbytes : snListBytes (w.numSn rx) (w.supernodeList rx).2.2 =
        payloadEntries (w.snWritten rx) := by
      rw [numSn, supernodeList_bytes, if_neg hover, List.append_nil, snWritten_eq]
    rw [Nat.min_eq_right (by omega), ← hall] at hnum
    rw [← hall] at hroom
    refine ⟨hnum, ?_, fun payloadSock => ?_⟩
    · rw [hnum, hsize, hspace]
      omega
    rw [hbytes, hnum]
    exact decodePayloadList_payloadEntries payloadSock (w.snWritten rx)

end World

/-! ### How many are skipped -/

/-- `ftbl`. -/
def ftbl : List ℕ :=
  [0, 1, 1, 2, 2, 4, 5, 8, 11, 16, 22, 32, 45, 64, 90, 128, 181, 256, 362, 512, 724, 1024, 1448,
    2048, 2896, 4096, 5792, 8192, 11585, 16384, 23170, 32768, 46340]

/-- `ftbl2`. -/
def ftbl2 : List ℕ :=
  [32768, 33276, 33776, 34269, 34755, 35235, 35708, 36174, 36635, 37090, 37540, 37984, 38423,
    38858, 39287, 39712, 40132, 40548, 40960, 41367, 41771, 42170, 42566, 42959, 43347, 43733,
    44115, 44493, 44869, 45241, 45611, 45977]

/-- The loop of `i_sqrt` that counts the bits of `t`, which has no more than `fuel`. -/
def bitCount : ℕ → ℕ → ℕ
  | 0, _ => 0
  | fuel + 1, t => if t = 0 then 0 else bitCount fuel (t / 2) + 1

/-- `i_sqrt`.  For a negative number the loop does not end: `none`. -/
def iSqrt (val : ℤ) : Option ℤ :=
  if val < 0 then none
  else
    let cnt := bitCount 32 val.toNat
    let t := if 6 ≥ cnt then val.toNat * 2 ^ (6 - cnt) else val.toNat / 2 ^ (cnt - 6)
    some (ftbl.getD cnt 0 * ftbl2.getD (t % 32) 0 / 2 ^ 15 : ℕ)

/-- `int_sqrt`. -/
def intSqrt (val : ℤ) : Option ℤ :=
  (iSqrt val).bind fun ret => (iSqrt (val - ret * ret)).map fun rest => ret + rest / 16

/-- `n2n_rand_sqr`, given what `n2n_rand` returns; `none` if it divides by zero or does not
end. -/
def nRandSqr (maxN : UInt32) (rand : UInt64) : Option UInt32 :=
  let rawMax := (maxN + 2) * (maxN + 2)
  if rawMax = 0 then none
  else
    let rawRnd := (rand % rawMax.toUInt64).toUInt32
    (intSqrt rawRnd.toInt32.toInt).map fun root =>
      let ret := Int32.ofInt (root / 2)
      let ret := if rawRnd &&& 1 ≠ 0 then ret else -ret
      let ret := (maxN / 2 + ret.toUInt32).toInt32
      let ret := if ret < 0 then 0 else ret
      if ret.toUInt32 > maxN then maxN else ret.toUInt32

/-- `skip`, for a federation of `count` supernodes: the quotient of the sizes is 1. -/
def randomSkip (count : ℕ) (rand : UInt64) : Option ℕ :=
  let skip := (UInt32.ofNat count -
    UInt32.ofNat (regSuperAckPayloadEntrySize / regSuperAckPayloadEntrySize)).toInt32
  if skip < 0 then some 0 else (nRandSqr skip.toUInt32 rand).map (·.toNat)

theorem bitCount_bounds {fuel t : ℕ} (h : t < 2 ^ fuel) :
    t < 2 ^ bitCount fuel t ∧ (t ≠ 0 → 2 ^ bitCount fuel t ≤ 2 * t) := by
  induction fuel generalizing t with
  | zero => simp_all [bitCount]
  | succ fuel ih =>
    rw [bitCount]
    split_ifs with hzero
    · simp [hzero]
    · obtain ⟨hlt, hle⟩ := ih (t := t / 2) (by rw [Nat.pow_succ] at h; omega)
      rw [Nat.pow_succ]
      refine ⟨by omega, fun _ => ?_⟩
      by_cases hone : t / 2 = 0
      · have hone' : t = 1 := by omega
        subst hone'
        cases fuel <;> simp [bitCount]
      · have := hle hone
        omega

/-- `i_sqrt` does not return more than the square root. -/
theorem iSqrt_sq_le {v : ℕ} (h : v < 2 ^ 31) : ∃ r : ℕ, iSqrt v = some (r : ℤ) ∧ r * r ≤ v := by
  refine ⟨_, by rw [iSqrt, if_neg (by omega)], ?_⟩
  rw [Int.toNat_natCast]
  obtain ⟨hlt, hle⟩ := bitCount_bounds (show v < 2 ^ 32 by omega)
  generalize hcount : bitCount 32 v = cnt at hlt hle
  split_ifs with hsmall
  · have hall : ∀ v < 64, let cnt := bitCount 32 v
        ftbl.getD cnt 0 * ftbl2.getD (v * 2 ^ (6 - cnt) % 32) 0 / 2 ^ 15 *
          (ftbl.getD cnt 0 * ftbl2.getD (v * 2 ^ (6 - cnt) % 32) 0 / 2 ^ 15) ≤ v := by
      decide +kernel
    have hv : v < 64 := lt_of_lt_of_le hlt (Nat.pow_le_pow_right (by decide) hsmall)
    have hbound := hall v hv
    rw [hcount] at hbound
    exact hbound
  · -- the six leading bits are taken
    have hall : ∀ c < 25, ∀ j < 32, ftbl.getD (c + 7) 0 * ftbl2.getD j 0 / 2 ^ 15 *
        (ftbl.getD (c + 7) 0 * ftbl2.getD j 0 / 2 ^ 15) ≤ (32 + j) * 2 ^ (c + 1) := by
      decide +kernel
    obtain ⟨c, rfl⟩ : ∃ c, cnt = c + 7 := ⟨cnt - 7, by omega⟩
    have hne : v ≠ 0 := by
      rintro rfl
      cases hcount
    have hc : c < 25 := by
      by_contra hc
      have hpow : 2 ^ 32 ≤ 2 ^ (c + 7) := Nat.pow_le_pow_right (by decide) (by omega)
      have := hle hne
      omega
    rw [show c + 7 - 6 = c + 1 by omega]
    have hpos : 0 < 2 ^ (c + 1) := Nat.two_pow_pos _
    have hlow : 32 ≤ v / 2 ^ (c + 1) := by
      rw [Nat.le_div_iff_mul_le hpos]
      have hpow : 2 ^ (c + 7) = 64 * 2 ^ (c + 1) := by ring
      have := hle hne
      omega
    have hhigh : v / 2 ^ (c + 1) < 64 := by
      rw [Nat.div_lt_iff_lt_mul hpos]
      calc v < 2 ^ (c + 7) := hlt
        _ = 64 * 2 ^ (c + 1) := by ring
    have hbound := hall c hc (v / 2 ^ (c + 1) % 32) (Nat.mod_lt _ (by decide))
    refine hbound.trans ?_
    rw [show 32 + v / 2 ^ (c + 1) % 32 = v / 2 ^ (c + 1) by omega]
    exact Nat.div_mul_le_self v _

/-- An unsigned number as a signed one. -/
theorem toInt_toInt32 {x : UInt32} (h : x.toNat < 2 ^ 31) : x.toInt32.toInt = (x.toNat : ℤ) := by
  show x.toBitVec.toInt = _
  rw [BitVec.toInt_eq_toNat_of_lt]
  · rfl
  · show 2 * x.toNat < 2 ^ 32
    omega

theorem toInt32_nonneg {x : UInt32} (h : x.toNat < 2 ^ 31) : ¬x.toInt32 < 0 := by
  rw [Int32.lt_iff_toInt_lt, toInt_toInt32 h]
  exact not_lt_of_ge (Int.natCast_nonneg _)

theorem intSqrt_isSome {v : ℕ} (h : v < 2 ^ 31) : (intSqrt v).isSome := by
  obtain ⟨r, hr, hle⟩ := iSqrt_sq_le h
  have hle' : (r : ℤ) * r ≤ v := by exact_mod_cast hle
  unfold intSqrt
  rw [hr, Option.bind_some, Option.isSome_map, iSqrt, if_neg (by omega)]
  rfl

/-- The square below which the random number lies. -/
theorem rawMax_toNat {maxN : UInt32} (h : maxN.toNat + 2 < 2 ^ 16) :
    ((maxN + 2) * (maxN + 2)).toNat = (maxN.toNat + 2) * (maxN.toNat + 2) := by
  have hsum : (maxN + 2).toNat = maxN.toNat + 2 := by
    rw [UInt32.toNat_add, show (2 : UInt32).toNat = 2 from rfl, Nat.mod_eq_of_lt (by omega)]
  rw [UInt32.toNat_mul, hsum, Nat.mod_eq_of_lt]
  calc (maxN.toNat + 2) * (maxN.toNat + 2) < 2 ^ 16 * 2 ^ 16 := Nat.mul_lt_mul'' h h
    _ = 2 ^ 32 := by norm_num

/-- **There is a random number** for all federations that are not far too large. -/
theorem nRandSqr_isSome {maxN : UInt32} (h : maxN.toNat + 2 ≤ 46340) (rand : UInt64) :
    (nRandSqr maxN rand).isSome := by
  have hmax := rawMax_toNat (show maxN.toNat + 2 < 2 ^ 16 by omega)
  have hle : (maxN.toNat + 2) * (maxN.toNat + 2) ≤ 46340 * 46340 := Nat.mul_le_mul h h
  unfold nRandSqr
  dsimp only
  generalize (maxN + 2) * (maxN + 2) = rawMax at hmax
  have hpos : 0 < (maxN.toNat + 2) * (maxN.toNat + 2) := by positivity
  rw [if_neg (fun hzero => by rw [hzero] at hmax; exact absurd hmax hpos.ne), Option.isSome_map]
  have hmod : rand.toNat % rawMax.toNat < rawMax.toNat := Nat.mod_lt _ (by omega)
  have hraw : (rand % rawMax.toUInt64).toUInt32.toNat = rand.toNat % rawMax.toNat := by
    rw [UInt64.toNat_toUInt32, UInt64.toNat_mod, UInt32.toNat_toUInt64]
    exact Nat.mod_eq_of_lt (by omega)
  rw [toInt_toInt32 (by omega)]
  exact intSqrt_isSome (by omega)

/-- **Half of the numbers are skipped** if the random number is 1. -/
theorem nRandSqr_one {maxN : UInt32} (h : maxN.toNat + 2 < 2 ^ 16) :
    nRandSqr maxN 1 = some (maxN / 2) := by
  have hmax := rawMax_toNat h
  have hfour : 2 * 2 ≤ (maxN.toNat + 2) * (maxN.toNat + 2) :=
    Nat.mul_le_mul (Nat.le_add_left _ _) (Nat.le_add_left _ _)
  unfold nRandSqr
  dsimp only
  generalize (maxN + 2) * (maxN + 2) = rawMax at hmax
  have hraw : ((1 : UInt64) % rawMax.toUInt64).toUInt32 = 1 := by
    apply UInt32.toNat_inj.mp
    rw [UInt64.toNat_toUInt32, UInt64.toNat_mod, UInt32.toNat_toUInt64]
    show 1 % rawMax.toNat % 2 ^ 32 = 1
    rw [Nat.mod_eq_of_lt (by omega : 1 < rawMax.toNat)]
  have hroot : intSqrt (1 : UInt32).toInt32.toInt = some 1 := by decide +kernel
  rw [if_neg (fun hzero => by rw [hzero] at hmax; exact absurd hmax (by
    rw [show (0 : UInt32).toNat = 0 from rfl]; omega)), hraw, hroot, Option.map_some]
  congr 1
  have hhalf : (maxN / 2).toNat = maxN.toNat / 2 := UInt32.toNat_div _ _
  have hzero : maxN / 2 + (if (1 : UInt32) &&& 1 ≠ 0 then Int32.ofInt (1 / 2)
      else -Int32.ofInt (1 / 2)).toUInt32 = maxN / 2 := by
    rw [if_pos (by decide)]
    exact UInt32.add_zero _
  rw [hzero]
  rw [if_neg (toInt32_nonneg (by omega)), UInt32.toUInt32_toInt32, if_neg]
  rw [gt_iff_lt, UInt32.lt_iff_toNat_lt, hhalf]
  omega

/-- `skip` before a random number is drawn. -/
theorem skip_toNat {count : ℕ} (hpos : 0 < count) (h : count < 2 ^ 31) :
    (UInt32.ofNat count - UInt32.ofNat (regSuperAckPayloadEntrySize /
      regSuperAckPayloadEntrySize)).toInt32.toUInt32.toNat = count - 1 := by
  have hcount : (UInt32.ofNat count).toNat = count := UInt32.toNat_ofNat_of_lt' (by
    show count < 2 ^ 32
    omega)
  have hone : (UInt32.ofNat (regSuperAckPayloadEntrySize /
    regSuperAckPayloadEntrySize)).toNat = 1 := rfl
  rw [UInt32.toUInt32_toInt32, UInt32.toNat_sub_of_le _ _ (by
    rw [UInt32.le_iff_toNat_le, hcount, hone]; exact hpos), hcount, hone]

theorem skip_nonneg {count : ℕ} (hpos : 0 < count) (h : count < 2 ^ 31) :
    ¬(UInt32.ofNat count - UInt32.ofNat (regSuperAckPayloadEntrySize /
      regSuperAckPayloadEntrySize)).toInt32 < 0 := by
  have hnat := skip_toNat hpos h
  rw [UInt32.toUInt32_toInt32] at hnat
  exact toInt32_nonneg (by omega)

/-- The number of entries that are skipped, for federations that are not far too large. -/
theorem randomSkip_isSome {count : ℕ} (h : count < 46340) (rand : UInt64) :
    (randomSkip count rand).isSome := by
  unfold randomSkip
  dsimp only
  split_ifs with hneg
  · rfl
  · rw [Option.isSome_map]
    by_cases hzero : count = 0
    · subst hzero
      exact absurd (by decide) hneg
    · apply nRandSqr_isSome
      rw [skip_toNat (Nat.pos_of_ne_zero hzero) (by omega)]
      omega

/-- **Half of the supernodes are skipped** if the random number is 1. -/
theorem randomSkip_one {count : ℕ} (hpos : 0 < count) (h : count < 2 ^ 16 - 1) :
    randomSkip count 1 = some ((count - 1) / 2) := by
  have hnat := skip_toNat hpos (by omega)
  unfold randomSkip
  dsimp only
  rw [if_neg (skip_nonneg hpos (by omega)), nRandSqr_one (by rw [hnat]; omega), Option.map_some,
    UInt32.toNat_div, hnat]
  rfl

/-! ### When no supernode is missing -/

namespace World

/-- The supernodes of the federation. -/
def snPeers (w : World) : List PeerInfo := (w.sss.edges w.sss.federation).values

/-- The supernodes that can be listed: resolved, seen lately, and not the one that asks. -/
def eligible (w : World) (rx : Rx) : List PeerInfo :=
  w.snPeers.filter (·.isListable rx.sender rx.now)

/-- `n2n_rand_sqr` is going to return `skip`. -/
def drawing (w : World) (skip : ℕ) : World :=
  { w with env := { w.env with randSqrs := Stream'.cons skip w.env.randSqrs } }

/-- What the list is to hold: all supernodes that can be listed if they fit, and else as many of
those behind the skipped ones as fit, whatever the random number is. -/
def CompleteLaw (w : World) (rx : Rx) : Prop :=
  ∀ rand, ∃ skip, randomSkip w.snPeers.length rand = some skip ∧
    let written := (w.drawing skip).snWritten rx
    if (w.eligible rx).length ≤ payloadCapacity then written = w.eligible rx
    else written = (listedPeers w.snPeers rx.sender rx.now skip).take payloadCapacity

/-- If all fit, no random number skips one that can be listed. -/
def NoneSkipped (w : World) (rx : Rx) : Prop :=
  (w.eligible rx).length ≤ payloadCapacity → ∀ rand skip,
    randomSkip w.snPeers.length rand = some skip →
      ∀ peer ∈ w.snPeers.take skip, peer.isListable rx.sender rx.now = false

/-- What is written once a number is drawn. -/
theorem drawing_snWritten (w : World) (rx : Rx) (skip : ℕ) :
    (w.drawing skip).snWritten rx =
      (listedPeers w.snPeers rx.sender rx.now skip).take payloadCapacity := by
  rw [snWritten_eq]
  unfold listed listSkip
  by_cases hempty : w.snPeers.length < 1
  · have hnil : w.snPeers = [] := List.length_eq_zero_iff.mp (by omega)
    have hpeers : ((w.drawing skip).sss.edges (w.drawing skip).sss.federation).values = [] := hnil
    rw [hpeers, hnil]
    simp [listedPeers]
  · have hskip : (if ((w.drawing skip).sss.edges (w.drawing skip).sss.federation).values.length < 1
        then 0 else (w.drawing skip).env.randSqrs.head) = skip := if_neg hempty
    rw [hskip]
    rfl

/-- The list behind the skipped entries is complete if none of these can be listed. -/
theorem listedPeers_eq_iff (peers : List PeerInfo) (sender : Sock) (now : ℤ) (skip : ℕ)
    (h : (peers.filter (·.isListable sender now)).length ≤ payloadCapacity) :
    (listedPeers peers sender now skip).take payloadCapacity =
        peers.filter (·.isListable sender now) ↔
      ∀ peer ∈ peers.take skip, peer.isListable sender now = false := by
  have hsplit : peers.filter (·.isListable sender now) =
      (peers.take skip).filter (·.isListable sender now) ++
        listedPeers peers sender now skip := by
    rw [listedPeers, ← List.filter_append, List.take_append_drop]
  have hfits : (listedPeers peers sender now skip).length ≤ payloadCapacity := by
    rw [hsplit, List.length_append] at h
    omega
  rw [List.take_of_length_le hfits, hsplit]
  constructor
  · intro heq peer hpeer
    have hnil : (peers.take skip).filter (·.isListable sender now) = [] := by
      rwa [List.self_eq_append_left] at heq
    simpa using List.filter_eq_nil_iff.mp hnil peer hpeer
  · intro hnone
    rw [List.filter_eq_nil_iff.mpr fun peer hpeer => by rw [hnone peer hpeer]; decide,
      List.nil_append]

/-- **When no supernode is missing.** -/
theorem completeLaw_iff (w : World) (rx : Rx) :
    w.CompleteLaw rx ↔
      (∀ rand, (randomSkip w.snPeers.length rand).isSome) ∧ w.NoneSkipped rx := by
  unfold CompleteLaw NoneSkipped eligible
  simp only [drawing_snWritten]
  constructor
  · intro hlaw
    refine ⟨fun rand => ?_, fun hfits rand skip hskip => ?_⟩
    · obtain ⟨skip, hskip, -⟩ := hlaw rand
      rw [hskip]
      rfl
    · obtain ⟨skip', hskip', hwritten⟩ := hlaw rand
      obtain rfl : skip' = skip := Option.some.inj (hskip'.symm.trans hskip)
      rw [if_pos hfits] at hwritten
      exact (listedPeers_eq_iff _ _ _ _ hfits).mp hwritten
  · rintro ⟨hsome, hnone⟩ rand
    obtain ⟨skip, hskip⟩ := Option.isSome_iff_exists.mp (hsome rand)
    refine ⟨skip, hskip, ?_⟩
    split_ifs with hfits
    exact (listedPeers_eq_iff _ _ _ _ hfits).mpr (hnone hfits rand skip hskip)

end World

/-! ### Federations -/

/-- The supernode number `i` of a federation, seen at 100 seconds. -/
def fedPeer (i : ℕ) : PeerInfo :=
  { PeerInfo.zero with
    sock := hostSock 1 (UInt16.ofNat i)
    macAddr := hostMac (UInt8.ofNat i)
    lastSeen := 100 }

/-- A supernode whose federation has `n` members. -/
def fedSn (n : ℕ) : Sn :=
  { idleSn with
    communities := Table.empty.add
      { Community.zero with
        isFederation := true
        edges := (List.range n).foldl (fun t i => t.add (fedPeer i)) .empty } }

/-- A datagram from a host that is not in the federation. -/
def strangerRx : Rx := ⟨hostSock 2 1, 3, [], 100, zeroStack⟩

/-- 45 supernodes are counted, but 44 are written. -/
theorem not_listLaw_of_45 : ¬(World.start (fedSn 45)).ListLaw strangerRx := by
  intro hlaw
  have hnum : ((World.start (fedSn 45)).numSn strangerRx).toNat = 45 := by
    rw [World.numSn_toNat]
    decide +kernel
  have hlen : ((World.start (fedSn 45)).snWritten strangerRx).length = 44 := by decide +kernel
  rw [hlaw.counted, hlen] at hnum
  cases hnum

/-- Of three supernodes, which all fit, one is skipped. -/
theorem not_completeLaw_of_three : ¬(World.start (fedSn 3)).CompleteLaw strangerRx := by
  intro hlaw
  obtain ⟨skip, hskip, hwritten⟩ := hlaw 1
  obtain rfl : skip = 1 := by
    have hone : randomSkip (World.start (fedSn 3)).snPeers.length 1 = some 1 := by decide +kernel
    exact Option.some.inj (hskip.symm.trans hone)
  have hlen : (((World.start (fedSn 3)).drawing 1).snWritten strangerRx).length = 2 := by
    decide +kernel
  rw [if_pos (by decide +kernel)] at hwritten
  rw [hwritten] at hlen
  exact absurd hlen (by decide +kernel)

end N2n
