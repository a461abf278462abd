import N2nTun.Uninitialised.Stack
import N2nTun.HeaderRoundTrip

/-!
# Failed trials of a key

`packet_header_decrypt` works on the packet in place, and the checksum decides afterwards. A key
that is stopped by the length of the header leaves the packet alone; one that is only stopped by
the checksum leaves it decrypted with the wrong key, under the name of the wrong community. The
loop of the supernode goes on with what is left, so its result depends on the communities
that come before the right one.

## Main definitions

* `hiddenLength`, `openedPacket` — the length and the packet as a key shows them.
* `SelfOpened` — a packet that a key opens to itself.
* `HarmlessTrial`, `FailsHarmlessly` — a trial that leaves no traces if it fails.
* `Community.Passes` — both trials of a community fail without traces.

## Main results

* `openedPacket_eq_self_iff` — when a packet is opened to itself.
* `failedDecrypt_unchanged_iff` — **a failed trial leaves the packet unchanged exactly then, and
  communities whose trials are such do not matter.**
-/

namespace N2n

open Bytes

/-! ### One trial -/

/-- The length of the header, as a key shows it. -/
def hiddenLength (packet : List UInt8) (ctx : SpeckContext) : UInt32 :=
  be32At (speckCtr (slice packet 16 4) packet ctx) 0 - headerMagic

/-- The packet with header and IV decrypted. -/
def decryptedHeader (packet : List UInt8) (ctx ctxIv : SpeckContext) : List UInt8 :=
  speck128Decrypt (speckCtrAt packet 16 (hiddenLength packet ctx - 16).toNat packet ctx) ctxIv

/-- The packet in its original order, with the name of the community. -/
def openedPacket (packet : List UInt8) (name : CommunityName) (ctx ctxIv : SpeckContext) :
    List UInt8 :=
  let packet := decryptedHeader packet ctx ctxIv
  overwrite (overwrite packet 0 (slice packet 20 4)) 4 name.toList

/-- The checksum of the opened packet is the one that was sent. -/
def ChecksumFits (packet : List UInt8) (packetLen : UInt16) (name : CommunityName)
    (ctx ctxIv : SpeckContext) : Prop :=
  pearsonHash64 (slice (openedPacket packet name ctx ctxIv) 0 packetLen.toNat) >>> 32 =
    (be32At (decryptedHeader packet ctx ctxIv) 0).toUInt64

/-- The byte that counter mode puts on the byte `16 + i` of the packet. -/
def headerStreamByte (packet : List UInt8) (ctx : SpeckContext) (i : ℕ) : UInt8 :=
  if i < (hiddenLength packet ctx - 16).toNat then speckStreamByte ctx packet i else 0

/-- A packet that is opened to itself: it carries the name, its first four bytes are the decrypted
ones from 20 on, and the rest of the header is under a key stream of zeros. -/
structure SelfOpened (packet : List UInt8) (name : CommunityName) (ctx : SpeckContext) : Prop where
  name : (packet.drop 4).take communitySize = name.toList
  start : ∀ i, i < 4 →
    packet.getD i 0 = packet.getD (20 + i) 0 ^^^ headerStreamByte packet ctx (4 + i)
  stream : ∀ i, 8 ≤ i → 16 + i < packet.length → headerStreamByte packet ctx i = 0

/-- A trial that leaves no traces if it fails: it is stopped by the length, it succeeds, or
it opens the packet to itself. -/
def HarmlessTrial (packet : List UInt8) (packetLen : UInt16) (name : CommunityName)
    (ctx ctxIv : SpeckContext) : Prop :=
  packetLen.toNat < (hiddenLength packet ctx).toNat ∨
    ChecksumFits packet packetLen name ctx ctxIv ∨ SelfOpened packet name ctx

/-- A trial that fails and leaves no traces. -/
def FailsHarmlessly (packet : List UInt8) (packetLen : UInt16) (name : CommunityName)
    (ctx ctxIv : SpeckContext) : Prop :=
  packetLen.toNat < (hiddenLength packet ctx).toNat ∨
    ¬ ChecksumFits packet packetLen name ctx ctxIv ∧ SelfOpened packet name ctx

section

variable (packet : List UInt8) (packetLen : UInt16) (name : CommunityName)
  (ctx ctxIv : SpeckContext) (stamp : UInt64)

/-- A trial succeeds when the header fits into the packet and the checksum fits. -/
theorem packetHeaderDecrypt_ok_iff :
    (packetHeaderDecrypt packet packetLen name.toList ctx ctxIv stamp).ok = true ↔
      (hiddenLength packet ctx).toNat ≤ packetLen.toNat ∧
        ChecksumFits packet packetLen name ctx ctxIv := by
  unfold packetHeaderDecrypt ChecksumFits openedPacket decryptedHeader hiddenLength
  dsimp only
  split_ifs with hlen hsum
  · simp [hsum]
  · simp [hlen, not_not.mp hsum]
  · simp [hlen]

/-- The packet is opened, whatever the checksum says, unless the length stops the trial. -/
theorem packetHeaderDecrypt_packet :
    (packetHeaderDecrypt packet packetLen name.toList ctx ctxIv stamp).packet =
      if (hiddenLength packet ctx).toNat ≤ packetLen.toNat then openedPacket packet name ctx ctxIv
      else packet := by
  unfold packetHeaderDecrypt openedPacket decryptedHeader hiddenLength
  dsimp only
  split_ifs <;> rfl

end

/-! ### Packets that are opened to themselves -/

/-- Counter mode on the start of some bytes. -/
theorem speckCtr_take_drop (body n : List UInt8) (k : ℕ) (ctx : SpeckContext) :
    speckCtr (body.take k) n ctx ++ body.drop k =
      body.mapIdx fun i b => b ^^^ if i < k then speckStreamByte ctx n i else 0 := by
  apply List.ext_getElem
  · simp only [List.length_append, length_speckCtr, List.length_take, List.length_drop,
      List.length_mapIdx]
    omega
  · intro i h _
    simp only [List.length_append, length_speckCtr, List.length_take, List.length_drop] at h
    by_cases hi : i < k
    · rw [List.getElem_append_left (by simp; omega)]
      simp [speckCtr_eq, hi]
    · -- the bytes behind the header are kept
      rw [List.getElem_append_right (by simp; omega)]
      simp only [length_speckCtr, List.length_take, List.getElem_drop, List.getElem_mapIdx, hi,
        if_false, UInt8.xor_zero]
      congr 1
      omega

/-- The decrypted packet: a block, and the bytes behind it under the key stream. -/
theorem decryptedHeader_eq {packet : List UInt8} (h : 16 ≤ packet.length)
    (ctx ctxIv : SpeckContext) :
    decryptedHeader packet ctx ctxIv = speck128Decrypt (packet.take 16) ctxIv ++
      (packet.drop 16).mapIdx fun i b => b ^^^ headerStreamByte packet ctx i := by
  have hblk : (packet.take 16).length = 16 := by rw [List.length_take]; omega
  rw [decryptedHeader, speckCtrAt, List.append_assoc, speckCtr_take_drop,
    speck128Decrypt_append hblk]
  rfl

/-- The opened packet in its three parts. -/
theorem openedPacket_eq {packet : List UInt8} (h : 24 ≤ packet.length) (name : CommunityName)
    (ctx ctxIv : SpeckContext) :
    openedPacket packet name ctx ctxIv =
      (List.range 4).map
          (fun i => packet.getD (20 + i) 0 ^^^ headerStreamByte packet ctx (4 + i)) ++
        (name.toList ++
          ((packet.drop 16).mapIdx fun i b => b ^^^ headerStreamByte packet ctx i).drop 8) := by
  have hblk : (speck128Decrypt (packet.take 16) ctxIv).length = 16 := by
    have htake : (packet.take 16).length = 16 := by rw [List.length_take]; omega
    rw [length_speck128Decrypt htake.ge, htake]
  have hbase := decryptedHeader_eq (show 16 ≤ packet.length by omega) ctx ctxIv
  generalize hbody : (packet.drop 16).mapIdx (fun i b => b ^^^ headerStreamByte packet ctx i) = body
    at hbase ⊢
  have hname : name.toList.length = 20 := name.2
  have hstart : slice (decryptedHeader packet ctx ctxIv) 20 4 = (List.range 4).map
      fun i => packet.getD (20 + i) 0 ^^^ headerStreamByte packet ctx (4 + i) := by
    have hfour := slice_append (speck128Decrypt (packet.take 16) ctxIv) body 4 4
    rw [hblk] at hfour
    rw [hbase, hfour, slice]
    refine List.map_congr_left fun i hi => ?_
    have hi := List.mem_range.mp hi
    rw [← hbody, List.getD_eq_getElem _ _ (by simp; omega),
      List.getD_eq_getElem _ _ (by omega : 20 + i < packet.length)]
    simp only [List.getElem_mapIdx, List.getElem_drop]
    congr 2
    omega
  unfold openedPacket
  dsimp only
  rw [hstart, hbase]
  simp only [overwrite, List.take_zero, List.nil_append, List.length_map, List.length_range, hname]
  rw [List.take_left' (by simp), List.append_assoc, ← List.drop_drop, List.drop_left' (by simp),
    List.drop_drop, List.drop_append, hblk, List.drop_of_length_le (by rw [hblk]; decide)]
  rfl

/-- A stream that is added leaves the bytes from `k` on when it is zero there. -/
theorem drop_mapIdx_xor_eq_iff (body : List UInt8) (f : ℕ → UInt8) (k : ℕ) :
    (body.mapIdx fun i b => b ^^^ f i).drop k = body.drop k ↔
      ∀ i, k ≤ i → i < body.length → f i = 0 := by
  constructor
  · intro heq i hki hi
    have hbyte := congrArg (·[i - k]?) heq
    simp only [List.getElem?_drop, List.getElem?_mapIdx, show k + (i - k) = i by omega,
      List.getElem?_eq_getElem hi, Option.map_some, Option.some.injEq] at hbyte
    have hself := congrArg (body[i] ^^^ ·) hbyte
    simpa [← UInt8.xor_assoc] using hself
  · intro hzero
    apply List.ext_getElem
    · simp
    · intro i hi _
      simp only [List.length_drop, List.length_mapIdx] at hi
      simp only [List.getElem_drop, List.getElem_mapIdx, hzero (k + i) (by omega) (by omega),
        UInt8.xor_zero]

/-- **When a packet is opened to itself.** -/
theorem openedPacket_eq_self_iff {packet : List UInt8} (h : 24 ≤ packet.length)
    (name : CommunityName) (ctx ctxIv : SpeckContext) :
    openedPacket packet name ctx ctxIv = packet ↔ SelfOpened packet name ctx := by
  have hname : name.toList.length = 20 := name.2
  have hsplit : packet = packet.take 4 ++ ((packet.drop 4).take 20 ++ (packet.drop 16).drop 8) := by
    rw [List.drop_drop, show 16 + 8 = 4 + 20 from rfl, ← List.drop_drop, List.take_append_drop,
      List.take_append_drop]
  -- the three parts are compared one by one
  have hparts : openedPacket packet name ctx ctxIv = packet ↔
      (List.range 4).map (fun i => packet.getD (20 + i) 0 ^^^ headerStreamByte packet ctx (4 + i)) =
        packet.take 4 ∧ name.toList = (packet.drop 4).take 20 ∧
      ((packet.drop 16).mapIdx fun i b => b ^^^ headerStreamByte packet ctx i).drop 8 =
        (packet.drop 16).drop 8 := by
    rw [openedPacket_eq h]
    constructor
    · intro heq
      obtain ⟨hstart, hrest⟩ := List.append_inj (heq.trans hsplit) (by simp; omega)
      obtain ⟨hmid, hstream⟩ := List.append_inj hrest (by simp; omega)
      exact ⟨hstart, hmid, hstream⟩
    · rintro ⟨hstart, hmid, hstream⟩
      rw [hstart, hmid, hstream]
      exact hsplit.symm
  have hfour : (List.range 4).map
        (fun i => packet.getD (20 + i) 0 ^^^ headerStreamByte packet ctx (4 + i)) = packet.take 4 ↔
      ∀ i, i < 4 →
        packet.getD i 0 = packet.getD (20 + i) 0 ^^^ headerStreamByte packet ctx (4 + i) := by
    constructor
    · intro heq i hi
      have hbyte := congrArg (·.getD i 0) heq
      simpa [hi, eq_comm] using hbyte
    · intro hbytes
      apply List.ext_getElem
      · simp; omega
      · intro i hi _
        simp only [List.length_map, List.length_range] at hi
        have hbyte := hbytes i hi
        rw [List.getD_eq_getElem _ _ (by omega)] at hbyte
        simp only [List.getElem_map, List.getElem_range, List.getElem_take]
        exact hbyte.symm
  rw [hparts, hfour, drop_mapIdx_xor_eq_iff]
  constructor
  · rintro ⟨hstart, hmid, hstream⟩
    refine ⟨hmid.symm, hstart, fun i hi hlen => hstream i hi ?_⟩
    rw [List.length_drop]
    omega
  · rintro ⟨hmid, hstart, hstream⟩
    refine ⟨hstart, hmid.symm, fun i hi hlen => hstream i hi ?_⟩
    rw [List.length_drop] at hlen
    omega

/-- A failed trial leaves the packet unchanged exactly when it is harmless. -/
theorem unchanged_iff_harmless {packet : List UInt8} (h : 24 ≤ packet.length)
    (packetLen : UInt16) (name : CommunityName) (ctx ctxIv : SpeckContext) (stamp : UInt64) :
    ((packetHeaderDecrypt packet packetLen name.toList ctx ctxIv stamp).ok = false →
        (packetHeaderDecrypt packet packetLen name.toList ctx ctxIv stamp).packet = packet) ↔
      HarmlessTrial packet packetLen name ctx ctxIv := by
  have hok := packetHeaderDecrypt_ok_iff packet packetLen name ctx ctxIv stamp
  rw [← Bool.not_eq_true, hok, packetHeaderDecrypt_packet, HarmlessTrial]
  by_cases hlen : (hiddenLength packet ctx).toNat ≤ packetLen.toNat
  · rw [if_pos hlen, openedPacket_eq_self_iff h]
    simp only [hlen, true_and, not_lt.mpr hlen, false_or]
    tauto
  · simp [hlen, not_le.mp hlen]

/-- What a trial that fails harmlessly leaves behind. -/
theorem FailsHarmlessly.decrypt {packet : List UInt8} {packetLen : UInt16} {name : CommunityName}
    {ctx ctxIv : SpeckContext} (hf : FailsHarmlessly packet packetLen name ctx ctxIv)
    (h : 24 ≤ packet.length) (stamp : UInt64) :
    (packetHeaderDecrypt packet packetLen name.toList ctx ctxIv stamp).ok = false ∧
      (packetHeaderDecrypt packet packetLen name.toList ctx ctxIv stamp).packet = packet := by
  have hno : (packetHeaderDecrypt packet packetLen name.toList ctx ctxIv stamp).ok = false := by
    rw [← Bool.not_eq_true, packetHeaderDecrypt_ok_iff]
    rintro ⟨hle, hfits⟩
    rcases hf with hlen | ⟨hbad, -⟩
    · omega
    · exact hbad hfits
  refine ⟨hno, (unchanged_iff_harmless h packetLen name ctx ctxIv stamp).mpr ?_ hno⟩
  exact hf.imp id fun hself => .inr hself.2

/-! ### The loop over the communities -/

/-- What the loop goes on with. The hash is only read after a trial of the static key. -/
def Trial.outcome : Trial → Option Opened
  | .accepted o => some (if o.headerEnc = .byStatic then o else { o with hashBuf := [] })
  | _ => none

/-- Both trials of a community fail without traces, or there are none. -/
def Community.Passes (udpSize : ℕ) (udpBuf : List UInt8) (comm : Community) : Prop :=
  comm.headerEncryption = .none ∨
    ∃ ctx iv ctx' iv', comm.keys = ⟨some ctx', some ctx, some iv', some iv⟩ ∧
      FailsHarmlessly udpBuf (UInt16.ofNat udpSize) comm.community ctx iv ∧
      FailsHarmlessly udpBuf (UInt16.ofNat (udpSize - regSupHashCheckLen)) comm.community ctx' iv'

/-- The hash that is passed in only comes out again where it is not read. -/
theorem decryptTrial_hashBuf (n : ℕ) (comms : List (ℕ × Community)) (udpBuf : List UInt8)
    (stamp : UInt64) (hashBuf hashBuf' : List UInt8) :
    (decryptTrial n comms udpBuf stamp hashBuf').outcome =
      (decryptTrial n comms udpBuf stamp hashBuf).outcome := by
  induction comms with
  | nil => rfl
  | cons e comms ih =>
    obtain ⟨p, comm⟩ := e
    rw [decryptTrial, decryptTrial]
    split_ifs with hnone
    · exact ih
    · split
      · dsimp only
        split_ifs
        · rfl
        · -- the trial of the static key has taken another hash
          rfl
      · rfl

/-- A community that passes is skipped. -/
theorem Community.Passes.decryptTrial {n p : ℕ} {comm : Community} {udpBuf : List UInt8}
    (hpass : comm.Passes n udpBuf) (h : 24 ≤ udpBuf.length) (comms : List (ℕ × Community))
    (stamp : UInt64) (hashBuf : List UInt8) :
    (N2n.decryptTrial n ((p, comm) :: comms) udpBuf stamp hashBuf).outcome =
      (N2n.decryptTrial n comms udpBuf stamp hashBuf).outcome := by
  rw [N2n.decryptTrial]
  split_ifs with hnone
  · rfl
  · obtain ⟨ctx, iv, ctx', iv', hkeys, hdynamic, hstatic⟩ := hpass.resolve_left hnone
    obtain ⟨hno, hpacket⟩ := hdynamic.decrypt h stamp
    rw [hkeys]
    dsimp only
    rw [if_neg (by rw [hno]; decide), hpacket]
    generalize (packetHeaderDecrypt udpBuf (UInt16.ofNat n) comm.community.toList ctx iv
      stamp).stamp = stamp'
    obtain ⟨hno', hpacket'⟩ := hstatic.decrypt h stamp'
    rw [if_neg (by rw [hno']; decide), hpacket', decryptTrial_stamp _ _ _ stamp]
    exact decryptTrial_hashBuf _ _ _ _ _ _

/-- **A failed trial leaves the packet unchanged exactly when it is harmless**: it is stopped by
the length, or the packet is its own decryption. Communities whose trials are such may precede
the right one, or not. -/
theorem failedDecrypt_unchanged_iff {packet : List UInt8} (h : 24 ≤ packet.length) :
    (∀ (packetLen : UInt16) (name : CommunityName) (ctx ctxIv : SpeckContext) (stamp : UInt64),
      ((packetHeaderDecrypt packet packetLen name.toList ctx ctxIv stamp).ok = false →
        (packetHeaderDecrypt packet packetLen name.toList ctx ctxIv stamp).packet = packet) ↔
      HarmlessTrial packet packetLen name ctx ctxIv) ∧
    ∀ (n : ℕ) (before rest : List (ℕ × Community)) (stamp : UInt64) (hashBuf : List UInt8),
      (∀ e ∈ before, e.2.Passes n packet) →
      (decryptTrial n (before ++ rest) packet stamp hashBuf).outcome =
        (decryptTrial n rest packet stamp hashBuf).outcome := by
  refine ⟨fun packetLen name ctx ctxIv stamp =>
    unchanged_iff_harmless h packetLen name ctx ctxIv stamp, ?_⟩
  intro n before rest stamp hashBuf hbefore
  induction before with
  | nil => rfl
  | cons e before ih =>
    obtain ⟨p, comm⟩ := e
    have hpass : comm.Passes n packet := hbefore _ List.mem_cons_self
    rw [List.cons_append, hpass.decryptTrial h]
    exact ih fun e he => hbefore e (List.mem_cons_of_mem _ he)

/-! ### A packet for "work" -/

/-- A community with encrypted headers. -/
def keyedComm (name : CommunityName) : Community :=
  { Community.zero with
    community := name
    headerEncryption := .enabled
    keys := packetHeaderSetupKey name.toList }

theorem length_homeName :
    ([104, 111, 109, 101] ++ List.replicate 16 0 : List UInt8).length = 20 := rfl

/-- The name "home". -/
def homeName : CommunityName := ⟨[104, 111, 109, 101] ++ List.replicate 16 0, length_homeName⟩

/-- The name "work". -/
def workName : CommunityName := ⟨[119, 111, 114, 107] ++ List.replicate 16 0, rfl⟩

/-- A packet of 64 bytes for "work", encrypted with its key. -/
def workPacket (rand : UInt32) : List UInt8 :=
  let p := [3, 2, 0, 3] ++ workName.toList ++ List.replicate 40 7
  match (packetHeaderSetupKey workName.toList).ctxDynamic,
    (packetHeaderSetupKey workName.toList).ivDynamic with
  | some ctx, some iv => packetHeaderEncrypt p 64 64 ctx iv 0x6400000000 rand
  | _, _ => p

/-- The key of "home" is stopped by the length of most such packets. -/
theorem failedDecrypt_unchanged_home :
    24 ≤ (workPacket 573216168).length ∧
      (decryptTrial 64 ([(0, keyedComm homeName)] ++ [(1, keyedComm workName)])
        (workPacket 573216168) 0 []).outcome =
      (decryptTrial 64 [(1, keyedComm workName)] (workPacket 573216168) 0 []).outcome := by
  have hlen : 24 ≤ (workPacket 573216168).length := by decide +kernel
  refine ⟨hlen, (failedDecrypt_unchanged_iff hlen).2 64 _ _ 0 [] ?_⟩
  intro e he
  obtain rfl := List.mem_singleton.mp he
  refine .inr ⟨_, _, _, _, rfl, .inl ?_, .inl ?_⟩ <;> decide +kernel

/-- One packet in some million gets by the length test of "home". The failed trial leaves it
changed, and the community "work" does not recognise it any more when "home" comes first. -/
theorem failedDecrypt_home_changes :
    (∃ ctx ctxIv, (packetHeaderSetupKey homeName.toList).ctxDynamic = some ctx ∧
      (packetHeaderSetupKey homeName.toList).ivDynamic = some ctxIv ∧
      (packetHeaderDecrypt (workPacket 573216167) 64 homeName.toList ctx ctxIv 0).ok = false ∧
      (packetHeaderDecrypt (workPacket 573216167) 64 homeName.toList ctx ctxIv 0).packet ≠
        workPacket 573216167) ∧
      (decryptTrial 64 [(1, keyedComm workName)] (workPacket 573216167) 0 []).outcome.isSome ∧
      (decryptTrial 64 [(0, keyedComm homeName), (1, keyedComm workName)] (workPacket 573216167)
        0 []).outcome = none :=
  ⟨⟨_, _, rfl, rfl, by decide +kernel, by decide +kernel⟩, by decide +kernel, by decide +kernel⟩

end N2n
