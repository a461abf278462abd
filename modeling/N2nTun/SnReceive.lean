import N2nTun.SnState
import N2nTun.Wire

/-!
# The first stage of the supernode's `process_udp`

A datagram is taken for one with a plain header or is tried with the keys of every
community that may use encrypted headers.  What it shows locks a community to plain or to
encrypted headers.  Then the common part is decoded, and the key, the sender and the TTL
are checked before the message is dispatched on its type.

## Main definitions

* `Rx` — the arguments of `process_udp` and what its automatic variables hold at first.
* `decryptTrial` — the loop over the communities.
* `Sn.openHeader` — the plain or decrypted packet and its community.
* `Sn.toDispatch` — the checks before the dispatch.
-/

namespace N2n

open Bytes

/-- What the automatic variables of `process_udp` hold that are not set before they are
used. -/
structure Stack where
  stamp : UInt64
  success : Bool
  payloadBuf : List UInt8
  decTmpbuf : List UInt8
  payloadSock : Sock
  pi : PeerInfoMsg

/-- The arguments of `process_udp`, and its stack. -/
structure Rx where
  sender : Sock
  socketFd : ℤ
  udpBuf : List UInt8
  now : ℤ
  stack : Stack

/-! ### Header encryption -/

/-- How the header was encrypted: `header_enc`. -/
inductive HeaderEnc where
  | plain
  | byStatic
  | byDynamic
  deriving DecidableEq

/-- The packet after the header has been dealt with: its community, how it was encrypted,
the buffer, the stamp and `hash_buf`. -/
structure Opened where
  comm : Option ℕ
  headerEnc : HeaderEnc
  udpBuf : List UInt8
  stamp : UInt64
  hashBuf : List UInt8
  deriving DecidableEq

/-- How the trials end: some context was `NULL`, no community fits, or one does. -/
inductive Trial where
  | nullContext
  | noMatch
  | accepted (o : Opened)
  deriving DecidableEq

/-- The loop of `process_udp` over the communities.  A failed trial leaves its traces in
the buffer and in the stamp. -/
def decryptTrial (udpSize : ℕ) :
    List (ℕ × Community) → List UInt8 → UInt64 → List UInt8 → Trial
  | [], _, _, _ => .noMatch
  | (p, comm) :: rest, udpBuf, stamp, hashBuf =>
    if comm.headerEncryption = .none then decryptTrial udpSize rest udpBuf stamp hashBuf
    else
      match comm.keys.ctxDynamic, comm.keys.ivDynamic with
      | some ctx, some iv =>
        let d := packetHeaderDecrypt udpBuf (UInt16.ofNat udpSize) comm.community.toList ctx iv
          stamp
        if d.ok then .accepted ⟨some p, .byDynamic, d.packet, d.stamp, hashBuf⟩
        else
          match comm.keys.ctxStatic, comm.keys.ivStatic with
          | some ctx, some iv =>
            let size := udpSize - regSupHashCheckLen
            let hashBuf := pearsonHash128 (slice d.packet 0 size)
            let d := packetHeaderDecrypt d.packet (UInt16.ofNat size) comm.community.toList ctx iv
              d.stamp
            if d.ok then .accepted ⟨some p, .byStatic, d.packet, d.stamp, hashBuf⟩
            else decryptTrial udpSize rest d.packet d.stamp hashBuf
          | _, _ => .nullContext
      | _, _ => .nullContext

/-- The packet `o` was accepted by `packet_header_decrypt` under a key of the community `comm`,
which has left it and its stamp; `udpBuf` is what the trials before this one have left of the
received packet. -/
inductive AcceptedBy (udpSize : ℕ) (comm : Community) (o : Opened) : Prop
  | byDynamic (ctx iv : SpeckContext) (udpBuf : List UInt8) (stamp : UInt64)
      (hctx : comm.keys.ctxDynamic = some ctx) (hiv : comm.keys.ivDynamic = some iv)
      (hd : packetHeaderDecrypt udpBuf (UInt16.ofNat udpSize) comm.community.toList ctx iv stamp =
        ⟨true, o.udpBuf, o.stamp⟩)
      (henc : o.headerEnc = .byDynamic)
  | byStatic (ctx iv : SpeckContext) (udpBuf : List UInt8) (stamp : UInt64)
      (hctx : comm.keys.ctxStatic = some ctx) (hiv : comm.keys.ivStatic = some iv)
      (hd : packetHeaderDecrypt udpBuf (UInt16.ofNat (udpSize - regSupHashCheckLen))
        comm.community.toList ctx iv stamp = ⟨true, o.udpBuf, o.stamp⟩)
      (henc : o.headerEnc = .byStatic)

/-- What the loop accepts was decrypted with a key of the community it is taken to be of, which
is not locked to plain headers. -/
theorem decryptTrial_accepted {udpSize : ℕ} {comms : List (ℕ × Community)} {udpBuf : List UInt8}
    {stamp : UInt64} {hashBuf : List UInt8} {o : Opened}
    (h : decryptTrial udpSize comms udpBuf stamp hashBuf = .accepted o) :
    ∃ e ∈ comms, o.comm = some e.1 ∧ e.2.headerEncryption ≠ .none ∧ AcceptedBy udpSize e.2 o := by
  induction comms generalizing udpBuf stamp hashBuf with
  | nil => exact absurd h (by simp [decryptTrial])
  | cons e comms ih =>
    obtain ⟨p, comm⟩ := e
    rw [decryptTrial] at h
    -- the community accepts the packet, or the loop goes on
    have hrest : ∀ {udpBuf stamp hashBuf},
        decryptTrial udpSize comms udpBuf stamp hashBuf = .accepted o →
        ∃ e ∈ (p, comm) :: comms, o.comm = some e.1 ∧ e.2.headerEncryption ≠ .none ∧
          AcceptedBy udpSize e.2 o := by
      intro udpBuf stamp hashBuf h
      obtain ⟨e, he, hacc⟩ := ih h
      exact ⟨e, List.mem_cons_of_mem _ he, hacc⟩
    split_ifs at h with hnone
    · exact hrest h
    · split at h
      · rename_i ctx iv hctx hiv
        dsimp only at h
        split_ifs at h with hd
        · cases h
          exact ⟨_, List.mem_cons_self, rfl, hnone, .byDynamic ctx iv udpBuf stamp hctx hiv
            (HeaderDecrypt.ext_ok hd) rfl⟩
        · split at h
          · rename_i ctx' iv' hctx' hiv'
            split_ifs at h with hd'
            · cases h
              exact ⟨_, List.mem_cons_self, rfl, hnone, .byStatic ctx' iv' _ _ hctx' hiv'
                (HeaderDecrypt.ext_ok hd') rfl⟩
            · exact hrest h
          · cases h
      · cases h

/-- "Most probably unencrypted". -/
def looksPlain (udpBuf : List UInt8) : Bool :=
  udpBuf.getD 23 0 == 0 && udpBuf.getD 0 0 == pktVersion &&
    (be16At udpBuf 2 &&& flagsTypeMask) ≤ msgTypeMaxType

/-- A community is locked to plain headers. -/
def Community.lockPlain (comm : Community) : Community :=
  { comm with
    headerEncryption := .none
    keys := { comm.keys with ctxStatic := none, ctxDynamic := none } }

/-- A packet was decrypted for the community. -/
def Community.countEncrypted (comm : Community) : Community :=
  { comm with
    headerEncryption :=
      if comm.headerEncryption = .unknown then .enabled else comm.headerEncryption
    numberEncPackets := comm.numberEncPackets + 1 }

/-- `process_udp` up to the decoding of the common part; `accepted` is the packet it goes
on with. -/
def Sn.openHeader (sss : Sn) (rx : Rx) : Sn × Trial :=
  let hashBuf := List.replicate 16 0
  if rx.udpBuf.length < 24 then (sss, .noMatch)
  else if looksPlain rx.udpBuf then
    match sss.communities.find? (·.hasName (cstr (rx.udpBuf.drop 4))) with
    | none => (sss, .accepted ⟨none, .plain, rx.udpBuf, rx.stack.stamp, hashBuf⟩)
    | some (p, comm) =>
      match comm.headerEncryption with
      | .enabled => (sss, .noMatch)
      | .unknown =>
        (sss.modifyComm p Community.lockPlain,
          .accepted ⟨some p, .plain, rx.udpBuf, rx.stack.stamp, hashBuf⟩)
      | .none => (sss, .accepted ⟨some p, .plain, rx.udpBuf, rx.stack.stamp, hashBuf⟩)
  else
    match decryptTrial rx.udpBuf.length sss.communities.entries rx.udpBuf rx.stack.stamp
        hashBuf with
    | .accepted o =>
      (match o.comm with
        | some p => sss.modifyComm p Community.countEncrypted
        | none => sss, .accepted o)
    | t => (sss, t)

/-! ### Before the dispatch -/

/-- The message types that a user/password community accepts under the static key. -/
def isRegistrationType (pc : UInt8) : Bool :=
  pc == msgTypeRegisterSuper || pc == msgTypeRegisterSuperAck || pc == msgTypeRegisterSuperNak

/-- A message on its way to its handler: the community and the key it came under, the
stamp, the buffers, the common part with the TTL that forwarded copies get, where the
decoding stands, and the entry of the supernode it came from. -/
structure Dispatch where
  comm : Option ℕ
  headerEnc : HeaderEnc
  stamp : UInt64
  udpBuf : List UInt8
  hashBuf : List UInt8
  cmn : Common
  cur : Cursor
  sn : Option ℕ
  deriving DecidableEq

/-- `from_supernode`: the flag itself, not 0 or 1. -/
def Dispatch.fromSupernode (d : Dispatch) : UInt8 := (d.cmn.flags &&& flagsFromSupernode).toUInt8

/-- Whether the message comes from a supernode. -/
def Dispatch.isFromSn (d : Dispatch) : Bool := d.fromSupernode != 0

/-- The common part of a message after `memset`. -/
def Common.zero : Common := ⟨0, 0, 0, List.Vector.replicate 20 0⟩

/-- The entry of the federation with a socket, all bytes of which are compared. -/
def Sn.snBySock (sss : Sn) (sock : Sock) : Option (ℕ × PeerInfo) :=
  (sss.edges sss.federation).first? (·.sock == sock)

/-- `process_udp` from the decoding of the common part up to the dispatch. -/
def Sn.toDispatch (sss : Sn) (sender : Sock) (o : Opened) : Option Dispatch :=
  let common := decodeCommon Common.zero o.udpBuf ⟨o.udpBuf.length, 0⟩
  if common.ret < 0 then none
  else
    let cmn := common.out
    let users := match o.comm.bind sss.communities.get? with
      | some c => c.hasUsers
      | none => false
    if users && !isRegistrationType cmn.pc && o.headerEnc != .byDynamic then none
    else
      let fromSn := cmn.flags &&& flagsFromSupernode != 0
      let sn := if fromSn then (sss.snBySock sender).map Prod.fst else none
      if fromSn && sn.isNone && cmn.pc != msgTypeRegisterSuper then none
      else if cmn.ttl < 1 then none
      else
        some
          { comm := o.comm
            headerEnc := o.headerEnc
            stamp := o.stamp
            udpBuf := o.udpBuf
            hashBuf := o.hashBuf
            cmn := { cmn with ttl := cmn.ttl - 1 }
            cur := common.cur
            sn := sn }

/-- The common part of a packet. -/
def Opened.common (o : Opened) : Decoded Common :=
  decodeCommon Common.zero o.udpBuf ⟨o.udpBuf.length, 0⟩

/-- What is known of a message that is dispatched. -/
structure Admitted (sss : Sn) (sender : Sock) (o : Opened) (d : Dispatch) : Prop where
  comm : d.comm = o.comm
  headerEnc : d.headerEnc = o.headerEnc
  stamp : d.stamp = o.stamp
  udpBuf : d.udpBuf = o.udpBuf
  hashBuf : d.hashBuf = o.hashBuf
  cur : d.cur = o.common.cur
  decoded : 0 ≤ o.common.ret
  ttl : 1 ≤ o.common.out.ttl
  cmn : d.cmn = { o.common.out with ttl := o.common.out.ttl - 1 }
  sn : ∀ p, d.sn = some p → d.isFromSn = true ∧ (sss.snBySock sender).map Prod.fst = some p
  known : d.isFromSn = true → d.cmn.pc ≠ msgTypeRegisterSuper → d.sn ≠ none
  /-- a user/password community wants the dynamic key -/
  users : ∀ p c, o.comm = some p → sss.communities.get? p = some c → c.hasUsers = true →
    isRegistrationType d.cmn.pc = false → o.headerEnc = .byDynamic

/-- The flag fits into the eight bits of `from_supernode`. -/
theorem isFromSn_eq (d : Dispatch) : d.isFromSn = (d.cmn.flags &&& flagsFromSupernode != 0) := by
  have hsmall : (d.cmn.flags &&& flagsFromSupernode).toNat < 256 := by
    rw [UInt16.toNat_and]
    exact lt_of_le_of_lt Nat.and_le_right (by decide)
  unfold Dispatch.isFromSn Dispatch.fromSupernode
  rw [Bool.eq_iff_iff, bne_iff_ne, bne_iff_ne, ne_eq, ne_eq, not_iff_not, ← UInt8.toNat_inj,
    ← UInt16.toNat_inj, UInt16.toNat_toUInt8, Nat.mod_eq_of_lt hsmall]
  rfl

theorem Sn.toDispatch_eq_some {sss : Sn} {sender : Sock} {o : Opened} {d : Dispatch}
    (h : sss.toDispatch sender o = some d) : Admitted sss sender o d := by
  have hcommon : decodeCommon Common.zero o.udpBuf ⟨o.udpBuf.length, 0⟩ = o.common := rfl
  unfold Sn.toDispatch at h
  dsimp only at h
  rw [hcommon] at h
  generalize hsn : (if (o.common.out.flags &&& flagsFromSupernode != 0) = true then
    (sss.snBySock sender).map Prod.fst else none) = sn at h
  split_ifs at h with hret husers hunknown httl
  obtain rfl := Option.some.inj h
  have hfrom := isFromSn_eq ⟨o.comm, o.headerEnc, o.stamp, o.udpBuf, o.hashBuf,
    { o.common.out with ttl := o.common.out.ttl - 1 }, o.common.cur, sn⟩
  refine ⟨rfl, rfl, rfl, rfl, rfl, rfl, not_lt.mp hret, ?_, rfl, ?_, ?_, ?_⟩
  · exact UInt8.not_lt.mp httl
  · rintro p rfl
    split_ifs at hsn with hflag
    exact ⟨hfrom.trans hflag, hsn⟩
  · intro hflag hpc hnone
    replace hnone : sn = none := hnone
    rw [hfrom] at hflag
    refine hunknown ?_
    rw [hflag, hnone]
    simpa using hpc
  · intro p c hcomm hget hhas htype
    by_contra henc
    refine husers ?_
    rw [hcomm, Option.bind_some, hget]
    dsimp only at htype ⊢
    rw [hhas, htype]
    simpa using henc

end N2n
