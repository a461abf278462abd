import N2nTun.DispatchActs
import N2nTun.Uninitialised.Outcome
import N2nTun.Uninitialised.Stack

/-!
# The list of supernodes in an answer to a registration

The list in a REGISTER_SUPER_ACK is assembled in `payload_buf`.  More supernodes may be counted
than fit into it, and then bytes behind the last entry are sent that have not been set.

## Main definitions

* `payloadEntries` — the entries of some supernodes, one after the other.
* `World.ListOverflows` — more are counted than there are entries.
* `World.RegistrationOverflows` — a REGISTER_SUPER is answered with such a list.

## Main results

* `World.handleRegisterSuper_withStack` — **without this the stack does not matter.**
* `World.handleRegisterSuper_unset` — with it there is a stack that gives another answer.
-/

namespace N2n

open Bytes

/-- A supernode that is put into the list: it has an address, is not the one who asks, and has
been seen lately. -/
def PeerInfo.isListable (peer : PeerInfo) (sender : Sock) (now : ℤ) : Bool :=
  decide ¬(peer.sock.family = afInvalid ∨ peer.sock = sender ∨ now - peer.lastSeen ≥ lastSeenSnNew)

/-- How many entries fit into `payload_buf`. -/
def payloadCapacity : ℕ := regSuperAckPayloadSpace / regSuperAckPayloadEntrySize

/-- The bytes of some entries. -/
def payloadEntries (peers : List PeerInfo) : List UInt8 := peers.flatMap payloadEntry

theorem payloadEntries_cons (peer : PeerInfo) (peers : List PeerInfo) :
    payloadEntries (peer :: peers) = payloadEntry peer ++ payloadEntries peers := List.flatMap_cons

theorem length_payloadEntry (peer : PeerInfo) :
    (payloadEntry peer).length = regSuperAckPayloadEntrySize := by
  have hmac : peer.macAddr.toList.length = 6 := peer.macAddr.2
  have haddr : peer.sock.addr.toList.length = 16 := peer.sock.addr.2
  simp [payloadEntry, encodeSockPayload, encodeUint8, encodeBuf, encodeStart, overwrite,
    Encoded.bytes, hmac, haddr, regSuperAckPayloadEntrySize]

theorem length_payloadEntries (peers : List PeerInfo) :
    (payloadEntries peers).length = peers.length * regSuperAckPayloadEntrySize := by
  induction peers with
  | nil => rfl
  | cons peer peers ih =>
    rw [payloadEntries_cons, List.length_append, ih, length_payloadEntry, List.length_cons]
    ring

/-- The list of supernodes after `num` entries have been written: those that fit are written
one after the other, and what is behind them is left alone. -/
theorem assemblePayload_from (sender : Sock) (now : ℤ) (buf : List UInt8) (peers : List PeerInfo)
    (skip num : ℕ) (done : List UInt8) (hnum : num ≤ payloadCapacity)
    (hdone : done.length = num * regSuperAckPayloadEntrySize) :
    let listed := (peers.drop skip).filter (·.isListable sender now)
    let written := done ++ payloadEntries (listed.take (payloadCapacity - num))
    assemblePayload sender now peers skip num (done ++ buf.drop done.length) =
      (min (payloadCapacity + 1) (num + listed.length), written ++ buf.drop written.length) := by
  induction peers generalizing skip num done with
  | nil => simp [assemblePayload, payloadEntries]; omega
  | cons peer peers ih =>
    cases skip with
    | succ skip => exact ih skip num done hnum hdone
    | zero =>
      rw [assemblePayload, List.drop_zero, List.filter_cons]
      dsimp only
      have hcap : payloadCapacity = 44 := by decide
      have hentry := length_payloadEntry peer
      have hsize : regSuperAckPayloadEntrySize = 26 := rfl
      have hspace : regSuperAckPayloadSpace = 1166 := rfl
      by_cases hskip : peer.sock.family = afInvalid ∨ peer.sock = sender ∨
          now - peer.lastSeen ≥ lastSeenSnNew
      · have hno : peer.isListable sender now = false := decide_eq_false (not_not.mpr hskip)
        rw [if_pos hskip, hno]
        exact ih 0 num done hnum hdone
      have hyes : peer.isListable sender now = true := decide_eq_true hskip
      rw [if_neg hskip, if_pos hyes]
      by_cases hfull : (num + 1) * regSuperAckPayloadEntrySize > regSuperAckPayloadSpace
      · -- the entry is counted, but there is no room for it
        have hlast : num = payloadCapacity := by
          rw [hsize, hspace] at hfull
          omega
        rw [if_pos hfull, hlast, Nat.sub_self, List.take_zero]
        simp [payloadEntries]
      · have hmore : num + 1 ≤ payloadCapacity := by
          rw [hsize, hspace] at hfull
          omega
        have hroom : payloadCapacity - num = (payloadCapacity - (num + 1)) + 1 := by omega
        have hwrite : overwrite (done ++ buf.drop done.length) (num * regSuperAckPayloadEntrySize)
            (payloadEntry peer) =
              (done ++ payloadEntry peer) ++ buf.drop (done ++ payloadEntry peer).length := by
          rw [← hdone, overwrite, List.take_left' rfl, ← List.drop_drop, List.drop_left' rfl,
            List.drop_drop, List.length_append]
        rw [if_neg hfull, hwrite, hroom, List.take_succ_cons]
        have hnext := ih 0 (num + 1) (done ++ payloadEntry peer) hmore
          (by rw [List.length_append, hdone, hentry]; ring)
        rw [List.drop_zero] at hnext
        rw [hnext, payloadEntries_cons, ← List.append_assoc, List.length_cons]
        simp only [Prod.mk.injEq, and_true]
        omega

/-- The supernodes for the list, after some have been skipped. -/
def listedPeers (peers : List PeerInfo) (sender : Sock) (now : ℤ) (skip : ℕ) : List PeerInfo :=
  (peers.drop skip).filter (·.isListable sender now)

/-- **What is sent of `payload_buf`**: the entries of the listed supernodes, and if there are
more than fit, as many bytes as an entry has from where the stack has not been written to. -/
theorem snListBytes_assemble (sender : Sock) (now : ℤ) (peers : List PeerInfo) (skip : ℕ)
    (buf : List UInt8) :
    let listed := listedPeers peers sender now skip
    let list := assemblePayload sender now peers skip 0 buf
    list.1 = min (payloadCapacity + 1) listed.length ∧
      snListBytes (UInt8.ofNat list.1) list.2 =
        payloadEntries (listed.take payloadCapacity) ++
          if payloadCapacity < listed.length then
            slice buf (payloadCapacity * regSuperAckPayloadEntrySize) regSuperAckPayloadEntrySize
          else [] := by
  intro listed list
  have hcap : payloadCapacity = 44 := by decide
  have hlist : list = (min (payloadCapacity + 1) listed.length,
      payloadEntries (listed.take payloadCapacity) ++
        buf.drop (payloadEntries (listed.take payloadCapacity)).length) := by
    have h := assemblePayload_from sender now buf peers skip 0 [] (Nat.zero_le _) rfl
    dsimp only at h
    rw [Nat.zero_add, Nat.sub_zero, List.nil_append, List.nil_append] at h
    exact h
  have hlen := length_payloadEntries (listed.take payloadCapacity)
  rw [List.length_take] at hlen
  refine ⟨by rw [hlist], ?_⟩
  rw [hlist]
  dsimp only
  have hnum : (UInt8.ofNat (min (payloadCapacity + 1) listed.length)).toNat =
      min (payloadCapacity + 1) listed.length := by
    rw [UInt8.toNat_ofNat']
    exact Nat.mod_eq_of_lt (by omega)
  rw [snListBytes, hnum]
  split_ifs with hover
  · have hsome : min payloadCapacity listed.length = payloadCapacity := by omega
    have hmore : min (payloadCapacity + 1) listed.length = payloadCapacity + 1 := by omega
    rw [hsome] at hlen
    rw [hmore, Nat.add_mul, Nat.one_mul, ← hlen, slice_add, slice_left, Nat.zero_add,
      ← Nat.add_zero (payloadEntries (listed.take payloadCapacity)).length, slice_append,
      Nat.add_zero, slice_drop, Nat.add_zero]
  · have hall : min (payloadCapacity + 1) listed.length = min payloadCapacity listed.length := by
      omega
    rw [hall, ← hlen, slice_left, List.append_nil]

namespace World

/-- How many supernodes are skipped before the list. -/
def listSkip (w : World) : ℕ :=
  if (w.sss.edges w.sss.federation).values.length < 1 then 0 else w.env.randSqrs.head

/-- The supernodes that are to be listed in an answer to `rx`. -/
def listed (w : World) (rx : Rx) : List PeerInfo :=
  listedPeers (w.sss.edges w.sss.federation).values rx.sender rx.now w.listSkip

/-- More supernodes are to be listed than there is room for. -/
def ListOverflows (w : World) (rx : Rx) : Prop := payloadCapacity < (w.listed rx).length

instance (w : World) (rx : Rx) : Decidable (w.ListOverflows rx) :=
  inferInstanceAs (Decidable (payloadCapacity < (w.listed rx).length))

theorem supernodeList_list (w : World) (rx : Rx) :
    (w.supernodeList rx).2 = assemblePayload rx.sender rx.now
      (w.sss.edges w.sss.federation).values w.listSkip 0 rx.stack.payloadBuf := by
  unfold supernodeList listSkip
  dsimp only
  split_ifs <;> rfl

/-- The list on another stack: only unset bytes may differ. -/
theorem supernodeList_withStack (w : World) (rx : Rx) (s : Stack) :
    (w.supernodeList (rx.withStack s)).1 = (w.supernodeList rx).1 ∧
      (w.supernodeList (rx.withStack s)).2.1 = (w.supernodeList rx).2.1 := by
  refine ⟨rfl, ?_⟩
  rw [supernodeList_list, supernodeList_list]
  exact (snListBytes_assemble _ _ _ _ s.payloadBuf).1.trans
    (snListBytes_assemble _ _ _ _ rx.stack.payloadBuf).1.symm

/-- What is sent of the list. -/
theorem supernodeList_bytes (w : World) (rx : Rx) :
    snListBytes (UInt8.ofNat (w.supernodeList rx).2.1) (w.supernodeList rx).2.2 =
      payloadEntries ((w.listed rx).take payloadCapacity) ++
        if w.ListOverflows rx then
          slice rx.stack.payloadBuf (payloadCapacity * regSuperAckPayloadEntrySize)
            regSuperAckPayloadEntrySize
        else [] := by
  rw [supernodeList_list]
  exact (snListBytes_assemble _ _ _ _ rx.stack.payloadBuf).2

/-! ### The answer -/

/-- The registration is answered with a REGISTER_SUPER_ACK. -/
def GetsAck (d : Dispatch) (ret : UpdateEdgeRet) : Prop :=
  ret ≠ .authFail ∧
    (d.cmn.flags &&& flagsFromSupernode = 0 ∨ d.cmn.flags &&& flagsSocket = 0)

/-- Only the listed bytes of `payload_buf` have a part in the answer, and only if it is a
REGISTER_SUPER_ACK. -/
theorem finishRegistration_withStack (w : World) (rx : Rx) (d : Dispatch) (comm : ℕ)
    (c : Community) (reg : RegisterSuper) (hash : List UInt8 × Option SnUser)
    (ret : UpdateEdgeRet) (ack : RegisterSuperAck) {buf buf' : List UInt8}
    (h : GetsAck d ret → snListBytes ack.numSn buf' = snListBytes ack.numSn buf) (s : Stack)
    (t : UInt64) :
    w.finishRegistration (rx.withStack s) { d with stamp := t } comm c reg hash ret ack buf' =
      w.finishRegistration rx d comm c reg hash ret ack buf := by
  unfold finishRegistration
  dsimp only
  split_ifs with hfail hflags
  · rfl
  · have hbytes : ∀ keyTime cmn,
        encodeRegisterSuperAck (encodeStart []) cmn { ack with keyTime := keyTime } buf' =
          encodeRegisterSuperAck (encodeStart []) cmn { ack with keyTime := keyTime } buf := by
      intro keyTime cmn
      have hlist : slice buf' 0 (ack.numSn.toNat * regSuperAckPayloadEntrySize) =
          slice buf 0 (ack.numSn.toNat * regSuperAckPayloadEntrySize) := h ⟨hfail, hflags⟩
      simp only [encodeRegisterSuperAck, hlist]
    unfold ackRegistration
    simp only [hbytes]
    rfl
  · rfl

theorem sealHashed_emitted (w : World) (comm : ℕ) (plain : List UInt8) (user : Option SnUser) :
    (w.sealHashed comm plain user).1.emitted = w.emitted := by
  have hstatic : (w.sealStatic comm plain).1.emitted = w.emitted := by
    unfold sealStatic encryptHeader
    dsimp only
    split
    · split_ifs
      · split <;> rfl
      · rfl
    · rfl
  unfold sealHashed
  dsimp only
  split
  · split_ifs <;> exact hstatic
  · exact hstatic

/-- The bytes of a REGISTER_SUPER_ACK: only the list comes from `payload_buf`. -/
theorem registerSuperAck_bytes (cmn : Common) (ack : RegisterSuperAck) :
    ∃ start : List UInt8, ∀ buf, (encodeRegisterSuperAck (encodeStart []) cmn ack buf).bytes =
      cmn.header ++ (start ++ (snListBytes ack.numSn buf ++ bytes32 ack.keyTime)) := by
  refine ⟨bytes32 ack.cookie ++ (ack.srcMac.toList ++ (ack.devAddr.wire ++ (bytes16 ack.lifetime ++
    (ack.sock.wire ++ (ack.auth.wire ++ [ack.numSn]))))), fun buf => ?_⟩
  have hbytes := ((Msg.registerSuperAck ack buf).encode_wrote [] cmn).bytes
  simp only [Msg.body] at hbytes
  simp only [List.append_assoc]
  exact hbytes

/-- **A REGISTER_SUPER_ACK depends on all bytes of its list.** -/
theorem finishRegistration_unset {w : World} {rx : Rx} {d : Dispatch} {comm : ℕ} {c : Community}
    {reg : RegisterSuper} {hash : List UInt8 × Option SnUser} {ret : UpdateEdgeRet}
    (ack : RegisterSuperAck) {buf buf' : List UInt8} (hack : GetsAck d ret)
    (hlist : snListBytes ack.numSn buf' ≠ snListBytes ack.numSn buf) (s : Stack) (t : UInt64) :
    ¬ (w.finishRegistration rx d comm c reg hash ret ack buf).SameOutcome
      (w.finishRegistration (rx.withStack s) { d with stamp := t } comm c reg hash ret ack
        buf') := by
  intro hsame
  have hrun : ∀ (s : Stack) (t : UInt64) (buf : List UInt8),
      w.finishRegistration (rx.withStack s) { d with stamp := t } comm c reg hash ret ack buf =
        w.ackRegistration rx d comm c reg hash.2 ack buf := by
    intro s t buf
    unfold finishRegistration
    rw [if_neg hack.1, if_pos hack.2]
    rfl
  rw [hrun s t buf', show w.finishRegistration rx d comm c reg hash ret ack buf = _ from
    hrun rx.stack d.stamp buf] at hsame
  -- the run up to the answer is the same
  let v := (w.forwardRegistration rx d comm reg hash.2).keyTimeHandling c reg.keyTime
  let cmn := answerCommon d msgTypeRegisterSuperAck (flagsSocket ||| flagsFromSupernode)
  obtain ⟨start, hstart⟩ := registerSuperAck_bytes cmn { ack with keyTime := v.2 }
  have hanswer : ∀ buf, (w.ackRegistration rx d comm c reg hash.2 ack buf).emitted =
      v.1.emitted ++ [⟨.sender, rx.sender, rx.socketFd, (v.1.sealHashed comm (cmn.header ++
        (start ++ (snListBytes ack.numSn buf ++ bytes32 v.2))) hash.2).2⟩] := by
    intro buf
    rw [← hstart, ← sealHashed_emitted v.1 comm _ hash.2, ← replySock_emitted]
    rfl
  have hseal := hsame.answer (hanswer buf) (hanswer buf')
  have hsize : ∀ buf, (snListBytes ack.numSn buf).length =
      ack.numSn.toNat * regSuperAckPayloadEntrySize := fun buf => length_slice _ _ _
  have hrest := v.1.sealHashed_inj comm hash.2
    (by simp only [List.length_append, hsize]) hseal
  exact hlist (List.append_cancel_right (List.append_cancel_left hrest))

/-! ### The registration -/

/-- The stamp of a registration is only noted. -/
theorem updateEdgeAt_withStack (w : World) (rx : Rx) (d : Dispatch) (comm : ℕ) (c : Community)
    (reg : RegisterSuper) (s : Stack) (t : UInt64) :
    ∃ a, w.updateEdgeAt (rx.withStack s) { d with stamp := t } comm c reg =
      (w.updateEdgeAt rx d comm c reg).map (noting a) id := by
  refine ⟨(w.updateEdgeAt (rx.withStack s) { d with stamp := t } comm c reg).1.accepted, ?_⟩
  have hcall : w.callUpdateEdge (rx.withStack s) { d with stamp := t } c reg =
      w.callUpdateEdge rx d c reg := rfl
  unfold updateEdgeAt
  dsimp only
  rw [hcall]
  generalize w.callUpdateEdge rx d c reg = r
  have hskip : skipAddFor { d with stamp := t } reg = skipAddFor d reg := rfl
  rw [hskip]
  generalize (if r.ret = .newSn ∧ skipAddFor d reg = .add then w.timeStamp.1 else w) = v
  split_ifs <;> rfl

/-- The REGISTER_SUPER_ACK that answers a registration has more supernodes to list than there is
room for. -/
def AckOverflows (w : World) (rx : Rx) (d : Dispatch) (comm : ℕ) (reg : RegisterSuper) : Prop :=
  ∃ c hash, w.sss.communities.get? comm = some c ∧ checkHash c d reg = some hash ∧
    reg.edgeMac ≠ w.sss.macAddr ∧
    let w : World := { w with sss := (w.sss.autoAddress comm reg rx.stack.success).1 }
    if c.isFederation then (w.registerSn rx reg).ListOverflows rx ∧ GetsAck d .noChange
    else w.ListOverflows rx ∧ ∃ c', w.sss.communities.get? comm = some c' ∧
      GetsAck d ((w.supernodeList rx).1.callUpdateEdge rx d c' reg).ret

/-- A list that fits is the same on every stack. -/
theorem snListBytes_withStack {w : World} {r : Rx} (h : ¬ w.ListOverflows r) (s : Stack) :
    snListBytes (UInt8.ofNat (w.supernodeList r).2.1) (w.supernodeList (r.withStack s)).2.2 =
      snListBytes (UInt8.ofNat (w.supernodeList r).2.1) (w.supernodeList r).2.2 := by
  have hbytes := w.supernodeList_bytes (r.withStack s)
  rw [(w.supernodeList_withStack r s).2, if_neg (show ¬ w.ListOverflows (r.withStack s) from h)]
    at hbytes
  rw [hbytes, supernodeList_bytes, if_neg h]
  rfl

/-- A stack with other bytes in `payload_buf`. -/
def Stack.refilled (s : Stack) : Stack :=
  { s with
    payloadBuf := List.replicate (payloadCapacity * regSuperAckPayloadEntrySize + 1)
      (s.payloadBuf.getD (payloadCapacity * regSuperAckPayloadEntrySize) 0 + 1) }

/-- A list that does not fit shows what is on the stack. -/
theorem snListBytes_refilled {w : World} {rx : Rx} (h : w.ListOverflows rx) :
    snListBytes (UInt8.ofNat (w.supernodeList rx).2.1)
        (w.supernodeList (rx.withStack (Stack.refilled rx.stack))).2.2 ≠
      snListBytes (UInt8.ofNat (w.supernodeList rx).2.1) (w.supernodeList rx).2.2 := by
  intro heq
  have hbytes := w.supernodeList_bytes (rx.withStack (Stack.refilled rx.stack))
  rw [(w.supernodeList_withStack rx (Stack.refilled rx.stack)).2,
    if_pos (show w.ListOverflows (rx.withStack (Stack.refilled rx.stack)) from h)] at hbytes
  rw [hbytes, supernodeList_bytes, if_pos h] at heq
  -- the first of the unset bytes
  have hhead := congrArg (·.getD 0 0) (List.append_cancel_left heq)
  have hfirst : ∀ (b : List UInt8) (i n : ℕ), 0 < n → (slice b i n).getD 0 0 = b.getD i 0 := by
    intro b i n hn
    obtain ⟨n, rfl⟩ := Nat.exists_eq_succ_of_ne_zero hn.ne'
    simp [slice, List.range_succ_eq_map]
  rw [hfirst _ _ _ (by decide), hfirst _ _ _ (by decide)] at hhead
  have hfill : (rx.withStack (Stack.refilled rx.stack)).stack.payloadBuf.getD
      (payloadCapacity * regSuperAckPayloadEntrySize) 0 =
        rx.stack.payloadBuf.getD (payloadCapacity * regSuperAckPayloadEntrySize) 0 + 1 := by
    show (List.replicate _ _).getD _ _ = _
    rw [List.getD_replicate]
    exact Nat.lt_succ_self _
  have hne : ∀ u : UInt8, u + 1 ≠ u := fun u => by grind
  exact hne _ (hfill.symm.trans hhead)

theorem registerSupernode_withStack {w : World} {rx : Rx} {d : Dispatch} {comm : ℕ}
    {c : Community} {reg : RegisterSuper} {hash : List UInt8 × Option SnUser} {addr : IpSubnet}
    (hno : ¬ ((w.registerSn rx reg).ListOverflows rx ∧ GetsAck d .noChange)) (s : Stack)
    (t : UInt64) :
    w.registerSupernode (rx.withStack s) { d with stamp := t } comm c reg hash addr =
      w.registerSupernode rx d comm c reg hash addr := by
  have hsn : w.registerSn (rx.withStack s) reg = w.registerSn rx reg := rfl
  unfold registerSupernode
  rw [hsn]
  dsimp only
  generalize w.registerSn rx reg = v at hno
  have hlist := fun h => snListBytes_withStack (w := v) (r := rx) h s
  obtain ⟨hworld, hnum⟩ := v.supernodeList_withStack rx s
  revert hlist hworld hnum
  generalize v.supernodeList (rx.withStack s) = l'
  generalize v.supernodeList rx = l
  intro hlist hworld hnum
  obtain ⟨w₁, num, buf⟩ := l
  obtain ⟨w₁', num', buf'⟩ := l'
  obtain rfl : w₁' = w₁ := hworld
  obtain rfl : num' = num := hnum
  dsimp only at hlist ⊢
  exact finishRegistration_withStack w₁' rx d comm c reg hash .noChange
    (w₁'.ackOf rx reg addr num') (fun hack => hlist fun hover => hno ⟨hover, hack⟩) s t

theorem registerEdge_withStack {w : World} {rx : Rx} {d : Dispatch} {comm : ℕ}
    {c : Community} {reg : RegisterSuper} {hash : List UInt8 × Option SnUser} {addr : IpSubnet}
    (hno : ¬ (w.ListOverflows rx ∧ ∃ c', w.sss.communities.get? comm = some c' ∧
      GetsAck d ((w.supernodeList rx).1.callUpdateEdge rx d c' reg).ret)) (s : Stack)
    (t : UInt64) :
    ∃ a, w.registerEdge (rx.withStack s) { d with stamp := t } comm c reg hash addr =
      (w.registerEdge rx d comm c reg hash addr).noting a := by
  have hsss := w.supernodeList_sss rx
  have hlist := fun h => snListBytes_withStack (w := w) (r := rx) h s
  obtain ⟨hworld, hnum⟩ := w.supernodeList_withStack rx s
  unfold registerEdge
  revert hlist hworld hnum hsss hno
  generalize w.supernodeList (rx.withStack s) = l'
  generalize w.supernodeList rx = l
  intro hno hsss hlist hworld hnum
  obtain ⟨w₁, num, buf⟩ := l
  obtain ⟨w₁', num', buf'⟩ := l'
  obtain rfl : w₁' = w₁ := hworld
  obtain rfl : num' = num := hnum
  dsimp only at hno hsss ⊢
  rw [hsss]
  cases hget : w.sss.communities.get? comm with
  | none => exact ⟨w₁'.accepted, rfl⟩
  | some c' =>
    obtain ⟨a, ha⟩ := w₁'.updateEdgeAt_withStack rx d comm c' reg s t
    have hret : (w₁'.updateEdgeAt rx d comm c' reg).2.1 =
        (w₁'.callUpdateEdge rx d c' reg).ret := rfl
    refine ⟨a, ?_⟩
    dsimp only
    rw [ha]
    generalize w₁'.updateEdgeAt rx d comm c' reg = u at hret ⊢
    obtain ⟨w₂, ret, answer⟩ := u
    obtain rfl : ret = _ := hret
    dsimp only [Prod.map, id] at hlist ⊢
    rw [← noting_finishRegistration]
    exact finishRegistration_withStack (w₂.noting a) rx d comm c reg hash _
      { w₁'.ackOf rx reg addr num' with auth := answer }
      (fun hack => hlist fun hover => hno ⟨hover, c', hget, hack⟩) s t

/-- The list is seen in the answer to a supernode. -/
theorem registerSupernode_unset {w : World} {rx : Rx} {d : Dispatch} {comm : ℕ}
    {c : Community} {reg : RegisterSuper} {hash : List UInt8 × Option SnUser} {addr : IpSubnet}
    (hover : (w.registerSn rx reg).ListOverflows rx) (hack : GetsAck d .noChange) (t : UInt64) :
    ¬ (w.registerSupernode rx d comm c reg hash addr).SameOutcome
      (w.registerSupernode (rx.withStack (Stack.refilled rx.stack)) { d with stamp := t } comm c
        reg hash addr) := by
  have hsn : w.registerSn (rx.withStack (Stack.refilled rx.stack)) reg = w.registerSn rx reg := rfl
  unfold registerSupernode
  rw [hsn]
  dsimp only
  generalize w.registerSn rx reg = v at hover
  have hlist := snListBytes_refilled hover
  obtain ⟨hworld, hnum⟩ := v.supernodeList_withStack rx (Stack.refilled rx.stack)
  revert hlist hworld hnum
  generalize v.supernodeList (rx.withStack (Stack.refilled rx.stack)) = l'
  generalize v.supernodeList rx = l
  intro hlist hworld hnum
  obtain ⟨w₁, num, buf⟩ := l
  obtain ⟨w₁', num', buf'⟩ := l'
  obtain rfl : w₁' = w₁ := hworld
  obtain rfl : num' = num := hnum
  dsimp only at hlist ⊢
  exact finishRegistration_unset (w₁'.ackOf rx reg addr num') hack hlist
    (Stack.refilled rx.stack) t

/-- The list is seen in the answer to an edge. -/
theorem registerEdge_unset {w : World} {rx : Rx} {d : Dispatch} {comm : ℕ}
    {c c' : Community} {reg : RegisterSuper} {hash : List UInt8 × Option SnUser} {addr : IpSubnet}
    (hover : w.ListOverflows rx) (hget : w.sss.communities.get? comm = some c')
    (hack : GetsAck d ((w.supernodeList rx).1.callUpdateEdge rx d c' reg).ret) (t : UInt64) :
    ¬ (w.registerEdge rx d comm c reg hash addr).SameOutcome
      (w.registerEdge (rx.withStack (Stack.refilled rx.stack)) { d with stamp := t } comm c
        reg hash addr) := by
  have hsss := w.supernodeList_sss rx
  have hlist := snListBytes_refilled hover
  obtain ⟨hworld, hnum⟩ := w.supernodeList_withStack rx (Stack.refilled rx.stack)
  unfold registerEdge
  revert hlist hworld hnum hsss hack
  generalize w.supernodeList (rx.withStack (Stack.refilled rx.stack)) = l'
  generalize w.supernodeList rx = l
  intro hack hsss hlist hworld hnum
  obtain ⟨w₁, num, buf⟩ := l
  obtain ⟨w₁', num', buf'⟩ := l'
  obtain rfl : w₁' = w₁ := hworld
  obtain rfl : num' = num := hnum
  dsimp only at hack hsss hlist ⊢
  rw [hsss, hget]
  obtain ⟨a, ha⟩ := w₁'.updateEdgeAt_withStack rx d comm c' reg (Stack.refilled rx.stack) t
  have hret : (w₁'.updateEdgeAt rx d comm c' reg).2.1 =
      (w₁'.callUpdateEdge rx d c' reg).ret := rfl
  dsimp only
  rw [ha]
  generalize w₁'.updateEdgeAt rx d comm c' reg = u at hret ⊢
  obtain ⟨w₂, ret, answer⟩ := u
  obtain rfl : ret = _ := hret
  dsimp only [Prod.map, id] at hlist ⊢
  rw [noting_finishRegistration]
  intro hsame
  exact finishRegistration_unset { w₁'.ackOf rx reg addr num' with auth := answer } hack hlist
    (Stack.refilled rx.stack) t ⟨hsame.sss, hsame.emitted, hsame.written⟩

theorem acceptRegistration_withStack {w : World} {rx : Rx} {d : Dispatch} {comm : ℕ}
    {reg : RegisterSuper} (hno : ¬ w.AckOverflows rx d comm reg) {s : Stack}
    (hs : s.success = rx.stack.success) (t : UInt64) :
    ∃ a, w.acceptRegistration (rx.withStack s) { d with stamp := t } comm reg =
      (w.acceptRegistration rx d comm reg).noting a := by
  have hhash : ∀ c, checkHash c { d with stamp := t } reg = checkHash c d reg := fun _ => rfl
  have hsuccess : (rx.withStack s).stack.success = rx.stack.success := hs
  unfold acceptRegistration
  cases hget : w.sss.communities.get? comm with
  | none => exact ⟨w.accepted, rfl⟩
  | some c =>
    dsimp only
    rw [hhash]
    cases hcheck : checkHash c d reg with
    | none => exact ⟨w.accepted, rfl⟩
    | some hash =>
      dsimp only
      by_cases hmac : reg.edgeMac = w.sss.macAddr
      · rw [if_pos hmac, if_pos hmac]
        exact ⟨w.accepted, rfl⟩
      rw [if_neg hmac, if_neg hmac, hsuccess]
      have hover := fun h => hno ⟨c, hash, hget, hcheck, hmac, h⟩
      dsimp only at hover
      by_cases hfed : c.isFederation = true
      · rw [if_pos hfed, if_pos hfed]
        rw [if_pos hfed] at hover
        exact ⟨_, registerSupernode_withStack hover s t⟩
      · rw [if_neg hfed, if_neg hfed]
        rw [if_neg hfed] at hover
        exact registerEdge_withStack hover s t

theorem acceptRegistration_unset {w : World} {rx : Rx} {d : Dispatch} {comm : ℕ}
    {reg : RegisterSuper} (h : w.AckOverflows rx d comm reg) (t : UInt64) :
    ¬ (w.acceptRegistration rx d comm reg).SameOutcome
      (w.acceptRegistration (rx.withStack (Stack.refilled rx.stack)) { d with stamp := t } comm
        reg) := by
  obtain ⟨c, hash, hget, hcheck, hmac, hover⟩ := h
  have hcheck' : checkHash c { d with stamp := t } reg = some hash := hcheck
  unfold acceptRegistration
  rw [hget]
  dsimp only at hover ⊢
  rw [hcheck, hcheck']
  dsimp only
  rw [if_neg hmac, if_neg hmac]
  by_cases hfed : c.isFederation = true
  · rw [if_pos hfed] at hover
    rw [if_pos hfed, if_pos hfed]
    exact registerSupernode_unset hover.1 hover.2 t
  · rw [if_neg hfed] at hover
    obtain ⟨hlist, c', hget', hack⟩ := hover
    rw [if_neg hfed, if_neg hfed]
    exact registerEdge_unset hlist hget' hack t

/-- The check of the stamp of a REGISTER_SUPER. -/
def checkedRegistration (w : World) (d : Dispatch) : World × Bool :=
  match d.comm with
  | some comm => w.checkFresh comm d (decodeRegisterSuper d.cmn d.udpBuf d.cur).out.edgeMac
  | none => (w, true)

theorem checkedRegistration_restamp {w : World} {d : Dispatch} {t : UInt64}
    (ht : t = d.stamp ∨ w.IsPlain d) :
    w.checkedRegistration { d with stamp := t } = w.checkedRegistration d := by
  unfold checkedRegistration
  dsimp only
  cases hcomm : d.comm with
  | none => rfl
  | some comm => exact checkFresh_restamp (ht.imp_right fun h => h comm hcomm) _

/-- A REGISTER_SUPER is answered with a list that does not fit. -/
def RegistrationOverflows (w : World) (rx : Rx) (d : Dispatch) : Prop :=
  (w.checkedRegistration d).2 = true ∧ ∃ comm,
    ((w.checkedRegistration d).1.sss.provideCommunity d).2 = some comm ∧
      AckOverflows { (w.checkedRegistration d).1 with
          sss := ((w.checkedRegistration d).1.sss.provideCommunity d).1 }
        rx d comm (decodeRegisterSuper d.cmn d.udpBuf d.cur).out

/-- `handleRegisterSuper`, with its check apart. -/
theorem handleRegisterSuper_eq {w : World} {d : Dispatch} {t : UInt64}
    (ht : t = d.stamp ∨ w.IsPlain d) (rx : Rx) :
    w.handleRegisterSuper rx { d with stamp := t } =
      afterCheck (w.checkedRegistration d) fun w =>
        match w.sss.provideCommunity d with
        | (_, none) => w
        | (sss, some comm) => acceptRegistration { w with sss := sss } rx { d with stamp := t } comm
          (decodeRegisterSuper d.cmn d.udpBuf d.cur).out := by
  rw [← checkedRegistration_restamp ht]
  rfl

theorem handleRegisterSuper_withStack {w : World} {rx : Rx} {d : Dispatch} {t : UInt64}
    (ht : t = d.stamp ∨ w.IsPlain d) (hno : ¬ w.RegistrationOverflows rx d) {s : Stack}
    (hs : s.success = rx.stack.success) :
    ∃ a, w.handleRegisterSuper (rx.withStack s) { d with stamp := t } =
      (w.handleRegisterSuper rx d).noting a := by
  have hrx := handleRegisterSuper_eq (w := w) (d := d) (Or.inl rfl) rx
  rw [handleRegisterSuper_eq ht, show w.handleRegisterSuper rx d = _ from hrx]
  unfold afterCheck
  by_cases hcheck : (w.checkedRegistration d).2 = true
  swap
  · rw [if_neg hcheck, if_neg hcheck]
    exact ⟨(w.checkedRegistration d).1.accepted, rfl⟩
  rw [if_pos hcheck, if_pos hcheck]
  dsimp only
  have hover := fun comm h h' => hno ⟨hcheck, comm, h, h'⟩
  generalize (w.checkedRegistration d).1 = v at hover
  generalize v.sss.provideCommunity d = r at hover
  obtain ⟨sss, comm⟩ := r
  cases comm with
  | none => exact ⟨v.accepted, rfl⟩
  | some comm => exact acceptRegistration_withStack (hover comm rfl) hs t

theorem handleRegisterSuper_unset {w : World} {rx : Rx} {d : Dispatch} {t : UInt64}
    (ht : t = d.stamp ∨ w.IsPlain d) (h : w.RegistrationOverflows rx d) :
    ¬ (w.handleRegisterSuper rx d).SameOutcome
      (w.handleRegisterSuper (rx.withStack (Stack.refilled rx.stack)) { d with stamp := t }) := by
  have hrx := handleRegisterSuper_eq (w := w) (d := d) (Or.inl rfl) rx
  rw [handleRegisterSuper_eq ht, show w.handleRegisterSuper rx d = _ from hrx]
  obtain ⟨hcheck, comm, hcomm, hover⟩ := h
  unfold afterCheck
  rw [if_pos hcheck, if_pos hcheck]
  dsimp only
  revert hcomm hover
  generalize (w.checkedRegistration d).1 = v
  generalize v.sss.provideCommunity d = r
  obtain ⟨sss, comm'⟩ := r
  intro hcomm hover
  obtain rfl : comm' = some comm := hcomm
  exact acceptRegistration_unset hover t

end World

end N2n
