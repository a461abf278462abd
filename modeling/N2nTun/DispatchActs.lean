import N2nTun.SnActs
import N2nTun.WireEncode

/-!
# What each message does

Every handler of `process_udp` first checks the time stamp and then goes through a
sequence of acts.  The packets that it sends are described by `RelayOk`.

## Main definitions

* `IsFlagged` — a packet that says that it comes from a supernode.
* `RelayOk` — what the packets sent for a message have in common.
* `Updates` — the call of `update_edge` for a REGISTER_SUPER.
* `Checked` — the state after the check of the time stamp.

## Main results

* `World.dispatch_acts` — **a message is checked, and what follows is a sequence of acts.**
-/

namespace N2n

open Bytes

/-! ### The packets that are sent -/

/-- The packet is meant for an edge of the message's own community. -/
def Dispatch.Own (d : Dispatch) (e : Emission) : Prop :=
  ∃ p, d.comm = some p ∧ e.target = .entry p

/-- The TTL of the copies of a message.  A registration is passed on under a new header; a
PACKET or REGISTER from a supernode is passed on as it is. -/
def Dispatch.copyTtl (d : Dispatch) : UInt8 :=
  if d.cmn.pc = msgTypeRegisterSuper then defaultTtl
  else if (d.cmn.pc = msgTypePacket ∨ d.cmn.pc = msgTypeRegister) ∧ d.isFromSn = true then
    ttlOf d.udpBuf
  else d.cmn.ttl

/-- The packets that are sent for a message, but for what a new key time leads to.  The
federation is at `fed`. -/
structure RelayOk (fed : ℕ) (d : Dispatch) (e : Emission) : Prop where
  /-- what does not go to an edge of the community says that it comes from a supernode -/
  flagged : ¬ d.Own e → IsFlagged e.pkt.plain
  /-- what comes from a supernode goes to edges of the community, or is answered -/
  oneHop : d.isFromSn = true → d.Own e ∨ e.target = .sender
  /-- a registration goes to no edge -/
  registration : d.cmn.pc = msgTypeRegisterSuper → ∀ p, e.target = .entry p → p = fed
  /-- what is no answer is a copy -/
  ttl : e.target ≠ .sender → ttlOf e.pkt.plain = d.copyTtl

section

variable {fed : ℕ} {d : Dispatch} {e : Emission}

/-- A packet to an edge of the message's community. -/
theorem RelayOk.own (h : d.Own e) (hpc : d.cmn.pc ≠ msgTypeRegisterSuper)
    (httl : ttlOf e.pkt.plain = d.copyTtl) : RelayOk fed d e :=
  ⟨fun hno => absurd h hno, fun _ => Or.inl h, fun hreg => absurd hreg hpc, fun _ => httl⟩

/-- An answer. -/
theorem RelayOk.answer (h : e.target = .sender) (hflag : IsFlagged e.pkt.plain) :
    RelayOk fed d e := by
  refine ⟨fun _ => hflag, fun _ => Or.inr h, ?_, fun hne => absurd h hne⟩
  rintro - p hp
  rw [h] at hp
  cases hp

/-- A packet with the flag, for a message without it. -/
theorem RelayOk.relay (h : d.isFromSn = false) (hflag : IsFlagged e.pkt.plain)
    (hpc : d.cmn.pc = msgTypeRegisterSuper → e.target = .entry fed)
    (httl : ttlOf e.pkt.plain = d.copyTtl) : RelayOk fed d e := by
  refine ⟨fun _ => hflag, fun hsn => absurd (h.symm.trans hsn) (by decide), ?_, fun _ => httl⟩
  intro hreg p hp
  rw [hpc hreg] at hp
  cases hp
  rfl

/-- The copies of all other messages have the TTL that was decremented. -/
theorem Dispatch.copyTtl_eq (hreg : d.cmn.pc ≠ msgTypeRegisterSuper)
    (h : d.cmn.pc ≠ msgTypePacket ∧ d.cmn.pc ≠ msgTypeRegister ∨ d.isFromSn = false) :
    d.copyTtl = d.cmn.ttl := by
  rw [Dispatch.copyTtl, if_neg hreg, if_neg]
  rintro ⟨hpc, hsn⟩
  rcases h with ⟨hpacket, hregister⟩ | hno
  · exact hpc.elim hpacket hregister
  · exact absurd (hno.symm.trans hsn) (by decide)

theorem Dispatch.copyTtl_fromSn (h : d.cmn.pc = msgTypePacket ∨ d.cmn.pc = msgTypeRegister)
    (hsn : d.isFromSn = true) : d.copyTtl = ttlOf d.udpBuf := by
  have hreg : d.cmn.pc ≠ msgTypeRegisterSuper := by
    rcases h with h | h <;> rw [h] <;> decide
  rw [Dispatch.copyTtl, if_neg hreg, if_pos ⟨h, hsn⟩]

end

/-! ### Checks and updates -/

/-- The REGISTER_SUPER in a message. -/
def Dispatch.registerSuper (d : Dispatch) : RegisterSuper :=
  (decodeRegisterSuper d.cmn d.udpBuf d.cur).out

/-- The MAC that a message comes from whose time stamp is checked without jitter: a
REGISTER, a REGISTER_SUPER or an UNREGISTER_SUPER. -/
def Dispatch.freshMac (d : Dispatch) : Option Mac :=
  if d.cmn.pc = msgTypeRegisterSuper then some d.registerSuper.edgeMac
  else if d.cmn.pc = msgTypeRegister then some (decodeRegister d.cmn d.udpBuf d.cur).out.srcMac
  else if d.cmn.pc = msgTypeUnregisterSuper then
    some (decodeUnregisterSuper d.udpBuf d.cur).out.srcMac
  else none

/-- The community that a REGISTER_SUPER is for: its own one, or the one it brings up. -/
def Dispatch.target (d : Dispatch) (sss : Sn) : ℕ := d.comm.getD sss.communities.next

/-- The message is one of the federation. -/
def Dispatch.Federated (d : Dispatch) (sss : Sn) : Prop :=
  ∃ p c, d.comm = some p ∧ sss.communities.get? p = some c ∧ c.isFederation = true

/-- The state after the check of the time stamp, if there is one. -/
inductive Checked (w : World) (d : Dispatch) : World → Prop
  | none : Checked w d w
  | stamp (comm : ℕ) (mac : Mac) (jitter : Bool) (hcomm : d.comm = some comm) :
      Checked w d (w.checkStamp comm d mac jitter).1
  | fresh (comm : ℕ) (mac : Mac) (hcomm : d.comm = some comm) (hmac : d.freshMac = some mac) :
      Checked w d (w.checkFresh comm d mac).1

/-- The call of `update_edge` for a registration that arrived at the supernode `sss`.  No
connection has been closed until then. -/
def Updates (sss : Sn) (rx : Rx) (d : Dispatch) (w w' : World) : Prop :=
  ¬ d.Federated sss ∧ ∃ c, w.sss.communities.get? (d.target sss) = some c ∧ c.isFederation = false ∧
    w.sss.tcpConnections = sss.tcpConnections ∧
    w' = (w.updateEdgeAt rx d (d.target sss) c d.registerSuper).1

variable {P : Emission → Prop} {U : World → World → Prop} {fed : ℕ}

/-- A handler goes on if the check succeeds. -/
theorem World.afterCheck_acts {r : World × Bool} {next : World → World}
    (h : Acts P U r.1 (next r.1)) : Acts P U r.1 (World.afterCheck r next) := by
  unfold World.afterCheck
  split_ifs
  · exact h
  · exact .refl _

namespace World

/-! ### PACKET and REGISTER -/

/-- The flag is set, whatever the other flags are. -/
theorem or_flag_ne_zero (flags : UInt16) :
    (flags ||| flagsFromSupernode) &&& flagsFromSupernode ≠ 0 := by
  rw [or_and_flag]
  intro h
  have hbit := congrArg (fun v : UInt16 => v.toBitVec.getLsbD 5) h
  simp [flagsFromSupernode] at hbit

theorem relayFlags_flagged (flags : UInt16) : relayFlags flags &&& flagsFromSupernode ≠ 0 := by
  rw [relayFlags, ← UInt16.or_assoc]
  exact or_flag_ne_zero _

/-- A PACKET that does not come from a supernode is passed on with the flag. -/
theorem packetToForward_seals (w : World) (rx : Rx) (d : Dispatch) (comm : ℕ)
    (m : Decoded Packet) (hpc : d.cmn.pc = msgTypePacket) :
    ∃ plain, Seals w plain (w.packetToForward rx d comm m) ∧
      (d.isFromSn = false → IsFlagged plain) ∧ ttlOf plain = d.copyTtl := by
  unfold packetToForward
  split_ifs with hsn
  · refine ⟨_, sealDynamic_seals w comm d.udpBuf _, ?_, ?_⟩
    · exact fun h => absurd (h.symm.trans hsn) (by decide)
    · exact (Dispatch.copyTtl_fromSn (Or.inl hpc) hsn).symm
  · have hhead := (Msg.packet { m.out with sock := rx.sender }).encodeBuf_hasHeader []
      { d.cmn with flags := relayFlags d.cmn.flags } (d.udpBuf.drop m.cur.idx)
    refine ⟨_, sealDynamic_seals w comm _ _, fun _ => ?_, ?_⟩
    · exact hhead.isFlagged (relayFlags_flagged d.cmn.flags)
    · have hcopy := Dispatch.copyTtl_eq (d := d) (by rw [hpc]; decide)
        (Or.inr (by simpa using hsn))
      exact hhead.ttlOf.trans hcopy.symm

theorem handlePacket_acts (w : World) (rx : Rx) (d : Dispatch) (comm : ℕ)
    (hcomm : d.comm = some comm) (hpc : d.cmn.pc = msgTypePacket)
    (hP : ∀ e, RelayOk fed d e → P e) :
    ∃ w₁, Checked w d w₁ ∧ Acts P U w₁ (w.handlePacket rx d comm) := by
  have hpc' : d.cmn.pc ≠ msgTypeRegisterSuper := by
    rw [hpc]
    decide
  refine ⟨_, .stamp comm (decodePacket d.cmn d.udpBuf d.cur).out.srcMac true hcomm, ?_⟩
  unfold handlePacket
  refine afterCheck_acts ?_
  generalize (w.checkStamp comm d (decodePacket d.cmn d.udpBuf d.cur).out.srcMac true).1 = w₁
  generalize decodePacket d.cmn d.udpBuf d.cur = m
  obtain ⟨plain, hseal, hflag, httl⟩ := packetToForward_seals w₁ rx d comm m hpc
  have hcopy : ∀ e : Emission, e.pkt = (w₁.packetToForward rx d comm m).2 →
      ttlOf e.pkt.plain = d.copyTtl := by
    intro e he
    rw [he, hseal.plain_eq, httl]
  have hrelay : d.isFromSn = false → ∀ e : Emission,
      e.pkt = (w₁.packetToForward rx d comm m).2 → P e := by
    intro hsn e he
    have hplain : IsFlagged e.pkt.plain := by
      rw [he, hseal.plain_eq]
      exact hflag hsn
    exact hP e (.relay hsn hplain (fun h => absurd h hpc') (hcopy e he))
  have hown : ∀ e : Emission, e.target = .entry comm →
      e.pkt = (w₁.packetToForward rx d comm m).2 → P e :=
    fun e he hpkt => hP e (.own ⟨comm, hcomm, he⟩ hpc' (hcopy e hpkt))
  refine (hseal.acts P U).trans ?_
  dsimp only
  split_ifs
  · refine tryBroadcast_acts _ _ _ _ _ _ _ (fun hsn e _ => hrelay hsn e) ?_
    rintro p ⟨⟩
    exact hown
  · exact tryForward_acts _ _ _ _ _ _ _ hrelay hown

theorem handleRegister_acts (w : World) (rx : Rx) (d : Dispatch) (comm : ℕ)
    (hcomm : d.comm = some comm) (hpc : d.cmn.pc = msgTypeRegister)
    (hP : ∀ e, RelayOk fed d e → P e) :
    ∃ w₁, Checked w d w₁ ∧ Acts P U w₁ (w.handleRegister rx d comm) := by
  have hpc' : d.cmn.pc ≠ msgTypeRegisterSuper := by
    rw [hpc]
    decide
  have hmac : d.freshMac = some (decodeRegister d.cmn d.udpBuf d.cur).out.srcMac := by
    rw [Dispatch.freshMac, if_neg hpc', if_pos hpc]
  refine ⟨_, .fresh comm _ hcomm hmac, ?_⟩
  unfold handleRegister
  refine afterCheck_acts ?_
  generalize (w.checkFresh comm d (decodeRegister d.cmn d.udpBuf d.cur).out.srcMac).1 = w₁
  dsimp only
  split_ifs with hmulti hsn
  · exact .refl w₁
  · -- from a supernode: to edges of the community only
    have hseal := sealDynamic_seals w₁ comm d.udpBuf d.udpBuf.length
    refine (hseal.acts P U).trans (tryForward_acts _ _ _ _ _ _ _ ?_ ?_)
    · exact fun h => absurd (hsn.symm.trans h) (by decide)
    · intro e he hpkt
      refine hP e (.own ⟨comm, hcomm, he⟩ hpc' ?_)
      rw [hpkt, hseal.plain_eq, Dispatch.copyTtl_fromSn (Or.inr hpc) hsn]
  · have hhead := (Msg.register { (decodeRegister d.cmn d.udpBuf d.cur).out with
        sock := rx.sender }).encode_hasHeader [] { d.cmn with flags := relayFlags d.cmn.flags }
    dsimp only [Msg.encode] at hhead
    generalize (encodeRegister _ _ _).bytes = plain at hhead
    have hseal := sealDynamic_seals w₁ comm plain plain.length
    have hcopy : ∀ e : Emission, e.pkt = (w₁.sealDynamic comm plain plain.length).2 →
        ttlOf e.pkt.plain = d.copyTtl := by
      intro e he
      rw [he, hseal.plain_eq, hhead.ttlOf, Dispatch.copyTtl_eq hpc' (Or.inr (by simpa using hsn))]
    refine (hseal.acts P U).trans (tryForward_acts _ _ _ _ _ _ _ ?_ ?_)
    · intro hno e he
      have hplain : IsFlagged e.pkt.plain := by
        rw [he, hseal.plain_eq]
        exact hhead.isFlagged (relayFlags_flagged d.cmn.flags)
      exact hP e (.relay hno hplain (fun h => absurd h hpc') (hcopy e he))
    · exact fun e he hpkt => hP e (.own ⟨comm, hcomm, he⟩ hpc' (hcopy e hpkt))

/-! ### UNREGISTER_SUPER and the answers to registrations -/

theorem handleUnregisterSuper_acts (w : World) (d : Dispatch) (comm : ℕ)
    (hcomm : d.comm = some comm) (hpc : d.cmn.pc = msgTypeUnregisterSuper) :
    ∃ w₁, Checked w d w₁ ∧ Acts P U w₁ (w.handleUnregisterSuper d comm) := by
  have hmac : d.freshMac = some (decodeUnregisterSuper d.udpBuf d.cur).out.srcMac := by
    rw [Dispatch.freshMac, hpc]
    rfl
  unfold handleUnregisterSuper
  cases hget : w.sss.communities.get? comm with
  | none => exact ⟨w, .none, .refl w⟩
  | some c =>
    dsimp only
    split_ifs with hdrop
    · exact ⟨w, .none, .refl w⟩
    · refine ⟨_, .fresh comm _ hcomm hmac, afterCheck_acts ?_⟩
      split
      · exact .refl _
      · split_ifs
        · exact dropPeer_acts _ _ _ _
        · exact .refl _

theorem handleRegisterSuperAck_acts (w : World) (rx : Rx) (d : Dispatch) (comm : ℕ)
    (hcomm : d.comm = some comm)
    (hP : d.Federated w.sss → ∀ e : Emission, ttlOf e.pkt.plain = defaultTtl → P e) :
    ∃ w₁, Checked w d w₁ ∧ Acts P U w₁ (w.handleRegisterSuperAck rx d comm) := by
  unfold handleRegisterSuperAck
  cases hget : w.sss.communities.get? comm with
  | none => exact ⟨w, .none, .refl w⟩
  | some c =>
    dsimp only
    split_ifs with hdrop
    · exact ⟨w, .none, .refl w⟩
    · rw [not_or, Bool.not_eq_false] at hdrop
      have hall := hP ⟨comm, c, hcomm, hget, hdrop.2⟩
      refine ⟨_, .stamp comm _ false hcomm, afterCheck_acts ?_⟩
      generalize (w.checkStamp comm d _ false).1 = w₁
      generalize (decodeRegisterSuperAck d.udpBuf d.cur rx.stack.decTmpbuf).out = r
      split
      · rename_i w' s h
        exact addSn_none_acts h
      · rename_i w' p s h
        have hseen : Acts P U w₁ (w'.modifySn p fun e => { e with lastSeen := rx.now }) :=
          addSn_modifySn_acts h (fun e => Or.inr ⟨by decide, rfl⟩) fun _ => ⟨rfl, rfl⟩
        refine hseen.trans ?_
        split
        · exact .refl _
        · split_ifs
          · exact (learnSns_acts _ rx _ _).trans (takeKeyTime_acts _ _ hall)
          · exact .refl _

theorem handleRegisterSuperNak_acts (w : World) (d : Dispatch) (comm : ℕ)
    (hcomm : d.comm = some comm) (hpc : d.cmn.pc = msgTypeRegisterSuperNak)
    (hP : ∀ e, RelayOk fed d e → P e) :
    ∃ w₁, Checked w d w₁ ∧ Acts P U w₁ (w.handleRegisterSuperNak d comm) := by
  refine ⟨_, .stamp comm (decodeRegisterSuperNak d.udpBuf d.cur).out.srcMac false hcomm, ?_⟩
  unfold handleRegisterSuperNak
  refine afterCheck_acts ?_
  generalize (w.checkStamp comm d (decodeRegisterSuperNak d.udpBuf d.cur).out.srcMac false).1 = w₁
  generalize (decodeRegisterSuperNak d.udpBuf d.cur).out = nak
  split
  · exact .refl w₁
  · rename_i c hget
    split
    · rename_i p peer _ hfind
      have hhead := (Msg.registerSuperNak nak).encode_hasHeader [] d.cmn
      have hseal := sealNak_seals w₁ comm
        (encodeRegisterSuperNak (encodeStart []) d.cmn nak).bytes d.hashBuf
      refine (hseal.acts P U).trans ((sendtoPeer_acts _ _ _ _ _ _ ?_ ?_).trans
        (dropPeer_acts _ _ _ _))
      · intro e he hpkt
        refine hP e (.own ⟨comm, hcomm, he⟩ (by rw [hpc]; decide) ?_)
        have hcopy := Dispatch.copyTtl_eq (d := d) (by rw [hpc]; decide)
          (Or.inl ⟨by rw [hpc]; decide, by rw [hpc]; decide⟩)
        rw [hpkt, hcopy]
        exact (congrArg ttlOf hseal.plain_eq).trans hhead.ttlOf
      · rw [hseal.sss_eq, Sn.edges_of_get? hget]
        exact ⟨peer, Table.mem_of_get? (Table.find?_eq_some hfind).1, rfl⟩
    · exact .refl w₁

/-! ### QUERY_PEER and PEER_INFO -/

/-- An answer with the flag. -/
theorem reply_acts {w : World} {plain : List UInt8} {r : World × Pkt} (hseal : Seals w plain r)
    (rx : Rx) (d : Dispatch) (hflag : IsFlagged plain) (hP : ∀ e, RelayOk fed d e → P e) :
    Acts P U w (r.1.replySock rx r.2) := by
  refine (hseal.acts P U).trans (replySock_acts _ rx _ ?_)
  intro e he hpkt
  refine hP e (.answer he ?_)
  rwa [hpkt, hseal.plain_eq]

theorem answerPing_acts (w : World) (rx : Rx) (d : Dispatch) (query : QueryPeer)
    (hP : ∀ e, RelayOk fed d e → P e) : Acts P U w (w.answerPing rx d query) := by
  have hhead := (Msg.peerInfo (w.pong rx query)).encode_hasHeader []
    (answerCommon d msgTypePeerInfo flagsFromSupernode)
  have hflag := hhead.isFlagged (show flagsFromSupernode &&& flagsFromSupernode ≠ 0 by decide)
  exact reply_acts (sealIf_seals w d.comm _) rx d hflag hP

theorem answerQuery_acts (w : World) (rx : Rx) (d : Dispatch) (comm : ℕ) (query : QueryPeer)
    (hpc : d.cmn.pc = msgTypeQueryPeer) (hP : ∀ e, RelayOk fed d e → P e) :
    Acts P U w (w.answerQuery rx d comm query) := by
  unfold answerQuery
  split
  · rename_i p scan hfind
    dsimp only
    have hflags : (if scan.preferredSock.family ≠ afInvalid then flagsFromSupernode ||| flagsSocket
        else flagsFromSupernode) &&& flagsFromSupernode ≠ 0 := by
      split_ifs <;> decide
    generalize (if scan.preferredSock.family ≠ afInvalid then flagsFromSupernode ||| flagsSocket
        else flagsFromSupernode) = flags at hflags
    have hflag := ((Msg.peerInfo (peerAnswer rx query scan)).encode_hasHeader []
      (answerCommon d msgTypePeerInfo flags)).isFlagged hflags
    dsimp only [Msg.encode] at hflag
    generalize (encodePeerInfo _ _ _).bytes = plain at hflag
    exact reply_acts (sealDynamic_seals w comm plain plain.length) rx d hflag hP
  · split_ifs with hsn
    · exact .refl w
    · dsimp only
      have hhead := (Msg.queryPeer query).encode_hasHeader []
        { d.cmn with flags := d.cmn.flags ||| flagsFromSupernode }
      dsimp only [Msg.encode] at hhead
      generalize (encodeQueryPeer _ _ _).bytes = plain at hhead
      have hpc' : d.cmn.pc ≠ msgTypeRegisterSuper := by rw [hpc]; decide
      have hseal := sealDynamic_seals w comm plain plain.length
      refine (hseal.acts P U).trans (tryBroadcast_acts _ _ _ _ _ _ _ ?_ ?_)
      · intro hno e _ he
        have hplain : IsFlagged e.pkt.plain := by
          rw [he, hseal.plain_eq]
          exact hhead.isFlagged (or_flag_ne_zero d.cmn.flags)
        refine hP e (.relay hno hplain (fun h => absurd h hpc') ?_)
        rw [he, hseal.plain_eq, hhead.ttlOf, Dispatch.copyTtl_eq hpc' (Or.inr hno)]
      · rintro p ⟨⟩

theorem handleQueryPeer_acts (w : World) (rx : Rx) (d : Dispatch)
    (hpc : d.cmn.pc = msgTypeQueryPeer) (hP : ∀ e, RelayOk fed d e → P e) :
    ∃ w₁, Checked w d w₁ ∧ Acts P U w₁ (w.handleQueryPeer rx d) := by
  unfold handleQueryPeer
  split_ifs with hlock
  · exact ⟨w, .none, .refl w⟩
  · cases hcomm : d.comm with
    | none =>
      refine ⟨w, .none, afterCheck_acts (r := (w, true)) ?_⟩
      split_ifs
      · exact answerPing_acts w rx d _ hP
      · exact .refl w
    | some comm =>
      refine ⟨_, .stamp comm (decodeQueryPeer d.udpBuf d.cur).out.srcMac true hcomm,
        afterCheck_acts ?_⟩
      split_ifs
      · exact answerPing_acts _ rx d _ hP
      · exact answerQuery_acts _ rx d comm _ hpc hP

theorem handlePeerInfo_acts (w : World) (rx : Rx) (d : Dispatch) (comm : ℕ)
    (hcomm : d.comm = some comm) (hpc : d.cmn.pc = msgTypePeerInfo)
    (hP : ∀ e, RelayOk fed d e → P e) :
    ∃ w₁, Checked w d w₁ ∧ Acts P U w₁ (w.handlePeerInfo rx d comm) := by
  refine ⟨_, .stamp comm (decodePeerInfo d.cmn d.udpBuf d.cur).out.srcMac false hcomm, ?_⟩
  unfold handlePeerInfo
  refine afterCheck_acts ?_
  generalize (w.checkStamp comm d (decodePeerInfo d.cmn d.udpBuf d.cur).out.srcMac false).1 = w₁
  generalize (decodePeerInfo d.cmn d.udpBuf d.cur).out = pi
  split
  · exact .refl w₁
  · rename_i c hget
    split
    · rename_i p peer hfind
      split_ifs
      · exact .refl w₁
      · dsimp only
        refine (updateNodeSupernodeAssociation_acts w₁ comm pi.mac rx.sender rx.now).trans ?_
        have hedges := updateNodeSupernodeAssociation_edges w₁ comm pi.mac rx.sender rx.now comm
        generalize w₁.updateNodeSupernodeAssociation comm pi.mac rx.sender rx.now = v at hedges
        have hhead := (Msg.peerInfo pi).encode_hasHeader [] d.cmn
        have hseal := sealDynamic_seals v comm
          (encodePeerInfo (encodeStart []) d.cmn pi).bytes
          (encodePeerInfo (encodeStart []) d.cmn pi).bytes.length
        refine (hseal.acts P U).trans (sendtoPeer_acts _ _ _ _ _ _ ?_ ?_)
        · intro e he hpkt
          refine hP e (.own ⟨comm, hcomm, he⟩ (by rw [hpc]; decide) ?_)
          rw [hpkt, hseal.plain_eq, Dispatch.copyTtl_eq (by rw [hpc]; decide)
            (Or.inl ⟨by rw [hpc]; decide, by rw [hpc]; decide⟩)]
          exact hhead.ttlOf
        · rw [hseal.sss_eq, hedges, Sn.edges_of_get? hget]
          exact ⟨peer, Table.mem_of_get? (Table.find?_eq_some hfind).1, rfl⟩
    · exact .refl w₁

/-! ### REGISTER_SUPER -/

/-- The flags of the answers to a registration. -/
theorem answerFlags_flagged (d : Dispatch) (pc : UInt8) :
    (answerCommon d pc (flagsSocket ||| flagsFromSupernode)).flags &&& flagsFromSupernode ≠ 0 :=
  show (flagsSocket ||| flagsFromSupernode) &&& flagsFromSupernode ≠ 0 by decide

theorem nakRegistration_acts (w : World) (rx : Rx) (d : Dispatch) (comm : ℕ) (reg : RegisterSuper)
    (hashBuf : List UInt8) (hP : ∀ e, RelayOk fed d e → P e) :
    Acts P U w (w.nakRegistration rx d comm reg hashBuf) := by
  have hflag := ((Msg.registerSuperNak ⟨reg.cookie, reg.edgeMac, Auth.zero⟩).encode_hasHeader []
    _).isFlagged (answerFlags_flagged d msgTypeRegisterSuperNak)
  exact reply_acts (sealNak_seals w comm _ hashBuf) rx d hflag hP

theorem forwardRegistration_acts (w : World) (rx : Rx) (d : Dispatch) (comm : ℕ)
    (reg : RegisterSuper) (user : Option SnUser) (hpc : d.cmn.pc = msgTypeRegisterSuper)
    (hP : ∀ e, RelayOk w.sss.federation d e → P e) :
    Acts P U w (w.forwardRegistration rx d comm reg user) := by
  unfold forwardRegistration
  split_ifs with hnull
  · exact .refl w
  · have hhead := (Msg.registerSuper { reg with sock := rx.sender }).encode_hasHeader []
      (answerCommon d msgTypeRegisterSuper (flagsSocket ||| flagsFromSupernode))
    dsimp only [Msg.encode] at hhead ⊢
    generalize (encodeRegisterSuper _ _ _).bytes = plain at hhead ⊢
    have hseal := sealHashed_seals w comm plain user
    refine (hseal.acts P U).trans (tryBroadcast_acts _ _ _ _ _ _ _ ?_ ?_)
    · intro hsn e he hpkt
      rw [hseal.sss_eq] at he
      have hplain : IsFlagged e.pkt.plain := by
        rw [hpkt, hseal.plain_eq]
        exact hhead.isFlagged (answerFlags_flagged d msgTypeRegisterSuper)
      refine hP e (.relay hsn hplain (fun _ => he) ?_)
      rw [hpkt, hseal.plain_eq, hhead.ttlOf, Dispatch.copyTtl, if_pos hpc]
      rfl
    · rintro p ⟨⟩

theorem keyTimeHandling_acts (w : World) (c : Community) (keyTime : UInt32)
    (hfed : c.isFederation = true → ∀ e : Emission, ttlOf e.pkt.plain = defaultTtl → P e) :
    Acts P U w (w.keyTimeHandling c keyTime).1 := by
  unfold keyTimeHandling
  split_ifs with hc
  · exact takeKeyTime_acts w keyTime (hfed hc)
  · exact .refl w

theorem ackRegistration_acts (w : World) (rx : Rx) (d : Dispatch) (comm : ℕ) (c : Community)
    (reg : RegisterSuper) (user : Option SnUser) (ack : RegisterSuperAck)
    (payloadBuf : List UInt8) (hpc : d.cmn.pc = msgTypeRegisterSuper)
    (hP : ∀ e, RelayOk w.sss.federation d e → P e)
    (hfed : c.isFederation = true → ∀ e : Emission, ttlOf e.pkt.plain = defaultTtl → P e) :
    Acts P U w (w.ackRegistration rx d comm c reg user ack payloadBuf) := by
  unfold ackRegistration
  dsimp only
  refine (forwardRegistration_acts w rx d comm reg user hpc hP).trans ?_
  refine (keyTimeHandling_acts _ c reg.keyTime hfed).trans ?_
  have hflag := ((Msg.registerSuperAck { ack with
      keyTime := ((w.forwardRegistration rx d comm reg user).keyTimeHandling c reg.keyTime).2 }
    payloadBuf).encode_hasHeader [] _).isFlagged (answerFlags_flagged d msgTypeRegisterSuperAck)
  exact reply_acts (sealHashed_seals _ comm _ user) rx d hflag hP

theorem associateEdge_acts (w : World) (rx : Rx) (comm : ℕ) (reg : RegisterSuper) :
    Acts P U w (w.associateEdge rx comm reg) := by
  unfold associateEdge
  dsimp only
  refine (updateNodeSupernodeAssociation_acts w comm reg.edgeMac rx.sender rx.now).trans ?_
  split
  · exact dropPeer_acts _ _ _ _
  · exact .refl _

theorem finishRegistration_acts (w : World) (rx : Rx) (d : Dispatch) (comm : ℕ) (c : Community)
    (reg : RegisterSuper) (hash : List UInt8 × Option SnUser) (ret : UpdateEdgeRet)
    (ack : RegisterSuperAck) (payloadBuf : List UInt8) (hpc : d.cmn.pc = msgTypeRegisterSuper)
    (hP : ∀ e, RelayOk w.sss.federation d e → P e)
    (hfed : c.isFederation = true → ∀ e : Emission, ttlOf e.pkt.plain = defaultTtl → P e) :
    Acts P U w (w.finishRegistration rx d comm c reg hash ret ack payloadBuf) := by
  unfold finishRegistration
  split_ifs
  · exact nakRegistration_acts w rx d comm reg hash.1 hP
  · exact ackRegistration_acts w rx d comm c reg hash.2 ack payloadBuf hpc hP hfed
  · exact associateEdge_acts w rx comm reg

/-- The community stays the same while an address is looked for, but for the order of the
edges. -/
theorem autoAddress_acts (w : World) (comm : ℕ) (reg : RegisterSuper) (success : Bool) :
    Acts P U w { w with sss := (w.sss.autoAddress comm reg success).1 } := by
  unfold Sn.autoAddress
  split
  · split_ifs
    · exact (Act.sortEdges comm peerTapIpLe).acts
    · exact .refl w
  · exact .refl w

theorem autoAddress_get? {sss : Sn} {comm : ℕ} {c : Community}
    (hget : sss.communities.get? comm = some c) (reg : RegisterSuper) (success : Bool) :
    ∃ c', (sss.autoAddress comm reg success).1.communities.get? comm = some c' ∧
      c'.isFederation = c.isFederation := by
  unfold Sn.autoAddress
  rw [hget]
  dsimp only
  split_ifs
  · exact ⟨_, Table.get?_modify_self hget, rfl⟩
  · exact ⟨c, hget, rfl⟩

theorem autoAddress_conns (sss : Sn) (comm : ℕ) (reg : RegisterSuper) (success : Bool) :
    (sss.autoAddress comm reg success).1.tcpConnections = sss.tcpConnections := by
  unfold Sn.autoAddress
  split
  · split_ifs <;> rfl
  · rfl

theorem supernodeList_acts (w : World) (rx : Rx) : Acts P U w (w.supernodeList rx).1 := by
  unfold supernodeList
  dsimp only
  split_ifs
  · exact .refl w
  · exact w.randSqr_acts

theorem supernodeList_sss (w : World) (rx : Rx) : (w.supernodeList rx).1.sss = w.sss := by
  unfold supernodeList
  dsimp only
  split_ifs <;> rfl

theorem updateEdgeAt_federation (w : World) (rx : Rx) (d : Dispatch) (comm : ℕ) (c : Community)
    (reg : RegisterSuper) :
    (w.updateEdgeAt rx d comm c reg).1.sss.federation = w.sss.federation := by
  unfold updateEdgeAt
  dsimp only
  split_ifs <;> rfl

theorem updateEdgeAt_sock (w : World) (rx : Rx) (d : Dispatch) (comm : ℕ) (c : Community)
    (reg : RegisterSuper) : (w.updateEdgeAt rx d comm c reg).1.sss.sock = w.sss.sock := by
  unfold updateEdgeAt
  dsimp only
  split_ifs <;> rfl

theorem registerSupernode_acts (w : World) (rx : Rx) (d : Dispatch) (comm : ℕ) (c : Community)
    (reg : RegisterSuper) (hash : List UInt8 × Option SnUser) (addr : IpSubnet)
    (hpc : d.cmn.pc = msgTypeRegisterSuper) (hP : ∀ e, RelayOk w.sss.federation d e → P e)
    (hfed : c.isFederation = true → ∀ e : Emission, ttlOf e.pkt.plain = defaultTtl → P e) :
    Acts P U w (w.registerSupernode rx d comm c reg hash addr) := by
  unfold registerSupernode
  dsimp only
  have hreg := registerSn_acts (P := P) (U := U) w rx reg
  refine hreg.trans ?_
  refine (supernodeList_acts _ rx).trans (finishRegistration_acts _ _ _ _ _ _ _ _ _ _ hpc ?_ hfed)
  rw [supernodeList_sss, hreg.federation_eq]
  exact hP

theorem registerEdge_acts (w : World) (rx : Rx) (d : Dispatch) (comm : ℕ) (c : Community)
    (reg : RegisterSuper) (hash : List UInt8 × Option SnUser) (addr : IpSubnet)
    (hpc : d.cmn.pc = msgTypeRegisterSuper) (hP : ∀ e, RelayOk w.sss.federation d e → P e)
    (hfed : c.isFederation = true → ∀ e : Emission, ttlOf e.pkt.plain = defaultTtl → P e)
    (hc : ∀ c', w.sss.communities.get? comm = some c' → c'.isFederation = false)
    (hU : ∀ v c, v.sss.communities.get? comm = some c → c.isFederation = false →
      v.sss.tcpConnections = w.sss.tcpConnections → U v (v.updateEdgeAt rx d comm c reg).1) :
    Acts P U w (w.registerEdge rx d comm c reg hash addr) := by
  unfold registerEdge
  dsimp only
  have hlist := supernodeList_sss w rx
  refine (supernodeList_acts w rx).trans ?_
  generalize w.supernodeList rx = r at hlist
  obtain ⟨v, num, payloadBuf⟩ := r
  dsimp only at hlist ⊢
  split
  · exact .refl v
  · rename_i c' hget
    have hupdate := updateEdgeAt_federation v rx d comm c' reg
    have hconns : v.sss.tcpConnections = w.sss.tcpConnections := by rw [hlist]
    have hU' := hU v c' hget (hc c' (hlist ▸ hget)) hconns
    refine (Act.update hU' hupdate (updateEdgeAt_sock v rx d comm c' reg)).acts.trans ?_
    refine finishRegistration_acts _ _ _ _ _ _ _ _ _ _ hpc ?_ hfed
    rw [hupdate, hlist]
    exact hP

theorem acceptRegistration_acts (w : World) (rx : Rx) (d : Dispatch) (comm : ℕ)
    (reg : RegisterSuper) (hpc : d.cmn.pc = msgTypeRegisterSuper)
    (hP : ∀ e, RelayOk w.sss.federation d e → P e)
    (hfed : ∀ c, w.sss.communities.get? comm = some c → c.isFederation = true →
      ∀ e : Emission, ttlOf e.pkt.plain = defaultTtl → P e)
    (hU : ∀ c₀, w.sss.communities.get? comm = some c₀ → c₀.isFederation = false →
      ∀ v c, v.sss.communities.get? comm = some c → c.isFederation = false →
      v.sss.tcpConnections = w.sss.tcpConnections → U v (v.updateEdgeAt rx d comm c reg).1) :
    Acts P U w (w.acceptRegistration rx d comm reg) := by
  unfold acceptRegistration
  cases hget : w.sss.communities.get? comm with
  | none => exact .refl w
  | some c =>
    dsimp only
    split
    · exact .refl w
    · rename_i hash _
      have haddr := autoAddress_acts (P := P) (U := U) w comm reg rx.stack.success
      obtain ⟨c', hc', hflag⟩ := autoAddress_get? hget reg rx.stack.success
      split_ifs with hself hc
      · exact .refl w
      · refine haddr.trans (registerSupernode_acts _ rx d comm c reg hash _ hpc ?_ (hfed c hget))
        rw [haddr.federation_eq]
        exact hP
      · refine haddr.trans (registerEdge_acts _ rx d comm c reg hash _ hpc ?_ (hfed c hget) ?_ ?_)
        · rw [haddr.federation_eq]
          exact hP
        · intro c'' hc''
          rw [hc'] at hc''
          cases hc''
          rw [hflag]
          simpa using hc
        · intro v c₁ hv hc₁ hconns
          refine hU c hget (by simpa using hc) v c₁ hv hc₁ (hconns.trans ?_)
          exact autoAddress_conns w.sss comm reg rx.stack.success

/-! ### All messages -/

/-- A check writes to the last valid stamp of one entry, if it writes at all. -/
theorem checkStamp_cases (w : World) (comm : ℕ) (d : Dispatch) (mac : Mac) (jitter : Bool) :
    (w.checkStamp comm d mac jitter).1.sss = w.sss ∨
      ∃ (p q : ℕ) (stamp : PeerInfo → UInt64), (w.checkStamp comm d mac jitter).1.sss =
        w.sss.modifyEdges p (·.modify q fun e => { e with lastValidTimeStamp := stamp e }) := by
  unfold checkStamp
  split_ifs
  · unfold findEdgeTimeStampAndVerify
    dsimp only
    split
    · exact Or.inl rfl
    · exact Or.inr ⟨_, _, _, rfl⟩
  · exact Or.inl rfl

/-- The note in the history does not touch the tables. -/
theorem checkFresh_sss (w : World) (comm : ℕ) (d : Dispatch) (mac : Mac) :
    (w.checkFresh comm d mac).1.sss = (w.checkStamp comm d mac false).1.sss := by
  unfold checkFresh
  split
  · rename_i heq
    rw [heq]
    split_ifs <;> rfl
  · rename_i heq
    rw [heq]

end World

/-- A check only writes to the last valid stamp of an entry. -/
theorem Checked.cases {w w₁ : World} {d : Dispatch} (h : Checked w d w₁) :
    w₁.sss = w.sss ∨
      ∃ (p q : ℕ) (stamp : PeerInfo → UInt64), w₁.sss =
        w.sss.modifyEdges p (·.modify q fun e => { e with lastValidTimeStamp := stamp e }) := by
  cases h with
  | none => exact Or.inl rfl
  | stamp comm mac jitter _ => exact w.checkStamp_cases comm d mac jitter
  | fresh comm mac _ _ =>
    rw [World.checkFresh_sss]
    exact w.checkStamp_cases comm d mac false

/-- A check accepts no key time. -/
theorem Checked.keyTimes {w w₁ : World} {d : Dispatch} (h : Checked w d w₁) :
    w₁.keyTimes = w.keyTimes := by
  have hcheck : ∀ comm mac jitter, (w.checkStamp comm d mac jitter).1.keyTimes = w.keyTimes := by
    intro comm mac jitter
    unfold World.checkStamp World.findEdgeTimeStampAndVerify
    dsimp only
    split_ifs
    · split <;> rfl
    · rfl
  cases h with
  | none => rfl
  | stamp comm mac jitter _ => exact hcheck comm mac jitter
  | fresh comm mac _ _ =>
    have hstamp := hcheck comm mac false
    unfold World.checkFresh
    split
    · rename_i heq
      rw [heq] at hstamp
      split_ifs <;> exact hstamp
    · rename_i heq
      rw [heq] at hstamp
      exact hstamp

theorem Checked.get? {w w₁ : World} {d : Dispatch} (h : Checked w d w₁) {p : ℕ} {c : Community}
    (hget : w₁.sss.communities.get? p = some c) :
    ∃ c₀, w.sss.communities.get? p = some c₀ ∧ c = { c₀ with edges := c.edges } := by
  rcases h.cases with hsss | ⟨p', q, stamp, hsss⟩
  · rw [hsss] at hget
    exact ⟨c, hget, rfl⟩
  · rw [hsss, Sn.modifyEdges, Sn.modifyComm, Table.get?_modify] at hget
    split_ifs at hget
    · obtain ⟨c₀, hc₀, rfl⟩ := Option.map_eq_some_iff.mp hget
      exact ⟨c₀, hc₀, rfl⟩
    · exact ⟨c, hget, rfl⟩

theorem Checked.rest {w w₁ : World} {d : Dispatch} (h : Checked w d w₁) :
    w₁.sss = { w.sss with communities := w₁.sss.communities } := by
  rcases h.cases with hsss | ⟨p, q, stamp, hsss⟩
  · rw [hsss]
  · rw [hsss]
    rfl

theorem Checked.federation_eq {w w₁ : World} {d : Dispatch} (h : Checked w d w₁) :
    w₁.sss.federation = w.sss.federation := by
  rw [h.rest]

theorem Checked.conns_eq {w w₁ : World} {d : Dispatch} (h : Checked w d w₁) :
    w₁.sss.tcpConnections = w.sss.tcpConnections := by
  rw [h.rest]

theorem Checked.sock_eq {w w₁ : World} {d : Dispatch} (h : Checked w d w₁) :
    w₁.sss.sock = w.sss.sock := by
  rw [h.rest]

namespace World

theorem addCommunity_acts (w : World) (name : CommunityName) :
    Acts P U w (w.setSss (·.addCommunity name)) := by
  unfold Sn.addCommunity Sn.withSubnet setSss
  dsimp only
  -- the search for a sub-network is of no interest here
  generalize (Sn.assignOneIpSubnet _ _ _).getD ⟨0, 0⟩ = net
  refine (Act.addComm name).acts.trans ?_
  exact (Act.comm w.sss.communities.next (fun c => { c with autoIpNet := net }) (fun c => rfl)
    fun c h => h).acts

theorem addCommunity_get? (sss : Sn) (name : CommunityName) {c : Community}
    (h : (sss.addCommunity name).communities.get? sss.communities.next = some c) :
    c.isFederation = false := by
  unfold Sn.addCommunity Sn.withSubnet Sn.modifyComm at h
  dsimp only at h
  rw [Table.get?_modify, if_pos rfl, Table.get?_add, if_pos rfl] at h
  obtain rfl := Option.some.inj h
  rfl

theorem handleRegisterSuper_acts (w : World) (rx : Rx) (d : Dispatch)
    (hpc : d.cmn.pc = msgTypeRegisterSuper)
    (hP : ∀ e, RelayOk w.sss.federation d e → P e)
    (hfed : d.Federated w.sss → ∀ e : Emission, ttlOf e.pkt.plain = defaultTtl → P e)
    (hU : ∀ v v', Updates w.sss rx d v v' → U v v') :
    ∃ w₁, Checked w d w₁ ∧ Acts P U w₁ (w.handleRegisterSuper rx d) := by
  have hmac : d.freshMac = some d.registerSuper.edgeMac := by rw [Dispatch.freshMac, if_pos hpc]
  unfold handleRegisterSuper
  cases hcomm : d.comm with
  | some comm =>
    have hchecked : Checked w d (w.checkFresh comm d d.registerSuper.edgeMac).1 :=
      .fresh comm _ hcomm hmac
    refine ⟨_, hchecked, afterCheck_acts ?_⟩
    have htarget : d.target w.sss = comm := by rw [Dispatch.target, hcomm]; rfl
    simp only [Sn.provideCommunity, hcomm]
    refine acceptRegistration_acts _ rx d comm d.registerSuper hpc ?_ ?_ ?_
    · rw [hchecked.federation_eq]
      exact hP
    · intro c hget hc
      obtain ⟨c₀, hget₀, hc₀⟩ := hchecked.get? hget
      refine hfed ⟨comm, c₀, hcomm, hget₀, ?_⟩
      rw [hc₀] at hc
      exact hc
    · intro c₀ hget₀ hc₀ v c hget hc hconns
      have hno : ¬ d.Federated w.sss := by
        rintro ⟨p, c₁, hp, hget₁, hc₁⟩
        obtain rfl := Option.some.inj (hcomm.symm.trans hp)
        obtain ⟨c₂, hget₂, hc₂⟩ := hchecked.get? hget₀
        obtain rfl := Option.some.inj (hget₁.symm.trans hget₂)
        rw [hc₂] at hc₀
        exact absurd (hc₀.symm.trans hc₁) (by decide)
      refine hU v _ ⟨hno, c, ?_, hc, hconns.trans hchecked.conns_eq, ?_⟩
      · rwa [htarget]
      · rw [htarget]
  | none =>
    have htarget : d.target w.sss = w.sss.communities.next := by rw [Dispatch.target, hcomm]; rfl
    refine ⟨w, .none, afterCheck_acts (r := (w, true)) ?_⟩
    simp only [Sn.provideCommunity, hcomm]
    split_ifs with hlock
    · exact .refl w
    · have hadd := addCommunity_acts (P := P) (U := U) w d.cmn.community
      refine hadd.trans (acceptRegistration_acts _ rx d _ d.registerSuper hpc ?_ ?_ ?_)
      · rw [hadd.federation_eq]
        exact hP
      · intro c hget hc
        have hno : c.isFederation = false := addCommunity_get? w.sss d.cmn.community hget
        exact absurd (hno.symm.trans hc) (by decide)
      · intro _ _ _ v c hget hc hconns
        have hno : ¬ d.Federated w.sss := by
          rintro ⟨p, c₁, hp, -⟩
          exact absurd (hcomm.symm.trans hp) (by simp)
        refine hU v _ ⟨hno, c, ?_, hc, hconns, ?_⟩
        · rwa [htarget]
        · rw [htarget]

/-- **A message is checked, and what follows is a sequence of acts.**  A registration of the
federation or the answer to one may bring a new key time, and then messages of the
supernode's own. -/
theorem dispatch_acts (w : World) (rx : Rx) (d : Dispatch)
    (hP : ∀ e, RelayOk w.sss.federation d e → P e)
    (hfed : d.Federated w.sss →
      d.cmn.pc = msgTypeRegisterSuper ∨ d.cmn.pc = msgTypeRegisterSuperAck →
      ∀ e : Emission, ttlOf e.pkt.plain = defaultTtl → P e)
    (hU : d.cmn.pc = msgTypeRegisterSuper →
      ∀ v v', Updates w.sss rx d v v' → U v v') :
    ∃ w₁, Checked w d w₁ ∧ Acts P U w₁ (w.dispatch rx d) := by
  unfold dispatch
  by_cases hreg : d.cmn.pc = msgTypeRegisterSuper
  · rw [if_pos hreg]
    exact handleRegisterSuper_acts w rx d hreg hP (fun h => hfed h (Or.inl hreg)) (hU hreg)
  rw [if_neg hreg]
  by_cases hquery : d.cmn.pc = msgTypeQueryPeer
  · rw [if_pos hquery]
    exact handleQueryPeer_acts w rx d hquery hP
  · rw [if_neg hquery]
    cases hcomm : d.comm with
    | none => exact ⟨w, .none, .refl w⟩
    | some comm =>
      dsimp only
      split_ifs with hpacket hregister hunreg hack hnak hinfo
      · exact handlePacket_acts w rx d comm hcomm hpacket hP
      · exact handleRegister_acts w rx d comm hcomm hregister hP
      · exact handleUnregisterSuper_acts w d comm hcomm hunreg
      · exact handleRegisterSuperAck_acts w rx d comm hcomm fun h => hfed h (Or.inr hack)
      · exact handleRegisterSuperNak_acts w d comm hcomm hnak hP
      · exact handlePeerInfo_acts w rx d comm hcomm hinfo hP
      · exact ⟨w, .none, .refl w⟩

end World

end N2n
