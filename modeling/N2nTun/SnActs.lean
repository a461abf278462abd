import Mathlib.Logic.Relation
import N2nTun.KeyTable
import N2nTun.WireEncode

/-!
# What a message does to a supernode

Everything that `process_udp` and the periodic tasks do is a sequence of small changes of
the state.  They are listed once, with the facts about each that invariants need; the
functions of the program are then shown to be made of them.

The check of a message's time stamp comes before all other changes and is not among
them, since it may only happen once.

## Main definitions

* `Act` — one change of the state.  Its parameters say which packets are sent and what
  `update_edge` does.
* `Checked` — the state after the check of the time stamp.

## Main results

* `World.dispatch_acts` — **a message is checked, and what follows is a sequence of acts.**
* `World.takeKeyTime_acts`, `World.reRegisterAndPurgeSupernodes_acts`,
  `Sn.purgeExpiredCommunities_acts` — the periodic tasks.
-/

namespace N2n

open Bytes Relation

/-- One change of a supernode's state.  A packet that is sent meets `P`, and a call of
`update_edge` is in `U`. -/
inductive Act (P : Emission → Prop) (U : World → World → Prop) : World → World → Prop
  /-- time passes, and bytes go out -/
  | surroundings {w : World} (env : Env) (stamp : UInt64) (written : ℤ → List UInt8) :
      Act P U w { w with env := env, previouslyIssuedTimeStamp := stamp, written := written }
  /-- a packet is sent; an entry it is meant for is in its table -/
  | emit {w : World} (e : Emission) (h : P e)
      (hdest : ∀ p, e.target = .entry p →
        ∃ scan ∈ w.sss.edges p, e.dest = fillSockaddr scan.sock) :
      Act P U w (w.emit e)
  /-- a TCP connection is closed, with its peer -/
  | close {w : World} (fd : ℤ) (h : w.sss.isTcp fd = true) :
      Act P U w (w.setSss fun sss => closeTcpConnection sss (sss.findConn fd))
  /-- an edge is removed -/
  | drop {w : World} (p q : ℕ) : Act P U w (w.setSss (·.modifyEdges p (·.del q)))
  /-- an edge is purged -/
  | purge {w : World} (p q : ℕ) (e : PeerInfo) (h : (w.sss.edges p).get? q = some e) :
      Act P U w (w.setSss (·.purgePeer p q e))
  /-- associations or the sub-network of a community change -/
  | comm {w : World} (p : ℕ) (f : Community → Community)
      (h : ∀ c, f c = { c with assoc := (f c).assoc, autoIpNet := (f c).autoIpNet })
      (hassoc : ∀ c, AssocDistinct c.assoc → AssocDistinct (f c).assoc) :
      Act P U w (w.setSss (·.modifyComm p f))
  /-- a community is brought up -/
  | addComm {w : World} (name : CommunityName) :
      Act P U w (w.setSss fun sss =>
        { sss with communities := sss.communities.add (newCommunity name) })
  /-- a community is purged, unless it is not to be -/
  | delComm {w : World} (p : ℕ)
      (h : ∃ c, w.sss.communities.get? p = some c ∧ c.purgeable = true) :
      Act P U w (w.setSss fun sss => { sss with communities := sss.communities.del p })
  /-- communities are sorted, and their counters begin anew -/
  | sortComms {w : World} (le : Community → Community → Bool) :
      Act P U w (w.setSss fun sss =>
        { sss with
          communities := (sss.communities.sort le).mapValues
            fun c => { c with numberEncPackets := 0 } })
  /-- edges are sorted -/
  | sortEdges {w : World} (p : ℕ) (le : PeerInfo → PeerInfo → Bool) :
      Act P U w (w.setSss (·.modifyEdges p (·.sort le)))
  /-- the federation changes; new entries have the socket of UDP, and known MACs stay distinct -/
  | federation {w : World} (f : Table PeerInfo → Table PeerInfo)
      (h : ∀ e ∈ f (w.sss.edges w.sss.federation), e.socketFd = w.sss.sock ∨
        ∃ e' ∈ w.sss.edges w.sss.federation, e'.socketFd = e.socketFd)
      (hkeyed : PeersKeyed (w.sss.edges w.sss.federation) KnownMac →
        PeersKeyed (f (w.sss.edges w.sss.federation)) KnownMac) :
      Act P U w (w.setSss (·.modifyEdges w.sss.federation f))
  /-- a later key time, and with it new dynamic keys -/
  | keyTime {w : World} (t : UInt32) (h : w.sss.dynamicKeyTime < t) :
      Act P U w (((w.noteKeyTime t).setSss fun sss => { sss with dynamicKeyTime := t }).setSss
        Sn.calculateDynamicKeys)
  /-- a key time that is not later -/
  | noteKeyTime {w : World} (t : UInt32) (h : ¬ w.sss.dynamicKeyTime < t) :
      Act P U w (w.noteKeyTime t)
  /-- a call of `update_edge` -/
  | update {w w' : World} (h : U w w') (hfed : w'.sss.federation = w.sss.federation)
      (hsock : w'.sss.sock = w.sss.sock) : Act P U w w'

/-- A sequence of changes. -/
def Acts (P : Emission → Prop) (U : World → World → Prop) : World → World → Prop :=
  ReflTransGen (Act P U)

variable {P : Emission → Prop} {U : World → World → Prop}

theorem Acts.refl (w : World) : Acts P U w w := ReflTransGen.refl

theorem Acts.trans {w₁ w₂ w₃ : World} (h : Acts P U w₁ w₂) (h' : Acts P U w₂ w₃) :
    Acts P U w₁ w₃ := ReflTransGen.trans h h'

theorem Act.acts {w w' : World} (h : Act P U w w') : Acts P U w w' := ReflTransGen.single h

/-- What every change keeps holds after all of them. -/
theorem Acts.invariant {I : World → Prop} (hstep : ∀ w w', I w → Act P U w w' → I w')
    {w w' : World} (h : Acts P U w w') (hw : I w) : I w' := by
  induction h with
  | refl => exact hw
  | tail _ hact ih => exact hstep _ _ ih hact

/-! ### The pointer to the federation -/

theorem Sn.purgePeer_federation (sss : Sn) (p q : ℕ) (e : PeerInfo) :
    (sss.purgePeer p q e).federation = sss.federation := by
  unfold Sn.purgePeer Sn.modifyEdges Sn.modifyComm
  dsimp only
  split_ifs
  · split <;> rfl
  · rfl

theorem Sn.purgePeer_sock (sss : Sn) (p q : ℕ) (e : PeerInfo) :
    (sss.purgePeer p q e).sock = sss.sock := by
  unfold Sn.purgePeer Sn.modifyEdges Sn.modifyComm
  dsimp only
  split_ifs
  · split <;> rfl
  · rfl

theorem Act.federation_eq {w w' : World} (h : Act P U w w') :
    w'.sss.federation = w.sss.federation := by
  cases h with
  | close fd _ => exact closeTcpConnection_federation w.sss _
  | purge p q e _ => exact w.sss.purgePeer_federation p q e
  | update _ hfed _ => exact hfed
  | _ => rfl

/-- The socket of UDP stays the same. -/
theorem Act.sock_eq {w w' : World} (h : Act P U w w') : w'.sss.sock = w.sss.sock := by
  cases h with
  | close fd _ => exact closeTcpConnection_sock w.sss _
  | purge p q e _ => exact w.sss.purgePeer_sock p q e
  | update _ _ hsock => exact hsock
  | _ => rfl

theorem Acts.federation_eq {w w' : World} (h : Acts P U w w') :
    w'.sss.federation = w.sss.federation :=
  h.invariant (I := fun v => v.sss.federation = w.sss.federation)
    (fun _ _ hv hact => hact.federation_eq.trans hv) rfl

namespace World

/-! ### Clock, random numbers and the kernel -/

theorem timeStamp_acts (w : World) : Acts P U w w.timeStamp.1 :=
  (Act.surroundings _ _ w.written).acts

theorem rand_acts (w : World) : Acts P U w w.rand.1 :=
  (Act.surroundings _ w.previouslyIssuedTimeStamp w.written).acts

theorem randSqr_acts (w : World) : Acts P U w w.randSqr.1 :=
  (Act.surroundings _ w.previouslyIssuedTimeStamp w.written).acts

theorem time_acts (w : World) : Acts P U w w.time.1 :=
  (Act.surroundings _ w.previouslyIssuedTimeStamp w.written).acts

theorem sendto_acts (w : World) (fd : ℤ) (p : List UInt8) : Acts P U w (w.sendto fd p).1 :=
  (Act.surroundings _ w.previouslyIssuedTimeStamp _).acts

theorem kcpSnSend_acts (w : World) (n : ℕ) : Acts P U w (w.kcpSnSend n).1 :=
  (Act.surroundings _ w.previouslyIssuedTimeStamp w.written).acts

theorem sendtoFdRaw_acts (w : World) (fd : ℤ) (pktbuf : List UInt8) :
    Acts P U w (w.sendtoFdRaw fd pktbuf).1 := by
  have hsend := sendto_acts (P := P) (U := U) w fd pktbuf
  unfold sendtoFdRaw
  generalize w.sendto fd pktbuf = s at hsend
  obtain ⟨w', r⟩ := s
  dsimp only at hsend ⊢
  split_ifs with h
  · refine hsend.trans (Act.close fd ?_).acts
    exact (Bool.and_eq_true _ _ ▸ h).2
  · exact hsend

theorem sendtoFd_acts (w : World) (fd : ℤ) (socket : Sock) (pktbuf : List UInt8)
    (policy : TransportPolicy) : Acts P U w (w.sendtoFd fd socket pktbuf policy).1 := by
  have hkcp := kcpSnSend_acts (P := P) (U := U) w pktbuf.length
  unfold sendtoFd
  generalize w.kcpSnSend pktbuf.length = s at hkcp
  obtain ⟨w', sent⟩ := s
  dsimp only at hkcp ⊢
  split_ifs with h h'
  · exact hkcp
  · exact hkcp.trans (sendtoFdRaw_acts w' fd pktbuf)
  · exact sendtoFdRaw_acts w fd pktbuf

theorem sendFrame_acts (w : World) (fd : ℤ) (socket : Sock) (pktbuf : List UInt8)
    (policy : TransportPolicy) : Acts P U w (w.sendFrame fd socket pktbuf policy).1 := by
  have hlen := sendtoFd_acts (P := P) (U := U) w fd socket
    (bytes16 (UInt16.ofNat pktbuf.length)) policy
  unfold sendFrame
  generalize w.sendtoFd fd socket (bytes16 (UInt16.ofNat pktbuf.length)) policy = s at hlen
  obtain ⟨w', sent⟩ := s
  dsimp only at hlen ⊢
  split_ifs with h h'
  · exact hlen
  · exact hlen.trans (sendtoFd_acts w' fd socket pktbuf policy)
  · exact sendtoFd_acts w fd socket pktbuf policy

/-! ### One packet -/

theorem sendtoSock_acts (w : World) (target : Target) (fd : ℤ) (socket : Sock) (pkt : Pkt)
    (policy : TransportPolicy) (h : P ⟨target, socket, fd, pkt⟩)
    (hdest : ∀ p, target = .entry p → ∃ scan ∈ w.sss.edges p, socket = fillSockaddr scan.sock) :
    Acts P U w (w.sendtoSock target fd socket pkt policy).1 :=
  (Act.emit ⟨target, socket, fd, pkt⟩ h hdest).acts.trans (sendFrame_acts _ fd socket _ policy)

/-- A packet to a peer whose socket is in the table. -/
theorem sendtoPeer_acts (w : World) (comm : ℕ) (peer : PeerInfo) (pkt : Pkt) (drop : Bool)
    (policy : TransportPolicy)
    (h : ∀ e : Emission, e.target = .entry comm → e.pkt = pkt → P e)
    (hpeer : ∃ scan ∈ w.sss.edges comm, scan.sock = peer.sock) :
    Acts P U w (w.sendtoPeer comm peer pkt drop policy).1 := by
  unfold sendtoPeer
  generalize (if 0 ≤ peer.socketFd then peer.socketFd else w.sss.sock) = fd
  split_ifs with h₁ h₂
  · exact .refl w
  · refine sendtoSock_acts w _ _ _ pkt policy (h _ rfl rfl) ?_
    rintro p ⟨⟩
    obtain ⟨scan, hscan, hsock⟩ := hpeer
    exact ⟨scan, hscan, by rw [hsock]⟩
  · exact .refl w

/-- What the body of a loop over the edges keeps. -/
theorem forEdges_invariant {I : World → Prop} (w : World) (comm : ℕ)
    {body : World → ℕ → PeerInfo → World} (hw : I w)
    (h : ∀ v, I v → ∀ p scan, (v.sss.edges comm).get? p = some scan → I (body v p scan)) :
    I (w.forEdges comm body) := by
  unfold forEdges
  generalize (w.sss.edges comm).entries.map Prod.fst = ps
  induction ps generalizing w with
  | nil => exact hw
  | cons p ps ih =>
    rw [List.foldl_cons]
    refine ih _ ?_
    split
    next scan hget => exact h w hw p scan hget
    next => exact hw

/-- A loop over the edges of a community, whose body meets entries of the table. -/
theorem forEdges_acts (w : World) (comm : ℕ) (body : World → ℕ → PeerInfo → World)
    (h : ∀ w', Acts P U w w' → ∀ p scan, (w'.sss.edges comm).get? p = some scan →
      Acts P U w' (body w' p scan)) :
    Acts P U w (w.forEdges comm body) := by
  refine w.forEdges_invariant comm (I := Acts P U w) (.refl w) ?_
  intro w' hw p scan hget
  exact hw.trans (h w' hw p scan hget)

/-- Relaying to the federation and to the edges of a community. -/
theorem tryBroadcast_acts (w : World) (comm : Option ℕ) (cmn : Common) (srcMac : Mac)
    (fromSn : Bool) (pkt : Pkt) (now : ℤ)
    (hfed : fromSn = false → ∀ e : Emission, e.target = .entry w.sss.federation → e.pkt = pkt → P e)
    (hcomm : ∀ p, comm = some p → ∀ e : Emission, e.target = .entry p → e.pkt = pkt → P e) :
    Acts P U w (w.tryBroadcast comm cmn srcMac fromSn pkt now) := by
  unfold tryBroadcast
  have hsns : Acts P U w (if fromSn then w else
      w.forEdges w.sss.federation fun w' _ scan =>
        if scan.lastSeen + lastSeenSnInactive > now then
          (w'.sendtoPeer w.sss.federation scan pkt false (policyOf cmn)).1
        else w') := by
    split_ifs with hfrom
    · exact .refl w
    · refine forEdges_acts w _ _ ?_
      intro w' _ p scan hget
      split_ifs with hseen
      · exact sendtoPeer_acts w' _ scan pkt _ _ (hfed (by simpa using hfrom))
          ⟨scan, Table.mem_of_get? hget, rfl⟩
      · exact .refl w'
  refine hsns.trans ?_
  dsimp only
  cases comm with
  | none => exact .refl _
  | some comm =>
    refine forEdges_acts _ _ _ ?_
    intro w' _ p scan hget
    split_ifs with hmac
    · have hmem := Table.mem_of_get? hget
      exact sendtoPeer_acts w' comm scan pkt _ _ (hcomm comm rfl) ⟨scan, hmem, rfl⟩
    · exact .refl w'

theorem tryForward_acts (w : World) (comm : ℕ) (cmn : Common) (dstMac : Mac) (fromSn : Bool)
    (pkt : Pkt) (now : ℤ) (hsn : fromSn = false → ∀ e : Emission, e.pkt = pkt → P e)
    (hcomm : ∀ e : Emission, e.target = .entry comm → e.pkt = pkt → P e) :
    Acts P U w (w.tryForward comm cmn dstMac fromSn pkt now) := by
  unfold tryForward
  cases hfind : (w.sss.edges comm).find? (·.hasMac dstMac) with
  | some e =>
    have hmem := Table.mem_of_get? (Table.find?_eq_some hfind).1
    exact sendtoPeer_acts w comm e.2 pkt _ _ hcomm ⟨e.2, hmem, rfl⟩
  | none =>
    dsimp only
    split_ifs with hfrom
    · exact .refl w
    · have hP := hsn (by simpa using hfrom)
      split
      · refine sendtoSock_acts w _ _ _ pkt _ (hP _ rfl) ?_
        rintro p ⟨⟩
      · refine tryBroadcast_acts w none cmn _ fromSn pkt now (fun _ e _ => hP e) ?_
        rintro p ⟨⟩

/-! ### Encrypted headers -/

/-- What the functions that encrypt a header have in common: they only use the clock and
the random numbers, and the packet keeps its plain bytes. -/
structure Seals (w : World) (plain : List UInt8) (r : World × Pkt) : Prop where
  plain_eq : r.2.plain = plain
  sss_eq : r.1.sss = w.sss
  acts : ∀ (P : Emission → Prop) (U : World → World → Prop), Acts P U w r.1

theorem Seals.ofPlain (w : World) (plain : List UInt8) : Seals w plain (w, .ofPlain plain) :=
  ⟨rfl, rfl, fun _ _ => .refl w⟩

theorem encryptHeader_seals (w : World) (ctx iv : Option SpeckContext) (pkt : Pkt) (n : ℕ) :
    Seals w pkt.plain (w.encryptHeader ctx iv pkt n) := by
  unfold encryptHeader
  dsimp only
  split
  · exact ⟨rfl, rfl, fun P U => w.timeStamp_acts.trans (rand_acts _)⟩
  · exact ⟨rfl, rfl, fun P U => w.timeStamp_acts⟩

theorem sealStatic_seals (w : World) (comm : ℕ) (plain : List UInt8) :
    Seals w plain (w.sealStatic comm plain) := by
  unfold sealStatic
  split
  · split_ifs
    · exact encryptHeader_seals w _ _ (.ofPlain plain) _
    · exact .ofPlain w plain
  · exact .ofPlain w plain

theorem sealDynamic_seals (w : World) (comm : ℕ) (plain : List UInt8) (n : ℕ) :
    Seals w plain (w.sealDynamic comm plain n) := by
  unfold sealDynamic
  split
  · split_ifs
    · exact encryptHeader_seals w _ _ (.ofPlain plain) _
    · exact .ofPlain w plain
  · exact .ofPlain w plain

theorem sealIf_seals (w : World) (comm : Option ℕ) (plain : List UInt8) :
    Seals w plain (w.sealIf comm plain) := by
  cases comm with
  | none => exact .ofPlain w plain
  | some comm => exact sealDynamic_seals w comm plain plain.length

/-- More bytes behind the packet. -/
theorem Seals.append {w : World} {plain : List UInt8} {r : World × Pkt} (h : Seals w plain r)
    (p : List UInt8) : Seals w plain (r.1, { r.2 with bytes := r.2.bytes ++ p }) :=
  ⟨h.plain_eq, h.sss_eq, h.acts⟩

theorem sealHashed_seals (w : World) (comm : ℕ) (plain : List UInt8) (user : Option SnUser) :
    Seals w plain (w.sealHashed comm plain user) := by
  have hseal := sealStatic_seals w comm plain
  unfold sealHashed
  dsimp only
  split
  · split_ifs
    · exact hseal.append _
    · exact hseal
  · exact hseal

theorem sealNak_seals (w : World) (comm : ℕ) (plain hashBuf : List UInt8) :
    Seals w plain (w.sealNak comm plain hashBuf) := by
  have hseal := sealStatic_seals w comm plain
  unfold sealNak
  dsimp only
  split
  · split_ifs
    · exact hseal.append _
    · exact hseal
  · exact hseal

/-- A packet back to the sender. -/
theorem replySock_acts (w : World) (rx : Rx) (pkt : Pkt)
    (h : ∀ e : Emission, e.target = .sender → e.pkt = pkt → P e) :
    Acts P U w (w.replySock rx pkt) := by
  refine sendtoSock_acts w _ _ _ pkt _ (h _ rfl rfl) ?_
  rintro p ⟨⟩

/-! ### Peers -/

theorem dropPeer_acts (w : World) (comm p : ℕ) (fd : ℤ) : Acts P U w (w.dropPeer comm p fd) := by
  unfold dropPeer
  split_ifs with h
  · exact (Act.close fd h).acts
  · exact (Act.drop comm p).acts

theorem updateNodeSupernodeAssociation_acts (w : World) (comm : ℕ) (mac : Mac) (sender : Sock)
    (now : ℤ) : Acts P U w (w.updateNodeSupernodeAssociation comm mac sender now) := by
  refine (Act.comm comm _ ?_ ?_).acts
  · intro c
    split <;> rfl
  · intro c h
    split
    · exact h
    · exact addAssoc_distinct h ‹_›

@[simp] theorem updateNodeSupernodeAssociation_edges (w : World) (comm : ℕ) (mac : Mac)
    (sender : Sock) (now : ℤ) (p : ℕ) :
    (w.updateNodeSupernodeAssociation comm mac sender now).sss.edges p = w.sss.edges p := by
  unfold updateNodeSupernodeAssociation setSss Sn.modifyComm Sn.edges
  dsimp only
  rw [Table.get?_modify]
  split_ifs with hp
  · cases w.sss.communities.get? p with
    | none => rfl
    | some c =>
      dsimp only [Option.map]
      split <;> rfl
  · rfl

end World

/-! ### Supernodes -/

/-- `add_sn_to_list_by_mac_or_sock` leaves all other entries alone, and unless it adds an
entry, the one that it finds keeps its descriptor. -/
theorem addSnToList_some {l l' : Table PeerInfo} {sock : Sock} {mac : Mac} {skipAdd s : SkipAdd}
    {stamp : UInt64} {p : ℕ}
    (h : addSnToListByMacOrSock l sock mac skipAdd stamp = (l', some p, s)) :
    (∀ q, q ≠ p → l'.get? q = l.get? q) ∧
      (skipAdd ≠ .add → ∃ e e', l.get? p = some e ∧ l'.get? p = some e' ∧
        e'.socketFd = e.socketFd) := by
  unfold addSnToListByMacOrSock at h
  split at h
  · rename_i q e hfind
    obtain ⟨rfl, rfl, -⟩ := by simpa using h
    refine ⟨fun _ _ => rfl, fun _ => ?_⟩
    split_ifs at hfind
    have hget := (Table.find?_eq_some hfind).1
    exact ⟨e, e, hget, hget, rfl⟩
  · split at h
    · rename_i q e hfirst
      have hget : l.get? q = some e := (Table.first?_eq_some hfirst).1
      obtain ⟨rfl, rfl, -⟩ := by simpa using h
      split_ifs with hnull
      · exact ⟨fun _ _ => rfl, fun _ => ⟨e, e, hget, hget, rfl⟩⟩
      · refine ⟨?_, fun _ => ⟨e, e.keyed mac, hget, Table.get?_rekey_self hget, rfl⟩⟩
        intro q' hq
        rw [Table.get?_rekey, if_neg hq]
    · split_ifs at h with hadd
      · obtain ⟨rfl, rfl, -⟩ := by simpa using h
        refine ⟨?_, fun hne => absurd hadd hne⟩
        intro q hq
        rw [Table.get?_add, if_neg hq]
      · simp at h

theorem addSnToList_none {l l' : Table PeerInfo} {sock : Sock} {mac : Mac} {skipAdd s : SkipAdd}
    {stamp : UInt64} (h : addSnToListByMacOrSock l sock mac skipAdd stamp = (l', none, s)) :
    l' = l := by
  unfold addSnToListByMacOrSock at h
  split at h
  · simp at h
  · split at h
    · simp at h
    · split_ifs at h
      · simp at h
      · exact (Prod.mk.inj h).1.symm

/-- Two writes to the edges of a community. -/
theorem Sn.modifyEdges_modifyEdges (sss : Sn) (p : ℕ) (f g : Table PeerInfo → Table PeerInfo) :
    (sss.modifyEdges p f).modifyEdges p g = sss.modifyEdges p (g ∘ f) := by
  unfold Sn.modifyEdges Sn.modifyComm
  dsimp only
  rw [Table.modify_modify]
  rfl

theorem Sn.edges_of_get? {sss : Sn} {p : ℕ} {c : Community} (h : sss.communities.get? p = some c) :
    sss.edges p = c.edges := by
  rw [Sn.edges, h]

theorem Sn.edges_modifyEdges_self {sss : Sn} {p : ℕ} {c : Community}
    (h : sss.communities.get? p = some c) (f : Table PeerInfo → Table PeerInfo) :
    (sss.modifyEdges p f).edges p = f (sss.edges p) := by
  rw [Sn.edges_of_get? h]
  refine Sn.edges_of_get? (c := { c with edges := f c.edges }) ?_
  exact Table.get?_modify_self h

namespace World

/-- The clock of `add_sn_to_list_by_mac_or_sock`. -/
theorem addSnClock_acts (w : World) (s : SkipAdd) :
    Acts P U w (if s = .added then w.timeStamp.1 else w) := by
  split_ifs
  · exact w.timeStamp_acts
  · exact .refl w

theorem addSnClock_sss (w : World) (s : SkipAdd) :
    (if s = .added then w.timeStamp.1 else w).sss = w.sss := by
  split_ifs <;> rfl

/-- A supernode is looked up or added, and its entry is written to: a new entry gets the
socket of UDP. -/
theorem addSn_modifySn_acts {w w' : World} {sock : Sock} {mac : Mac} {skipAdd s : SkipAdd} {p : ℕ}
    {f : PeerInfo → PeerInfo} (h : w.addSn sock mac skipAdd = (w', some p, s))
    (hf : ∀ e, (f e).socketFd = w.sss.sock ∨ skipAdd ≠ .add ∧ (f e).socketFd = e.socketFd)
    (hmac : ∀ e, (f e).macAddr = e.macAddr ∧ (f e).hashKey = e.hashKey) :
    Acts P U w (w'.modifySn p f) := by
  dsimp only [addSn] at h
  generalize hr : addSnToListByMacOrSock (w.sss.edges w.sss.federation) sock mac skipAdd
    (initialTimeStamp w.timeStamp.2) = r at h
  obtain ⟨l', p', s'⟩ := r
  obtain ⟨rfl, rfl, rfl⟩ := by simpa using h
  obtain ⟨hother, hself⟩ := addSnToList_some hr
  have hsss := addSnClock_sss w s'
  refine (addSnClock_acts w s').trans ?_
  generalize (if s' = .added then w.timeStamp.1 else w) = v at hsss
  -- both writes together are one change of the federation
  have hact : Act P U v (v.setSss (·.modifyEdges v.sss.federation fun _ => l'.modify p f)) := by
    refine .federation (fun _ => l'.modify p f) ?_ ?_ <;> rw [hsss]
    · intro e he
      obtain ⟨q, hq⟩ := Table.mem_iff_get?.mp he
      rw [Table.get?_modify] at hq
      split_ifs at hq with hqp
      · subst hqp
        obtain ⟨a, ha, rfl⟩ := Option.map_eq_some_iff.mp hq
        rcases hf a with hfd | ⟨hskip, hfd⟩
        · exact Or.inl hfd
        · obtain ⟨e, e', he, he', heq⟩ := hself hskip
          rw [he'] at ha
          cases ha
          exact Or.inr ⟨e, Table.mem_of_get? he, by rw [hfd, heq]⟩
      · rw [hother q hqp] at hq
        exact Or.inr ⟨e, Table.mem_of_get? hq, rfl⟩
    · intro hkeyed
      have hl' := addSnToList_keyed hkeyed sock mac skipAdd (initialTimeStamp w.timeStamp.2)
      rw [hr] at hl'
      exact hl'.modify p (fun e => (hmac e).1) fun e => (hmac e).2
  have heq : modifySn (v.setSss fun sss => sss.modifyEdges sss.federation fun _ => l') p f =
      v.setSss (·.modifyEdges v.sss.federation fun _ => l'.modify p f) := by
    unfold modifySn setSss
    dsimp only
    congr 1
    exact Sn.modifyEdges_modifyEdges _ _ _ _
  rw [heq]
  exact hact.acts

theorem addSn_none_acts {w w' : World} {sock : Sock} {mac : Mac} {skipAdd s : SkipAdd}
    (h : w.addSn sock mac skipAdd = (w', none, s)) : Acts P U w w' := by
  dsimp only [addSn] at h
  generalize hr : addSnToListByMacOrSock (w.sss.edges w.sss.federation) sock mac skipAdd
    (initialTimeStamp w.timeStamp.2) = r at h
  obtain ⟨l', p', s'⟩ := r
  obtain ⟨rfl, rfl, rfl⟩ := by simpa using h
  have hl := addSnToList_none hr
  have hsss := addSnClock_sss w s'
  refine (addSnClock_acts w s').trans ?_
  generalize (if s' = .added then w.timeStamp.1 else w) = v at hsss
  refine (Act.federation (fun _ => l') ?_ ?_).acts <;> rw [hsss, hl]
  · exact fun e he => Or.inr ⟨e, he, rfl⟩
  · exact id

theorem addSn_sock {w w' : World} {sock : Sock} {mac : Mac} {skipAdd : SkipAdd}
    {r : Option ℕ × SkipAdd} (h : w.addSn sock mac skipAdd = (w', r)) :
    w'.sss.sock = w.sss.sock := by
  dsimp only [addSn] at h
  obtain ⟨rfl, rfl⟩ := Prod.mk.inj h
  have hsss := addSnClock_sss w (addSnToListByMacOrSock (w.sss.edges w.sss.federation) sock mac
    skipAdd (initialTimeStamp w.timeStamp.2)).2.2
  have hsock := congrArg Sn.sock hsss
  exact hsock

theorem registerSn_acts (w : World) (rx : Rx) (reg : RegisterSuper) :
    Acts P U w (w.registerSn rx reg) := by
  unfold registerSn
  split
  · rename_i w' p s h
    exact addSn_modifySn_acts h (fun _ => Or.inl (addSn_sock h)) fun _ => ⟨rfl, rfl⟩
  · rename_i w' s h
    exact addSn_none_acts h

theorem learnSn_acts (payloadSock : Sock) (dec : List UInt8) (now : ℤ) (w : World) (i : ℕ) :
    Acts P U w (learnSn payloadSock dec now w i).1 := by
  unfold learnSn
  dsimp only
  split
  · rename_i w' p s h
    exact addSn_modifySn_acts h (fun _ => Or.inl (addSn_sock h)) fun _ => ⟨rfl, rfl⟩
  · rename_i w' s h
    exact addSn_none_acts h

theorem learnSns_acts (w : World) (rx : Rx) (dec : List UInt8) (n : ℕ) :
    Acts P U w (w.learnSns rx dec n) := by
  unfold learnSns
  generalize List.range n = is
  generalize rx.stack.payloadSock = sock
  induction is generalizing w sock with
  | nil => exact .refl w
  | cons i is ih =>
    rw [List.foldl_cons]
    exact (learnSn_acts sock dec rx.now w i).trans (ih _ _)

/-! ### Periodic tasks -/

theorem reRegister_acts {w : World} {p : ℕ} {peer : PeerInfo}
    (hpeer : (w.sss.edges w.sss.federation).get? p = some peer)
    (h : ∀ e : Emission, ttlOf e.pkt.plain = defaultTtl → P e) :
    Acts P U w (reRegister w.sss.federation w p peer) := by
  unfold reRegister
  cases hc : w.sss.communities.get? w.sss.federation with
  | none => exact .refl w
  | some c =>
    dsimp only
    -- the new cookie
    let f : PeerInfo → PeerInfo := fun e => { e with lastCookie := w.rand.2.toUInt32 }
    have hcookie : Acts P U w
        (w.rand.1.setSss (·.modifyEdges w.sss.federation (·.modify p f))) := by
      refine w.rand_acts.trans (Act.federation (·.modify p f) ?_ ?_).acts
      · intro e he
        rcases Table.mem_modify he with he | ⟨a, ha, rfl⟩
        · exact Or.inr ⟨e, he, rfl⟩
        · exact Or.inr ⟨a, Table.mem_of_get? ha, rfl⟩
      · exact fun h => h.modify p (fun _ => rfl) fun _ => rfl
    refine hcookie.trans ?_
    have hself := Sn.edges_modifyEdges_self hc (·.modify p f)
    generalize hv : w.rand.1.setSss (·.modifyEdges w.sss.federation (·.modify p f)) = v
    have hedges : v.sss.edges w.sss.federation = (w.sss.edges w.sss.federation).modify p f := by
      rw [← hv]
      exact hself
    have hhead := Msg.encode_hasHeader
      (.registerSuper (v.sss.registerSuperOf peer w.rand.2.toUInt32))
      [] ⟨defaultTtl, msgTypeRegisterSuper, flagsFromSupernode, c.community⟩
    dsimp only [Msg.encode] at hhead
    generalize (encodeRegisterSuper _ _ _).bytes = plain at hhead
    have hseal := encryptHeader_seals v c.keys.ctxStatic c.keys.ivStatic (.ofPlain plain)
      plain.length
    have hsent : ∀ e : Emission, e.target = .entry w.sss.federation →
        e.pkt = (v.encryptHeader c.keys.ctxStatic c.keys.ivStatic (.ofPlain plain)
          plain.length).2 → P e := by
      intro e _ hpkt
      refine h e ?_
      rw [hpkt, hseal.plain_eq]
      exact hhead.ttlOf
    refine (hseal.acts P U).trans (sendtoPeer_acts _ _ _ _ _ _ hsent ?_)
    rw [hseal.sss_eq, hedges]
    exact ⟨f peer, Table.mem_of_get? (Table.get?_modify_self hpeer), rfl⟩

/-- REGISTER_SUPERs to those supernodes of the federation that are due. -/
theorem forEdges_reRegister_acts (w : World) (due : PeerInfo → Prop) [DecidablePred due]
    (h : ∀ e : Emission, ttlOf e.pkt.plain = defaultTtl → P e) :
    Acts P U w (w.forEdges w.sss.federation fun w' p peer =>
      if due peer then w' else reRegister w.sss.federation w' p peer) := by
  refine forEdges_acts w _ _ ?_
  intro w' hw p scan hget
  rw [← hw.federation_eq] at hget ⊢
  split_ifs
  · exact .refl w'
  · exact reRegister_acts hget h

theorem reRegisterSupernodes_acts (w : World)
    (h : ∀ e : Emission, ttlOf e.pkt.plain = defaultTtl → P e) :
    Acts P U w w.reRegisterSupernodes := by
  have hall := forEdges_reRegister_acts (U := U) w (fun _ => False) h
  simp only [if_false] at hall
  exact hall

/-- What the body of a loop over the communities keeps. -/
theorem forComms_invariant {I : World → Prop} (w : World) {body : World → ℕ → Community → World}
    (hw : I w) (h : ∀ v p c, I v → I (body v p c)) : I (w.forComms body) := by
  unfold forComms
  generalize w.sss.communities.entries.map Prod.fst = ps
  induction ps generalizing w with
  | nil => exact hw
  | cons p ps ih =>
    rw [List.foldl_cons]
    refine ih _ ?_
    split
    · exact h w p _ hw
    · exact hw

/-- A loop over the communities. -/
theorem forComms_acts (w : World) (body : World → ℕ → Community → World)
    (h : ∀ w p c, Acts P U w (body w p c)) : Acts P U w (w.forComms body) := by
  unfold forComms
  generalize w.sss.communities.entries.map Prod.fst = ps
  induction ps generalizing w with
  | nil => exact .refl w
  | cons p ps ih =>
    rw [List.foldl_cons]
    refine Acts.trans ?_ (ih _)
    cases hget : w.sss.communities.get? p with
    | none => exact .refl w
    | some c => exact h w p c

theorem sendReRegisterSuper_acts (w : World)
    (h : ∀ e : Emission, ttlOf e.pkt.plain = defaultTtl → P e) :
    Acts P U w w.sendReRegisterSuper := by
  refine forComms_acts w _ ?_
  intro w p c
  split_ifs
  · exact .refl w
  · refine forEdges_acts w p _ ?_
    intro w' _ q edge hget
    dsimp only
    have hhead := encodeCommon_hasHeader []
      ⟨defaultTtl, msgTypeReRegisterSuper, flagsFromSupernode, c.community⟩
    generalize (encodeCommon _ _).bytes = plain at hhead
    have hseal := encryptHeader_seals w' c.keys.ctxDynamic c.keys.ivDynamic (.ofPlain plain)
      plain.length
    have hsent : ∀ e : Emission, e.target = .entry p →
        e.pkt = (w'.encryptHeader c.keys.ctxDynamic c.keys.ivDynamic (.ofPlain plain)
          plain.length).2 → P e := by
      intro e _ hpkt
      refine h e ?_
      rw [hpkt, hseal.plain_eq]
      exact hhead.ttlOf
    refine (hseal.acts P U).trans (sendtoPeer_acts _ _ _ _ _ _ hsent ?_)
    rw [hseal.sss_eq]
    exact ⟨edge, Table.mem_of_get? hget, rfl⟩
  · exact .refl w

/-! What a closed connection leaves alone, sending leaves alone. -/

section Sending

variable {I : Sn → Prop} {w : World}

theorem sendtoFdRaw_invariant
    (hclose : ∀ sss fd, I sss → I (closeTcpConnection sss (sss.findConn fd))) (hw : I w.sss)
    (fd : ℤ) (pktbuf : List UInt8) : I (w.sendtoFdRaw fd pktbuf).1.sss := by
  unfold sendtoFdRaw
  dsimp only
  split_ifs
  · exact hclose _ fd hw
  · exact hw

theorem sendtoFd_invariant
    (hclose : ∀ sss fd, I sss → I (closeTcpConnection sss (sss.findConn fd))) (hw : I w.sss)
    (fd : ℤ) (socket : Sock) (pktbuf : List UInt8) (policy : TransportPolicy) :
    I (w.sendtoFd fd socket pktbuf policy).1.sss := by
  unfold sendtoFd
  dsimp only
  split_ifs
  · exact hw
  · exact sendtoFdRaw_invariant hclose (w := (w.kcpSnSend _).1) hw fd pktbuf
  · exact sendtoFdRaw_invariant hclose hw fd pktbuf

theorem sendtoPeer_invariant
    (hclose : ∀ sss fd, I sss → I (closeTcpConnection sss (sss.findConn fd))) (hw : I w.sss)
    (comm : ℕ) (peer : PeerInfo) (pkt : Pkt) (drop : Bool) (policy : TransportPolicy) :
    I (w.sendtoPeer comm peer pkt drop policy).1.sss := by
  have hfd : ∀ (v : World) fd socket pktbuf, I v.sss →
      I (v.sendtoFd fd socket pktbuf policy).1.sss :=
    fun v fd socket pktbuf hv => sendtoFd_invariant hclose hv fd socket pktbuf policy
  unfold sendtoPeer sendtoSock sendFrame
  dsimp only
  generalize (if 0 ≤ peer.socketFd then peer.socketFd else w.sss.sock) = fd
  split_ifs
  · exact hw
  · exact hfd _ fd _ _ hw
  · exact hfd _ fd _ _ (hfd _ fd _ _ hw)
  · exact hfd _ fd _ _ hw
  · exact hw

/-- So do the RE_REGISTER_SUPERs. -/
theorem sendReRegisterSuper_invariant
    (hclose : ∀ sss fd, I sss → I (closeTcpConnection sss (sss.findConn fd))) (hw : I w.sss) :
    I w.sendReRegisterSuper.sss := by
  refine w.forComms_invariant (I := fun v => I v.sss) hw ?_
  intro v p c hv
  split_ifs
  · exact hv
  · refine v.forEdges_invariant p (I := fun v => I v.sss) hv ?_
    intro v' hv' _ edge _
    dsimp only
    refine sendtoPeer_invariant hclose ?_ _ _ _ _ _
    rw [(encryptHeader_seals v' _ _ _ _).sss_eq]
    exact hv'
  · exact hv

/-- The REGISTER_SUPERs to the federation change its entries as well. -/
theorem reRegisterSupernodes_invariant
    (hclose : ∀ sss fd, I sss → I (closeTcpConnection sss (sss.findConn fd)))
    (hedges : ∀ (sss : Sn) f, I sss → I (sss.modifyEdges w.sss.federation f)) (hw : I w.sss) :
    I w.reRegisterSupernodes.sss := by
  refine w.forEdges_invariant w.sss.federation (I := fun v => I v.sss) hw ?_
  intro v hv p peer _
  unfold reRegister
  split
  · exact hv
  · dsimp only
    refine sendtoPeer_invariant hclose ?_ _ _ _ _ _
    rw [(encryptHeader_seals _ _ _ _ _).sss_eq]
    exact hedges v.sss (·.modify p fun e => { e with lastCookie := v.rand.2.toUInt32 }) hv

end Sending

theorem sendReRegisterSuper_keyTime (w : World) :
    w.sendReRegisterSuper.sss.dynamicKeyTime = w.sss.dynamicKeyTime :=
  sendReRegisterSuper_invariant (I := fun sss => sss.dynamicKeyTime = w.sss.dynamicKeyTime)
    (fun sss _ h => (closeTcpConnection_keyTime sss _).trans h) rfl

/-- The key time of another supernode. -/
theorem takeKeyTime_acts (w : World) (keyTime : UInt32)
    (h : ∀ e : Emission, ttlOf e.pkt.plain = defaultTtl → P e) :
    Acts P U w (w.takeKeyTime keyTime) := by
  unfold takeKeyTime
  split_ifs with htime
  · unfold newKeyTime
    refine (sendReRegisterSuper_acts w h).trans ?_
    refine (Act.keyTime keyTime ?_).acts.trans ?_
    · rwa [sendReRegisterSuper_keyTime]
    · exact reRegisterSupernodes_acts _ h
  · exact (Act.noteKeyTime keyTime htime).acts

end World

theorem Sn.edges_modifyEdges_get? (sss : Sn) (p : ℕ) (f : Table PeerInfo → Table PeerInfo)
    (hf : f .empty = .empty) : (sss.modifyEdges p f).edges p = f (sss.edges p) := by
  cases h : sss.communities.get? p with
  | some c => exact Sn.edges_modifyEdges_self h f
  | none =>
    have h' : (sss.modifyEdges p f).communities.get? p = none := by
      unfold Sn.modifyEdges Sn.modifyComm
      rw [Table.get?_modify, if_pos rfl, h]
      rfl
    rw [Sn.edges, Sn.edges, h, h']
    exact hf.symm

theorem Sn.purgePeer_edges (sss : Sn) (p q : ℕ) (e : PeerInfo) :
    (sss.purgePeer p q e).edges p = (sss.edges p).del q := by
  unfold Sn.purgePeer
  dsimp only
  rw [Sn.edges_modifyEdges_get? _ p (·.del q) rfl]
  congr 1
  split_ifs
  · split <;> rfl
  · rfl

namespace World

theorem purgePeerList_acts (w : World) (comm : ℕ) (purgeBefore : ℤ) :
    Acts P U w (w.setSss (·.purgePeerList comm purgeBefore)) := by
  unfold Sn.purgePeerList
  -- the entries that are still to come are in the table
  suffices hloop : ∀ (l : List (ℕ × PeerInfo)), (l.map Prod.fst).Nodup → ∀ w : World,
      (∀ e ∈ l, (w.sss.edges comm).get? e.1 = some e.2) →
      Acts P U w (w.setSss fun sss => l.foldl (fun sss e =>
        if e.2.purgeable && e.2.lastSeen < purgeBefore then sss.purgePeer comm e.1 e.2 else sss)
        sss) from
    hloop _ (w.sss.edges comm).nodup w fun e he => Table.get?_eq_some.mpr he
  intro l
  induction l with
  | nil => exact fun _ w _ => .refl w
  | cons e l ih =>
    intro hnodup w hget
    rw [List.map_cons, List.nodup_cons] at hnodup
    have hrest : ∀ e' ∈ l, (w.sss.edges comm).get? e'.1 = some e'.2 :=
      fun e' he' => hget e' (List.mem_cons_of_mem _ he')
    simp only [List.foldl_cons]
    by_cases hold : (e.2.purgeable && decide (e.2.lastSeen < purgeBefore)) = true
    · simp only [hold, if_true]
      refine (Act.purge comm e.1 e.2 (hget e List.mem_cons_self)).acts.trans ?_
      refine ih hnodup.2 (w.setSss (·.purgePeer comm e.1 e.2)) ?_
      intro e' he'
      change ((w.sss.purgePeer comm e.1 e.2).edges comm).get? e'.1 = _
      have hne : e'.1 ≠ e.1 := by
        rintro heq
        exact hnodup.1 (heq ▸ List.mem_map_of_mem he')
      rw [Sn.purgePeer_edges, Table.get?_del, if_neg hne]
      exact hrest e' he'
    · simp only [hold]
      exact ih hnodup.2 w hrest

theorem reRegisterAndPurgeSupernodes_acts (w : World) (last now : ℤ)
    (h : ∀ e : Emission, ttlOf e.pkt.plain = defaultTtl → P e) :
    Acts P U w (w.reRegisterAndPurgeSupernodes last now).1 := by
  unfold reRegisterAndPurgeSupernodes
  dsimp only
  split_ifs with hlast htime
  · exact .refl w
  · exact w.time_acts.trans
      (forEdges_reRegister_acts w.time.1 (fun peer => now - peer.lastSeen ≤ lastSeenSnActive) h)
  · have hpurge := purgePeerList_acts (P := P) (U := U) w.time.1 w.time.1.sss.federation
      (w.time.2 - lastSeenSnInactive)
    have hrereg := forEdges_reRegister_acts (P := P) (U := U)
      (w.time.1.setSss
        (·.purgePeerList w.time.1.sss.federation (w.time.2 - lastSeenSnInactive)))
      (fun peer => now - peer.lastSeen ≤ lastSeenSnActive) h
    rw [hpurge.federation_eq] at hrereg
    exact w.time_acts.trans (hpurge.trans hrereg)

theorem purgeIdle_acts (w : World) (comm : ℕ) : Acts P U w (w.setSss (·.purgeIdle comm)) := by
  unfold Sn.purgeIdle setSss
  dsimp only
  split
  · rename_i c hget
    split_ifs with hidle
    · exact (Act.delComm comm ⟨c, hget, (Bool.and_eq_true _ _ ▸ hidle).2⟩).acts
    · exact .refl w
  · exact .refl w

theorem purgeCommunity_acts (w : World) (comm : ℕ) (now : ℤ) :
    Acts P U w (w.setSss (·.purgeCommunity comm now)) := by
  refine (purgePeerList_acts w comm (now - registrationTimeout)).trans ?_
  refine (Act.comm comm (fun c => { c with assoc := purgeAssoc c.assoc now })
    (fun c => rfl) fun c h => purgeAssoc_distinct h now).acts.trans ?_
  exact purgeIdle_acts _ comm

theorem purgeExpiredCommunities_acts (w : World) (last now : ℤ) :
    Acts P U w (w.setSss fun sss => (sss.purgeExpiredCommunities last now).1) := by
  unfold Sn.purgeExpiredCommunities setSss
  dsimp only
  split_ifs
  · exact .refl w
  · dsimp only
    generalize w.sss.communities.entries = l
    induction l generalizing w with
    | nil => exact .refl w
    | cons e l ih =>
      rw [List.foldl_cons]
      by_cases hfed : e.2.isFederation = true
      · simp only [hfed, if_true]
        exact ih w
      · simp only [hfed]
        exact (purgeCommunity_acts w e.1 now).trans (ih (w.setSss (·.purgeCommunity e.1 now)))

theorem sortCommunities_acts (w : World) (last now : ℤ) :
    Acts P U w (w.setSss fun sss => (sss.sortCommunities last now).1) := by
  unfold Sn.sortCommunities setSss
  dsimp only
  split_ifs
  · exact .refl w
  · exact (Act.sortComms numberEncPacketsLe).acts

end World

end N2n
