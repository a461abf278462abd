import N2nTun.EdgeSockets
import N2nTun.KeyAgreement
import N2nTun.MacKeys
import N2nTun.Replay
import N2nTun.Relay

/-!
# What an UNREGISTER_SUPER removes

The handler of UNREGISTER_SUPER is meant to ignore other supernodes and the federation, and to
remove one edge otherwise: the sender's own.  It looks for the flag of the supernodes as if it
were 1, and a peer that came over TCP is removed by its descriptor.

## Main definitions

* `Sn.peerByFd`, `Sn.dropped` — the entry that goes with a connection, and with a peer.
* `World.Unregisters` — the edge that an UNREGISTER_SUPER is accepted for.
* `UnregisterLawful` — what an UNREGISTER_SUPER may do.
* `UnregisterGuarded` — when it does no more than that.

## Main results

* `World.handleUnregisterSuper_peerAt` — the peers after the handler.
* `unregisterLawful_iff` — **an UNREGISTER_SUPER does what it may exactly under this condition.**
-/

namespace N2n

open Machines

/-! ### The peer of a connection -/

/-- The peer that `close_tcp_connection` removes: the first one with the descriptor. -/
def Sn.peerByFd (sss : Sn) (fd : ℤ) : Option (ℕ × ℕ) :=
  (sss.communities.first? fun c => (c.edgeByFd fd).isSome).bind fun e =>
    (e.2.edgeByFd fd).map fun edge => (e.1, edge.1)

/-- What is removed with the peer at `p` of the community `comm`, whose descriptor is `fd`. -/
def Sn.dropped (sss : Sn) (comm p : ℕ) (fd : ℤ) : Option (ℕ × ℕ) :=
  if sss.isTcp fd then if (sss.findConn fd).isSome then sss.peerByFd fd else none
  else some (comm, p)

/-- The structure of a peer. -/
def Sn.peerAt (sss : Sn) (p q : ℕ) : Option PeerInfo := (sss.edges p).get? q

namespace Sn

variable {sss : Sn}

theorem peerAt_modifyEdges (sss : Sn) (p : ℕ) {f : Table PeerInfo → Table PeerInfo}
    (hf : f .empty = .empty) (r q : ℕ) :
    (sss.modifyEdges p f).peerAt r q =
      if r = p then (f (sss.edges p)).get? q else sss.peerAt r q := by
  unfold Sn.peerAt
  split_ifs with hr
  · rw [hr, Sn.edges_modifyEdges_get? sss p f hf]
  · rw [Sn.edges, Sn.modifyEdges, Sn.modifyComm, Table.get?_modify, if_neg hr, Sn.edges]

theorem peerAt_del (sss : Sn) (p q r s : ℕ) :
    (sss.modifyEdges p (·.del q)).peerAt r s =
      if (p, q) = (r, s) then none else sss.peerAt r s := by
  rw [Sn.peerAt_modifyEdges sss p rfl]
  by_cases hr : r = p
  · rw [if_pos hr, Table.get?_del, hr, Sn.peerAt]
    by_cases hs : s = q
    · rw [if_pos hs, if_pos (by rw [hs])]
    · rw [if_neg hs, if_neg fun h => hs (Prod.mk.inj h).2.symm]
  · rw [if_neg hr, if_neg fun h => hr (Prod.mk.inj h).1.symm]

/-- The peer with a descriptor. -/
theorem peerByFd_eq_some {fd : ℤ} {p q : ℕ} (h : sss.peerByFd fd = some (p, q)) :
    ∃ e, sss.peerAt p q = some e ∧ e.socketFd = fd := by
  obtain ⟨⟨p', c⟩, hfirst, hedge⟩ := Option.bind_eq_some_iff.mp h
  obtain ⟨⟨q', e⟩, hfound, heq⟩ := Option.map_eq_some_iff.mp hedge
  cases heq
  refine ⟨e, ?_, ?_⟩
  · rw [Sn.peerAt, Sn.edges_of_get? (Table.first?_eq_some hfirst).1]
    exact (Table.first?_eq_some hfound).1
  · simpa using (Table.first?_eq_some hfound).2

/-- Where a descriptor is in use, there is a first peer with it. -/
theorem peerByFd_isSome {p q : ℕ} {e : PeerInfo} (h : sss.peerAt p q = some e) :
    (sss.peerByFd e.socketFd).isSome = true := by
  unfold Sn.peerAt Sn.edges at h
  cases hget : sss.communities.get? p with
  | none =>
    rw [hget] at h
    cases h
  | some c =>
    rw [hget] at h
    have hedge : (c.edgeByFd e.socketFd).isSome = true := by
      rw [Option.isSome_iff_ne_none, ne_eq, Community.edgeByFd, Table.first?_eq_none]
      intro hno
      have := hno e (Table.mem_of_get? h)
      simp at this
    unfold Sn.peerByFd
    cases hfirst : sss.communities.first? fun c => (c.edgeByFd e.socketFd).isSome with
    | none =>
      have := Table.first?_eq_none.mp hfirst c (Table.mem_of_get? hget)
      rw [hedge] at this
      cases this
    | some found =>
      have := (Table.first?_eq_some hfirst).2
      rw [Option.bind_some, Option.isSome_map]
      exact this

/-- The first peer with the descriptor is removed from its table. -/
theorem removePeerByFd_eq {fd : ℤ} {p q : ℕ} {c : Community} {e : PeerInfo}
    (hfirst : sss.communities.first? (fun c => (c.edgeByFd fd).isSome) = some (p, c))
    (hedge : c.edgeByFd fd = some (q, e)) :
    sss.removePeerByFd fd = sss.modifyEdges p (·.del q) := by
  unfold Sn.removePeerByFd
  rw [hfirst]
  dsimp only
  unfold Sn.modifyEdges Sn.modifyComm
  congr 1
  refine Table.modify_congr (Table.first?_eq_some hfirst).1 ?_
  dsimp only
  rw [hedge]

theorem removePeerByFd_peerAt (sss : Sn) (fd : ℤ) (r s : ℕ) :
    (sss.removePeerByFd fd).peerAt r s =
      if sss.peerByFd fd = some (r, s) then none else sss.peerAt r s := by
  unfold Sn.peerByFd
  cases hfirst : sss.communities.first? fun c => (c.edgeByFd fd).isSome with
  | none =>
    rw [Option.bind_none, if_neg nofun, Sn.removePeerByFd, hfirst]
  | some found =>
    obtain ⟨p, c⟩ := found
    obtain ⟨⟨q, e⟩, hedge⟩ := Option.isSome_iff_exists.mp (Table.first?_eq_some hfirst).2
    rw [Sn.removePeerByFd_eq hfirst hedge, Sn.peerAt_del, Option.bind_some]
    dsimp only at hedge ⊢
    rw [hedge, Option.map_some]
    simp only [Option.some.injEq]

/-! ### A stamp is written -/

/-- A write to the last valid stamp of one peer. -/
def restamp (sss : Sn) (p q : ℕ) (stamp : PeerInfo → UInt64) : Sn :=
  sss.modifyEdges p (·.modify q fun e => { e with lastValidTimeStamp := stamp e })

theorem restamp_peerAt (sss : Sn) (p q : ℕ) (stamp : PeerInfo → UInt64) (r s : ℕ) :
    (sss.restamp p q stamp).peerAt r s = (sss.peerAt r s).map fun e =>
      if r = p ∧ s = q then { e with lastValidTimeStamp := stamp e } else e := by
  rw [Sn.restamp, Sn.peerAt_modifyEdges sss p rfl]
  by_cases hr : r = p
  · rw [if_pos hr, Table.get?_modify, hr, Sn.peerAt]
    by_cases hs : s = q
    · simp [hs]
    · simp [hs]
  · simp [hr]

/-- The peers with a MAC are the same. -/
theorem restamp_find? (sss : Sn) (p q : ℕ) (stamp : PeerInfo → UInt64) (comm : ℕ) (mac : Mac) :
    ∃ stamp' : ℕ × PeerInfo → UInt64, ((sss.restamp p q stamp).edges comm).find? (·.hasMac mac) =
      ((sss.edges comm).find? (·.hasMac mac)).map fun e =>
        (e.1, { e.2 with lastValidTimeStamp := stamp' e }) := by
  by_cases hcomm : comm = p
  · refine ⟨fun e => if e.1 = q then stamp e.2 else e.2.lastValidTimeStamp, ?_⟩
    rw [hcomm, Sn.restamp, Sn.edges_modifyEdges_get? sss p _ rfl, Table.find?_modify]
    · congr 1
      funext e
      unfold Table.updateAt
      split_ifs with hq
      · simp [hq]
      · simp [hq]
    · exact fun _ => rfl
  · refine ⟨fun e => e.2.lastValidTimeStamp, ?_⟩
    have hsame : (sss.restamp p q stamp).edges comm = sss.edges comm := by
      rw [Sn.edges, Sn.restamp, Sn.modifyEdges, Sn.modifyComm, Table.get?_modify, if_neg hcomm,
        Sn.edges]
    rw [hsame]
    simp

theorem edgeByFd_modify (c : Community) (q : ℕ) (stamp : PeerInfo → UInt64) (fd : ℤ) :
    (({ c with
        edges := c.edges.modify q fun e => { e with lastValidTimeStamp := stamp e } } :
          Community).edgeByFd fd).map Prod.fst = (c.edgeByFd fd).map Prod.fst := by
  unfold Community.edgeByFd
  dsimp only
  rw [Table.first?_modify, Option.map_map]
  · congr 1
    funext e
    exact Table.updateAt_fst _ _ _
  · exact fun _ => rfl

/-- The first peer with a descriptor is the same. -/
theorem restamp_peerByFd (sss : Sn) (p q : ℕ) (stamp : PeerInfo → UInt64) (fd : ℤ) :
    (sss.restamp p q stamp).peerByFd fd = sss.peerByFd fd := by
  have hby : ∀ c : Community, (c.edgeByFd fd).map (fun edge : ℕ × PeerInfo => edge.1) =
      (c.edgeByFd fd).map Prod.fst := fun c => rfl
  have hstop : ∀ c : Community, (({ c with
      edges := c.edges.modify q fun e => { e with lastValidTimeStamp := stamp e } } :
        Community).edgeByFd fd).isSome = (c.edgeByFd fd).isSome := by
    intro c
    rw [← Option.isSome_map (f := Prod.fst), Sn.edgeByFd_modify, Option.isSome_map]
  unfold Sn.peerByFd Sn.restamp Sn.modifyEdges Sn.modifyComm
  dsimp only
  rw [Table.first?_modify _ _ hstop, Option.bind_map]
  congr 1
  funext e
  unfold Table.updateAt
  rw [Function.comp_apply]
  split_ifs
  · have hpair : ∀ o : Option (ℕ × PeerInfo), (o.map fun edge => (e.1, edge.1)) =
        (o.map Prod.fst).map (Prod.mk e.1) := fun o => by cases o <;> rfl
    rw [hpair, Sn.edgeByFd_modify, ← hpair]
  · rfl

theorem restamp_self (sss : Sn) (p q : ℕ) : sss.restamp p q PeerInfo.lastValidTimeStamp = sss := by
  have hcomm : (fun c : Community => { c with edges := c.edges.modify q id }) = id := by
    funext c
    rw [Table.modify_id]
    rfl
  have hmodify : sss.communities.modify p (fun c => { c with edges := c.edges.modify q id }) =
      sss.communities := by
    rw [hcomm, Table.modify_id]
  show { sss with communities := sss.communities.modify p _ } = sss
  exact congrArg (fun t => { sss with communities := t }) hmodify

end Sn

/-! ### The check and the removal -/

namespace World

/-- The check of a message writes a stamp, at most. -/
theorem checkStamp_restamp_sss (v : World) (comm : ℕ) (d : Dispatch) (mac : Mac) (jitter : Bool) :
    ∃ p q stamp, (v.checkStamp comm d mac jitter).1.sss = v.sss.restamp p q stamp := by
  rcases v.checkStamp_cases comm d mac jitter with heq | ⟨p, q, stamp, heq⟩
  · exact ⟨0, 0, _, heq.trans (v.sss.restamp_self 0 0).symm⟩
  · exact ⟨p, q, stamp, heq⟩

/-- The peers after a peer has been dropped. -/
theorem dropPeer_peerAt (w : World) (comm p : ℕ) (fd : ℤ) (r s : ℕ) :
    (w.dropPeer comm p fd).sss.peerAt r s =
      if w.sss.dropped comm p fd = some (r, s) then none else w.sss.peerAt r s := by
  unfold World.dropPeer Sn.dropped
  by_cases htcp : w.sss.isTcp fd = true
  · rw [if_pos htcp, if_pos htcp]
    show (closeTcpConnection w.sss (w.sss.findConn fd)).peerAt r s = _
    cases hfind : w.sss.findConn fd with
    | none => simp [closeTcpConnection]
    | some conn =>
      have hfd : conn.2.socketFd = fd := by simpa using (Table.find?_eq_some hfind).2
      have hsame : (closeTcpConnection w.sss (some conn)).peerAt r s =
          (w.sss.removePeerByFd conn.2.socketFd).peerAt r s := rfl
      rw [hsame, hfd, Sn.removePeerByFd_peerAt, Option.isSome_some, if_pos rfl]
  · rw [if_neg htcp, if_neg htcp]
    show (w.sss.modifyEdges comm (·.del p)).peerAt r s = _
    rw [Sn.peerAt_del]
    simp only [Option.some.injEq]

/-- Without a connection none is closed. -/
theorem dropPeer_conns {w : World} {comm p : ℕ} {fd : ℤ} (h : w.sss.findConn fd = none) :
    (w.dropPeer comm p fd).sss.tcpConnections = w.sss.tcpConnections := by
  unfold World.dropPeer
  split_ifs
  · show (closeTcpConnection w.sss (w.sss.findConn fd)).tcpConnections = _
    rw [h]
    rfl
  · rfl

end World

/-! ### The handler -/

/-- The message, if it is an UNREGISTER_SUPER. -/
def Dispatch.unregisterSuper (d : Dispatch) : UnregisterSuper :=
  (decodeUnregisterSuper d.udpBuf d.cur).out

/-- The flag is bit 5, so that it is never 1. -/
theorem Dispatch.fromSupernode_ne_one (d : Dispatch) : d.fromSupernode ≠ 1 := by
  intro h
  have hflag : (d.cmn.flags &&& flagsFromSupernode).toNat =
      (d.cmn.flags.toNat.testBit 5).toNat * 2 ^ 5 := by
    rw [UInt16.toNat_and, ← Nat.and_two_pow]
    rfl
  have hone := congrArg UInt8.toNat h
  rw [Dispatch.fromSupernode, UInt16.toNat_toUInt8, hflag] at hone
  have hsmall : ∀ b : Bool, b.toNat * 2 ^ 5 % 2 ^ 8 ≠ UInt8.toNat 1 := by decide
  exact hsmall _ hone

/-- The stamp of the message is accepted, there is an edge with its MAC, and the token is the
one that is stored for this edge: the entry at `p`. -/
structure World.Unregisters (v : World) (d : Dispatch) (comm p : ℕ) (e : PeerInfo) : Prop where
  stamp : (v.checkStamp comm d d.unregisterSuper.srcMac false).2 = true
  edge : (v.sss.edges comm).find? (·.hasMac d.unregisterSuper.srcMac) = some (p, e)
  auth : ∃ c, v.sss.communities.get? comm = some c ∧
    (authEdge e.auth d.unregisterSuper.auth Auth.zero c).1 = true

namespace World

variable {v : World} {d : Dispatch} {comm : ℕ}

/-- The state after the check. -/
def stamped (v : World) (comm : ℕ) (d : Dispatch) : Sn :=
  (v.checkStamp comm d d.unregisterSuper.srcMac false).1.sss

theorem Unregisters.peerAt {p : ℕ} {e : PeerInfo} (h : v.Unregisters d comm p e) :
    v.sss.peerAt comm p = some e :=
  (Table.find?_eq_some h.edge).1

/-- Only one edge is unregistered. -/
theorem Unregisters.unique {p p' : ℕ} {e e' : PeerInfo} (h : v.Unregisters d comm p e)
    (h' : v.Unregisters d comm p' e') : p = p' ∧ e = e' :=
  Prod.mk.inj (Option.some.inj (h.edge.symm.trans h'.edge))

/-- The handler without the test for the flag, which always fails. -/
theorem handleUnregisterSuper_eq {c : Community} (hget : v.sss.communities.get? comm = some c)
    (hfed : c.isFederation = false) :
    v.handleUnregisterSuper d comm =
      afterCheck (v.checkFresh comm d d.unregisterSuper.srcMac) fun w =>
        match (w.sss.edges comm).find? (·.hasMac d.unregisterSuper.srcMac) with
        | none => w
        | some (p, peer) =>
          if (authEdge peer.auth d.unregisterSuper.auth Auth.zero c).1 then
            w.dropPeer comm p peer.socketFd
          else w := by
  unfold World.handleUnregisterSuper
  rw [hget]
  dsimp only
  rw [if_neg]
  · rfl
  · rw [hfed, not_or]
    exact ⟨d.fromSupernode_ne_one, Bool.false_ne_true⟩

theorem checkFresh_snd (v : World) (comm : ℕ) (d : Dispatch) (mac : Mac) :
    (v.checkFresh comm d mac).2 = (v.checkStamp comm d mac false).2 := by
  unfold World.checkFresh
  split <;> rename_i heq <;> rw [heq]

/-- The edge that is looked up after the check. -/
theorem checkFresh_find? (v : World) (comm : ℕ) (d : Dispatch) (mac mac' : Mac) :
    ∃ stamp : ℕ × PeerInfo → UInt64,
      ((v.checkFresh comm d mac).1.sss.edges comm).find? (·.hasMac mac') =
        ((v.sss.edges comm).find? (·.hasMac mac')).map fun e =>
          (e.1, { e.2 with lastValidTimeStamp := stamp e }) := by
  obtain ⟨p, q, stamp, heq⟩ := v.checkStamp_restamp_sss comm d mac false
  rw [World.checkFresh_sss, heq]
  exact v.sss.restamp_find? p q stamp comm mac'

/-- **A message that is not accepted removes nothing.** -/
theorem handleUnregisterSuper_of_rejected {c : Community}
    (hget : v.sss.communities.get? comm = some c) (hfed : c.isFederation = false)
    (hno : ∀ p e, ¬ v.Unregisters d comm p e) :
    (v.handleUnregisterSuper d comm).sss = v.stamped comm d := by
  have hsss : (v.checkFresh comm d d.unregisterSuper.srcMac).1.sss = v.stamped comm d :=
    World.checkFresh_sss v comm d _
  rw [handleUnregisterSuper_eq hget hfed, World.afterCheck]
  split_ifs with hcheck
  · obtain ⟨stamp, hfind⟩ := v.checkFresh_find? comm d d.unregisterSuper.srcMac
      d.unregisterSuper.srcMac
    cases hbefore : (v.sss.edges comm).find? (·.hasMac d.unregisterSuper.srcMac) with
    | none =>
      rw [hbefore, Option.map_none] at hfind
      rw [hfind]
      exact hsss
    | some found =>
      obtain ⟨p, e⟩ := found
      rw [hbefore, Option.map_some] at hfind
      rw [hfind]
      dsimp only
      split_ifs with hauth
      · exact absurd ⟨v.checkFresh_snd comm d _ ▸ hcheck, hbefore, c, hget, hauth⟩ (hno p e)
      · exact hsss
  · exact hsss

/-- The check does not change what goes with a peer. -/
theorem stamped_dropped (v : World) (comm : ℕ) (d : Dispatch) (p : ℕ) (fd : ℤ) :
    (v.stamped comm d).dropped comm p fd = v.sss.dropped comm p fd := by
  obtain ⟨r, s, stamp, heq⟩ := v.checkStamp_restamp_sss comm d d.unregisterSuper.srcMac false
  rw [World.stamped, heq]
  unfold Sn.dropped
  rw [Sn.restamp_peerByFd]
  rfl

/-- **A message that is accepted removes the peer that the edge's descriptor leads to.** -/
theorem handleUnregisterSuper_of_accepted {p : ℕ} {e : PeerInfo} {c : Community}
    (hget : v.sss.communities.get? comm = some c) (hfed : c.isFederation = false)
    (h : v.Unregisters d comm p e) :
    ∃ v₁ : World, v₁.sss = v.stamped comm d ∧
      v.handleUnregisterSuper d comm = v₁.dropPeer comm p e.socketFd := by
  refine ⟨(v.checkFresh comm d d.unregisterSuper.srcMac).1, World.checkFresh_sss v comm d _, ?_⟩
  obtain ⟨c', hget', hauth⟩ := h.auth
  obtain rfl := Option.some.inj (hget.symm.trans hget')
  obtain ⟨stamp, hfind⟩ := v.checkFresh_find? comm d d.unregisterSuper.srcMac
    d.unregisterSuper.srcMac
  rw [h.edge, Option.map_some] at hfind
  rw [handleUnregisterSuper_eq hget hfed, World.afterCheck,
    if_pos ((v.checkFresh_snd comm d _).trans h.stamp), hfind]
  dsimp only
  rw [if_pos hauth]

theorem stamped_conns (v : World) (comm : ℕ) (d : Dispatch) :
    (v.stamped comm d).tcpConnections = v.sss.tcpConnections := by
  obtain ⟨r, s, stamp, heq⟩ := v.checkStamp_restamp_sss comm d d.unregisterSuper.srcMac false
  rw [World.stamped, heq]
  rfl

/-- The check removes no peer. -/
theorem stamped_peerAt (v : World) (comm : ℕ) (d : Dispatch) {p q : ℕ} {e : PeerInfo}
    (h : v.sss.peerAt p q = some e) :
    ∃ e', (v.stamped comm d).peerAt p q = some e' := by
  obtain ⟨r, s, stamp, heq⟩ := v.checkStamp_restamp_sss comm d d.unregisterSuper.srcMac false
  rw [World.stamped, heq, Sn.restamp_peerAt, h]
  exact ⟨_, rfl⟩

/-- What goes with an edge is there before. -/
theorem Unregisters.dropped_peerAt {p r s : ℕ} {e : PeerInfo} (h : v.Unregisters d comm p e)
    (hdrop : v.sss.dropped comm p e.socketFd = some (r, s)) :
    ∃ e', v.sss.peerAt r s = some e' := by
  unfold Sn.dropped at hdrop
  split_ifs at hdrop
  · obtain ⟨e', he', -⟩ := Sn.peerByFd_eq_some hdrop
    exact ⟨e', he'⟩
  · obtain ⟨rfl, rfl⟩ := Prod.mk.inj (Option.some.inj hdrop)
    exact ⟨e, h.peerAt⟩

/-- Nothing goes with an edge whose connection is not there any more. -/
theorem Unregisters.dropped_eq_none {p : ℕ} {e : PeerInfo} (h : v.Unregisters d comm p e) :
    v.sss.dropped comm p e.socketFd = none ↔
      v.sss.isTcp e.socketFd = true ∧ v.sss.findConn e.socketFd = none := by
  have hfirst := Sn.peerByFd_isSome h.peerAt
  unfold Sn.dropped
  split_ifs with htcp hconn
  · rw [Option.isSome_iff_ne_none] at hfirst hconn
    simp [hfirst, hconn]
  · simpa [htcp] using hconn
  · simp [htcp]

theorem handleUnregisterSuper_peerAt {p : ℕ} {e : PeerInfo} {c : Community}
    (hget : v.sss.communities.get? comm = some c) (hfed : c.isFederation = false)
    (h : v.Unregisters d comm p e) (r s : ℕ) :
    (v.handleUnregisterSuper d comm).sss.peerAt r s =
      if v.sss.dropped comm p e.socketFd = some (r, s) then none
      else (v.stamped comm d).peerAt r s := by
  obtain ⟨v₁, hsss, heq⟩ := handleUnregisterSuper_of_accepted hget hfed h
  rw [heq, World.dropPeer_peerAt, hsss, v.stamped_dropped]

end World

/-! ### What the message may do -/

/-- Every peer is still there, with the last valid stamp it had, and all connections are what
they were. -/
structure Sn.Untouched (sss sss' : Sn) : Prop where
  conns : sss'.tcpConnections = sss.tcpConnections
  peers : ∀ p q e, sss.peerAt p q = some e →
    ∃ e', sss'.peerAt p q = some e' ∧ e'.lastValidTimeStamp = e.lastValidTimeStamp

theorem Sn.Untouched.refl (sss : Sn) : sss.Untouched sss := ⟨rfl, fun _ _ e he => ⟨e, he, rfl⟩⟩

/-- Of the peers only the sender's own edge may be gone, in its own community, and only if its
token is the stored one. -/
def World.RemovesOwn (v : World) (d : Dispatch) (sss' : Sn) : Prop :=
  ∀ p q e, v.sss.peerAt p q = some e → sss'.peerAt p q = none →
    d.comm = some p ∧ (v.sss.edges p).find? (·.hasMac d.unregisterSuper.srcMac) = some (q, e) ∧
      ∃ c, v.sss.communities.get? p = some c ∧
        (authEdge e.auth d.unregisterSuper.auth Auth.zero c).1 = true

/-- The stamp of the message is not later than the last valid one of the peer it is checked
against, or it is rejected; with plain headers there is no check. -/
def World.StampStays (v : World) (d : Dispatch) (comm : ℕ) : Prop :=
  v.isEnabled comm = true → ∀ p q e,
    v.stampHolder comm d.sn d.unregisterSuper.srcMac = some (p, q, e) →
      (timeStampVerifyAndUpdate d.stamp v.timeStamp.2 (some e.lastValidTimeStamp) false).1 = true →
        ¬ e.lastValidTimeStamp < d.stamp

namespace World

variable {v : World} {d : Dispatch} {comm : ℕ}

/-- Without a later stamp the check changes no stamp. -/
theorem StampStays.peerAt (h : v.StampStays d comm) {p q : ℕ} {e : PeerInfo}
    (he : v.sss.peerAt p q = some e) :
    ∃ e', (v.stamped comm d).peerAt p q = some e' ∧
      e'.lastValidTimeStamp = e.lastValidTimeStamp := by
  unfold World.stamped World.checkStamp
  split_ifs with hen
  · unfold World.findEdgeTimeStampAndVerify
    dsimp only
    cases hholder : v.stampHolder comm d.sn d.unregisterSuper.srcMac with
    | none => exact ⟨e, he, rfl⟩
    | some holder =>
      obtain ⟨r, s, e₀⟩ := holder
      have hstays := h hen r s e₀ hholder
      have he₀ : v.sss.peerAt r s = some e₀ := World.stampHolder_get? hholder
      have hkept := getD_timeStampVerify hstays
      dsimp only
      have hpeer := v.sss.restamp_peerAt r s (fun e => (timeStampVerifyAndUpdate d.stamp
        v.timeStamp.2 (some e₀.lastValidTimeStamp) false).2.getD e.lastValidTimeStamp) p q
      rw [he, Option.map_some] at hpeer
      refine ⟨_, hpeer, ?_⟩
      split_ifs with hhere
      · obtain ⟨rfl, rfl⟩ := hhere
        obtain rfl := Option.some.inj (he.symm.trans he₀)
        exact hkept
      · rfl
  · exact ⟨e, he, rfl⟩

/-- Otherwise it changes one. -/
theorem StampStays.of_peerAt
    (h : ∀ p q e e', v.sss.peerAt p q = some e → (v.stamped comm d).peerAt p q = some e' →
      e'.lastValidTimeStamp = e.lastValidTimeStamp) : v.StampStays d comm := by
  intro hen p q e hholder hok hlt
  have he : v.sss.peerAt p q = some e := World.stampHolder_get? hholder
  have hpeer : (v.stamped comm d).peerAt p q =
      some { e with lastValidTimeStamp := d.stamp } := by
    unfold World.stamped World.checkStamp World.findEdgeTimeStampAndVerify
    rw [if_pos hen, hholder]
    dsimp only
    rw [timeStampVerify_of_lt hok hlt]
    have hwrite := v.sss.restamp_peerAt p q (fun _ => d.stamp) p q
    rw [he, Option.map_some, if_pos ⟨rfl, rfl⟩] at hwrite
    exact hwrite
  have hsame := h p q e _ he hpeer
  dsimp only at hsame
  rw [hsame] at hlt
  exact absurd hlt (UInt64.lt_irrefl _)

/-! ### One community -/

section Handler

variable {c : Community} (hget : v.sss.communities.get? comm = some c)
  (hfed : c.isFederation = false)

include hget hfed

/-- A message that is to have no effect has none, exactly if its stamp changes nothing and the
edge it names is not there, or has lost its connection. -/
theorem untouched_iff :
    v.sss.Untouched (v.handleUnregisterSuper d comm).sss ↔
      v.StampStays d comm ∧ ∀ p e, v.Unregisters d comm p e →
        v.sss.isTcp e.socketFd = true ∧ v.sss.findConn e.socketFd = none := by
  constructor
  · intro h
    have hdropped : ∀ p e, v.Unregisters d comm p e →
        v.sss.dropped comm p e.socketFd = none := by
      intro p e hacc
      rw [Option.eq_none_iff_forall_ne_some]
      rintro ⟨r, s⟩ hdrop
      have hpeer := handleUnregisterSuper_peerAt hget hfed hacc r s
      rw [if_pos hdrop] at hpeer
      obtain ⟨e', he'⟩ := hacc.dropped_peerAt hdrop
      obtain ⟨_, hstill, -⟩ := h.peers r s e' he'
      rw [hpeer] at hstill
      cases hstill
    refine ⟨.of_peerAt fun p q e e' he he' => ?_, fun p e hacc => ?_⟩
    · obtain ⟨e'', hstill, hstamp⟩ := h.peers p q e he
      by_cases hacc : ∃ p e, v.Unregisters d comm p e
      · obtain ⟨p', e₁, hacc⟩ := hacc
        rw [handleUnregisterSuper_peerAt hget hfed hacc, hdropped p' e₁ hacc, if_neg nofun,
          he'] at hstill
        rwa [Option.some.inj hstill]
      · rw [handleUnregisterSuper_of_rejected hget hfed fun p e hp => hacc ⟨p, e, hp⟩, he']
          at hstill
        rwa [Option.some.inj hstill]
    · exact hacc.dropped_eq_none.mp (hdropped p e hacc)
  · rintro ⟨hstays, hgone⟩
    by_cases hacc : ∃ p e, v.Unregisters d comm p e
    · obtain ⟨p, e, hacc⟩ := hacc
      have hnone := hacc.dropped_eq_none.mpr (hgone p e hacc)
      obtain ⟨v₁, hsss, heq⟩ := handleUnregisterSuper_of_accepted hget hfed hacc
      refine ⟨?_, fun r s e' he' => ?_⟩
      · have hconn : v₁.sss.findConn e.socketFd = none := by
          rw [Sn.findConn, hsss, v.stamped_conns]
          exact (hgone p e hacc).2
        rw [heq, World.dropPeer_conns hconn, hsss, v.stamped_conns]
      · rw [handleUnregisterSuper_peerAt hget hfed hacc, hnone, if_neg nofun]
        exact hstays.peerAt he'
    · have heq := handleUnregisterSuper_of_rejected hget hfed fun p e hp => hacc ⟨p, e, hp⟩
      refine ⟨?_, fun r s e' he' => ?_⟩
      · rw [heq]
        exact v.stamped_conns comm d
      · rw [heq]
        exact hstays.peerAt he'

/-- A message removes the sender's own edge at most, exactly if this edge is the first one with
its descriptor. -/
theorem removesOwn_iff (hcomm : d.comm = some comm) :
    v.RemovesOwn d (v.handleUnregisterSuper d comm).sss ↔
      ∀ p e, v.Unregisters d comm p e → v.sss.isTcp e.socketFd = true →
        (v.sss.findConn e.socketFd).isSome = true →
          v.sss.peerByFd e.socketFd = some (comm, p) := by
  constructor
  · intro h p e hacc htcp hconn
    have hdrop : v.sss.dropped comm p e.socketFd = v.sss.peerByFd e.socketFd := by
      rw [Sn.dropped, if_pos htcp, if_pos hconn]
    obtain ⟨⟨r, s⟩, hfirst⟩ := Option.isSome_iff_exists.mp (Sn.peerByFd_isSome hacc.peerAt)
    rw [hfirst] at hdrop ⊢
    obtain ⟨e', he'⟩ := hacc.dropped_peerAt hdrop
    have hpeer := handleUnregisterSuper_peerAt hget hfed hacc r s
    rw [if_pos hdrop] at hpeer
    obtain ⟨hr, hfind, -⟩ := h r s e' he' hpeer
    obtain rfl := Option.some.inj (hr.symm.trans hcomm)
    rw [hacc.edge] at hfind
    rw [(Prod.mk.inj (Option.some.inj hfind)).1]
  · intro h r s e' he' hgone
    by_cases hacc : ∃ p e, v.Unregisters d comm p e
    · obtain ⟨p, e, hacc⟩ := hacc
      rw [handleUnregisterSuper_peerAt hget hfed hacc] at hgone
      split_ifs at hgone with hdrop
      · have hown : v.sss.dropped comm p e.socketFd = some (comm, p) := by
          unfold Sn.dropped at hdrop ⊢
          split_ifs at hdrop ⊢ with htcp hconn
          · exact h p e hacc htcp hconn
          · rfl
        obtain ⟨rfl, rfl⟩ := Prod.mk.inj (Option.some.inj (hown.symm.trans hdrop))
        obtain rfl := Option.some.inj (he'.symm.trans hacc.peerAt)
        exact ⟨hcomm, hacc.edge, hacc.auth⟩
      · obtain ⟨e'', hstill⟩ := v.stamped_peerAt comm d he'
        rw [hgone] at hstill
        cases hstill
    · rw [handleUnregisterSuper_of_rejected hget hfed fun p e hp => hacc ⟨p, e, hp⟩] at hgone
      obtain ⟨e'', hstill⟩ := v.stamped_peerAt comm d he'
      rw [hgone] at hstill
      cases hstill

end Handler

end World

/-! ### All messages -/

/-- **What an UNREGISTER_SUPER may do.** If it carries the flag of the supernodes or belongs to
the federation, nothing; otherwise it may remove the sender's own edge. -/
def UnregisterLawful (w : World) (rx : Rx) : Prop :=
  ∀ d, w.dispatched rx = some d → d.cmn.pc = msgTypeUnregisterSuper →
    (d.isFromSn = true ∨ d.Federated (w.opened rx).sss →
        w.sss.Untouched (w.processUdp rx).sss) ∧
      (d.isFromSn = false → ¬ d.Federated (w.opened rx).sss →
        (w.opened rx).RemovesOwn d (w.processUdp rx).sss)

/-- When it does no more.  With the flag, outside of the federation: its stamp is no later one,
and the edge that it is accepted for, if there is one, has a connection that is not there any
more.  Without the flag: if the edge that it is accepted for has a connection, then it is the
first edge with the descriptor. -/
def UnregisterGuarded (w : World) (rx : Rx) : Prop :=
  ∀ d, w.dispatched rx = some d → d.cmn.pc = msgTypeUnregisterSuper →
    ∀ comm c, d.comm = some comm → (w.opened rx).sss.communities.get? comm = some c →
      c.isFederation = false →
        (d.isFromSn = true → (w.opened rx).StampStays d comm ∧
          ∀ p e, (w.opened rx).Unregisters d comm p e →
            w.sss.isTcp e.socketFd = true ∧ w.sss.findConn e.socketFd = none) ∧
        (d.isFromSn = false → ∀ p e, (w.opened rx).Unregisters d comm p e →
          w.sss.isTcp e.socketFd = true → (w.sss.findConn e.socketFd).isSome = true →
            (w.opened rx).sss.peerByFd e.socketFd = some (comm, p))

/-- The first stage of `process_udp` touches neither peers nor connections. -/
theorem World.opened_peerAt (w : World) (rx : Rx) (p q : ℕ) :
    (w.opened rx).sss.peerAt p q = w.sss.peerAt p q := by
  unfold Sn.peerAt World.opened
  rw [w.sss.openHeader_edges_eq rx p]

theorem World.opened_findConn (w : World) (rx : Rx) (fd : ℤ) :
    (w.opened rx).sss.findConn fd = w.sss.findConn fd := by
  unfold Sn.findConn World.opened
  rw [w.sss.openHeader_conns rx]

theorem World.opened_isTcp (w : World) (rx : Rx) (fd : ℤ) :
    (w.opened rx).sss.isTcp fd = w.sss.isTcp fd := by
  have hsock : (w.opened rx).sss.sock = w.sss.sock := (w.sss.openHeader_edges rx).sock
  unfold Sn.isTcp
  rw [hsock]

theorem Sn.Untouched.opened_iff {w : World} {rx : Rx} {sss' : Sn} :
    (w.opened rx).sss.Untouched sss' ↔ w.sss.Untouched sss' := by
  have hconns : (w.opened rx).sss.tcpConnections = w.sss.tcpConnections := w.sss.openHeader_conns rx
  constructor
  · intro h
    exact ⟨h.conns.trans hconns, fun p q e he => h.peers p q e (by rwa [w.opened_peerAt])⟩
  · intro h
    exact ⟨h.conns.trans hconns.symm,
      fun p q e he => h.peers p q e (by rwa [w.opened_peerAt] at he)⟩

/-- An UNREGISTER_SUPER goes to its handler. -/
theorem World.processUdp_unregister {w : World} {rx : Rx} {d : Dispatch}
    (hd : w.dispatched rx = some d) (hpc : d.cmn.pc = msgTypeUnregisterSuper) :
    w.processUdp rx = match d.comm with
      | none => w.opened rx
      | some comm => (w.opened rx).handleUnregisterSuper d comm := by
  unfold World.processUdp World.dispatch
  rw [hd]
  dsimp only
  rw [hpc]
  rfl

/-- A message without an effect. -/
theorem UnregisterLawful.of_idle {w : World} {rx : Rx} {d : Dispatch}
    (h : w.processUdp rx = w.opened rx) :
    (d.isFromSn = true ∨ d.Federated (w.opened rx).sss →
        w.sss.Untouched (w.processUdp rx).sss) ∧
      (d.isFromSn = false → ¬ d.Federated (w.opened rx).sss →
        (w.opened rx).RemovesOwn d (w.processUdp rx).sss) := by
  rw [h]
  refine ⟨fun _ => Sn.Untouched.opened_iff.mp (.refl _), fun _ _ p q e he hgone => ?_⟩
  rw [he] at hgone
  cases hgone

/-- **The guard of UNREGISTER_SUPER.** -/
theorem unregisterLawful_iff (w : World) (rx : Rx) :
    UnregisterLawful w rx ↔ UnregisterGuarded w rx := by
  refine forall₃_congr fun d hd hpc => ?_
  have hprocess := World.processUdp_unregister hd hpc
  cases hcomm : d.comm with
  | none =>
    -- there is no community to remove anything from
    rw [hcomm] at hprocess
    dsimp only at hprocess
    refine iff_of_true (UnregisterLawful.of_idle hprocess) ?_
    rintro comm c ⟨⟩
  | some comm =>
    rw [hcomm] at hprocess
    dsimp only at hprocess
    cases hget : (w.opened rx).sss.communities.get? comm with
    | none =>
      rw [World.handleUnregisterSuper, hget] at hprocess
      refine iff_of_true (UnregisterLawful.of_idle hprocess) fun comm' c' hcomm' hget' => ?_
      obtain rfl := Option.some.inj hcomm'
      rw [hget] at hget'
      cases hget'
    | some c =>
      cases hfed : c.isFederation with
      | true =>
        -- the federation: the handler stops at once
        rw [World.handleUnregisterSuper, hget] at hprocess
        dsimp only at hprocess
        rw [if_pos (Or.inr hfed)] at hprocess
        refine iff_of_true (UnregisterLawful.of_idle hprocess) fun comm' c' hcomm' hget' hfed' => ?_
        obtain rfl := Option.some.inj hcomm'
        obtain rfl := Option.some.inj (hget.symm.trans hget')
        rw [hfed] at hfed'
        cases hfed'
      | false =>
        have hnot : ¬ d.Federated (w.opened rx).sss := by
          rintro ⟨p, c', hp, hget', hfed'⟩
          obtain rfl := Option.some.inj (hcomm.symm.trans hp)
          obtain rfl := Option.some.inj (hget.symm.trans hget')
          rw [hfed] at hfed'
          cases hfed'
        have huntouched := World.untouched_iff (d := d) hget hfed
        have howns := World.removesOwn_iff hget hfed hcomm
        rw [← hprocess] at huntouched howns
        rw [Sn.Untouched.opened_iff] at huntouched
        simp only [w.opened_isTcp, w.opened_findConn] at huntouched howns
        constructor
        · rintro ⟨hflagged, hplain⟩ comm' c' hcomm' hget' -
          obtain rfl := Option.some.inj hcomm'
          exact ⟨fun hflag => huntouched.mp (hflagged (Or.inl hflag)),
            fun hflag => howns.mp (hplain hflag hnot)⟩
        · intro h
          obtain ⟨hflagged, hplain⟩ := h comm c rfl hget hfed
          refine ⟨fun hflag => ?_, fun hflag _ => howns.mpr (hplain hflag)⟩
          exact huntouched.mpr (hflagged (hflag.resolve_right hnot))

/-! ### An UNREGISTER_SUPER from another supernode -/

/-- A supernode of the federation and an edge have registered. -/
def peeredSn : World := [laterKeyTime, plainRegistration].foldl snStep (.start netSn)

/-- That supernode sends an UNREGISTER_SUPER for the edge. -/
def foreignUnregister : Rx where
  sender := hostSock 9 7654
  socketFd := 3
  udpBuf := (Msg.unregisterSuper ⟨⟨1, 16, List.replicate authMaxTokenSize 1⟩, hostMac 1⟩).datagram
    (List.replicate 256 0) ⟨2, msgTypeUnregisterSuper, flagsFromSupernode, netName⟩ []
  now := 100
  stack := zeroStack

/-- The edge is removed. -/
theorem not_unregisterLawful :
    ¬ ∀ w, snFresh.Reach anyStep w → ∀ rx, UnregisterLawful w rx := by
  intro h
  have hreach : snFresh.Reach anyStep peeredSn :=
    Machine.Reach.runs (M := snFresh) (.init netSn_loaded) (by decide +kernel)
  have hmsg : (peeredSn.dispatched foreignUnregister).map (fun d => (d.cmn.pc, d.isFromSn)) =
      some (msgTypeUnregisterSuper, true) := by
    decide +kernel
  have hbefore : (peeredSn.sss.peerAt 1 0).isSome = true := by decide +kernel
  have hafter : (peeredSn.processUdp foreignUnregister).sss.peerAt 1 0 = none := by decide +kernel
  obtain ⟨d, hd, heq⟩ := Option.map_eq_some_iff.mp hmsg
  obtain ⟨hpc, hflag⟩ := Prod.mk.inj heq
  obtain ⟨e, he⟩ := Option.isSome_iff_exists.mp hbefore
  obtain ⟨e', he', -⟩ := ((h _ hreach _ d hd hpc).1 (Or.inl hflag)).peers 1 0 e he
  rw [hafter] at he'
  cases he'

end N2n
