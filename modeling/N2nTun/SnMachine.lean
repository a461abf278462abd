import N2nTun.EdgeTable
import N2nTun.Lib.Machine

/-!
# The runs of a supernode

`run_sn_loop` as a state machine.  Each turn of the loop is broken up into the events that
it is made of, in any order: a datagram or bytes on a TCP connection, a new connection, the
removal of closed connections, and the periodic tasks.

## Main definitions

* `SnEvent`, `snStep`, `SnEnabled` — the events.
* `SnStarted` — a supernode as `main` starts it.
* `snMachine` — the runs.

## Main results

* `snStep_keeps` — **what an event consists of.**
-/

namespace N2n

open Machines

/-- What happens in `run_sn_loop`. -/
inductive SnEvent where
  /-- a datagram on the UDP socket, as it came or as KCP has put it together -/
  | udp (sender : Sock) (udpBuf : List UInt8) (now : ℤ) (stack : Stack)
  /-- bytes on the connection at `p`, none if it has ended; `left` is what `process_udp` leaves
  in its buffer -/
  | tcp (p : ℕ) (bread left : List UInt8) (now : ℤ) (stack : Stack)
  /-- `accept` -/
  | accept (fd : ℤ) (sock : Sock)
  /-- the connections that have been closed are removed -/
  | reap
  /-- all connections are closed, since `select` has failed -/
  | closeAll
  | reRegister (last now : ℤ)
  | purge (last now : ℤ)
  | sort (last now : ℤ)
  /-- KCP sessions come and go -/
  | kcp (ctrl data : List Sock)

namespace World

/-- A write to a connection. -/
def modifyConn (w : World) (p : ℕ) (f : TcpConnection → TcpConnection) : World :=
  w.setSss fun sss => { sss with tcpConnections := sss.tcpConnections.modify p f }

/-- `run_sn_loop` reads from the connection `conn` at `p`. -/
def tcpInput (w : World) (p : ℕ) (conn : TcpConnection) (bread left : List UInt8) (now : ℤ)
    (stack : Stack) : World :=
  let (conn', read) := conn.recv bread
  let w := w.modifyConn p fun _ => conn'
  match read with
  | .wait => w
  | .close => w.setSss fun sss => closeTcpConnection sss (some (p, conn'))
  | .packet udpBuf =>
    (w.processUdp ⟨conn.sock, conn.socketFd, udpBuf, now, stack⟩).modifyConn p (·.reset left)

/-- All connections are closed. -/
def closeAll (w : World) : World :=
  w.setSss fun sss =>
    sss.tcpConnections.entries.foldl (fun sss conn => closeTcpConnection sss (some conn)) sss

end World

/-- One step. -/
def snStep (w : World) : SnEvent → World
  | .udp sender udpBuf now stack => w.processUdp ⟨sender, w.sss.sock, udpBuf, now, stack⟩
  | .tcp p bread left now stack =>
    match w.sss.tcpConnections.get? p with
    | some conn => w.tcpInput p conn bread left now stack
    | none => w
  | .accept fd sock => w.acceptConnection fd sock
  | .reap => w.setSss Sn.removeInactive
  | .closeAll => w.closeAll
  | .reRegister last now => (w.reRegisterAndPurgeSupernodes last now).1
  | .purge last now => w.setSss fun sss => (sss.purgeExpiredCommunities last now).1
  | .sort last now => w.setSss fun sss => (sss.sortCommunities last now).1
  | .kcp ctrl data =>
    w.setSss fun sss =>
      { sss with udpKcpCtrlConnections := ctrl, udpKcpDataConnections := data }

/-- Closed connections are not read, no more bytes come in than were asked for, and `accept`
returns a descriptor that is not in use. -/
def SnEnabled (w : World) : SnEvent → Prop
  | .tcp p bread _ _ _ =>
    ∃ conn, w.sss.tcpConnections.get? p = some conn ∧ conn.inactive = false ∧
      bread.length ≤ conn.request
  | .accept fd _ => w.sss.isTcp fd = true ∧ w.sss.isOpen fd = false
  | _ => True

instance (w : World) : ∀ event, Decidable (SnEnabled w event)
  | .tcp p bread _ _ _ =>
    decidable_of_iff ((w.sss.tcpConnections.get? p).any fun conn =>
        !conn.inactive && decide (bread.length ≤ conn.request)) (by
      unfold SnEnabled
      simp [Option.any_eq_true])
  | .accept fd _ => inferInstanceAs (Decidable (w.sss.isTcp fd = true ∧ w.sss.isOpen fd = false))
  | .udp _ _ _ _ | .reap | .closeAll | .reRegister _ _ | .purge _ _ | .sort _ _ | .kcp _ _ =>
    inferInstanceAs (Decidable True)

/-- The arguments with which an event calls `process_udp`, if it does. -/
def SnEvent.rx (w : World) : SnEvent → Option Rx
  | .udp sender udpBuf now stack => some ⟨sender, w.sss.sock, udpBuf, now, stack⟩
  | .tcp p bread _ now stack =>
    (w.sss.tcpConnections.get? p).bind fun conn =>
      match (conn.recv bread).2 with
      | .packet udpBuf => some ⟨conn.sock, conn.socketFd, udpBuf, now, stack⟩
      | _ => none
  | _ => none

/-- A supernode as `main` starts it: no connections, and no edges but the supernodes that were
named for the federation.  The communities from the file and the federation have their
keys. -/
structure SnStarted (w : World) : Prop where
  conns : w.sss.tcpConnections.entries = []
  federation : ∃ c, w.sss.communities.get? w.sss.federation = some c ∧ c.isFederation = true
  onlyFederation : ∀ p c, w.sss.communities.get? p = some c → c.isFederation = true →
    p = w.sss.federation
  supernodes : ∀ p c, w.sss.communities.get? p = some c → c.isFederation = true →
    ∀ e ∈ c.edges, e.socketFd = w.sss.sock
  edges : ∀ p c, w.sss.communities.get? p = some c → c.isFederation = false → c.edges.entries = []
  keys : ∀ p c, w.sss.communities.get? p = some c → c.headerEncryption ≠ .none → c.keys.Ready

/-- There are no edges yet. -/
theorem SnStarted.edgeAt_ne {w : World} (h : SnStarted w) (p q : ℕ) (e : PeerInfo) :
    w.sss.edgeAt p q ≠ some e := by
  intro he
  obtain ⟨c, hget, hc, hq⟩ := Sn.edgeAt_eq_some.mp he
  have hmem := Table.get?_eq_some.mp hq
  rw [h.edges p c hget hc] at hmem
  cases hmem

theorem Sn.EdgesOk.started {w : World} (h : SnStarted w) : w.sss.EdgesOk := by
  obtain ⟨c, hget, hc⟩ := h.federation
  refine ⟨fun p q e _ _ he => absurd he (h.edgeAt_ne p q e), fun c' hget' => ?_, ?_⟩
  · obtain rfl := Option.some.inj (hget.symm.trans hget')
    exact hc
  · exact w.sss.communities.fresh _ (Table.get?_eq_some.mp hget)

/-- The runs of a supernode. -/
def snMachine : Machine World SnEvent where
  init := SnStarted
  enabled := SnEnabled
  step := snStep

/-- A change outside of `process_udp` and the periodic tasks: connections come and go, with
the edges behind them. -/
structure Rests (w w' : World) : Prop where
  shrinks : w.sss.Shrinks w'.sss
  sock : w'.sss.sock = w.sss.sock
  federation : w'.sss.federation = w.sss.federation
  accepted : w'.accepted = w.accepted
  keyTime : w'.sss.dynamicKeyTime = w.sss.dynamicKeyTime
  keyTimes : w'.keyTimes = w.keyTimes
  comms : ∀ p, ∃ f : Community → Table PeerInfo, w'.sss.communities.get? p =
    (w.sss.communities.get? p).map fun c => { c with edges := f c }

/-- The communities are the same. -/
theorem comms_of_eq {sss sss' : Sn} (h : sss'.communities = sss.communities) (p : ℕ) :
    ∃ f : Community → Table PeerInfo, sss'.communities.get? p =
      (sss.communities.get? p).map fun c => { c with edges := f c } :=
  ⟨Community.edges, by simp [h]⟩

/-- A connection that is closed takes an edge with it, and nothing else. -/
theorem closeTcpConnection_comms (sss : Sn) (conn : Option (ℕ × TcpConnection)) (p : ℕ) :
    ∃ f : Community → Table PeerInfo, (closeTcpConnection sss conn).communities.get? p =
      (sss.communities.get? p).map fun c => { c with edges := f c } := by
  cases conn with
  | none => exact comms_of_eq rfl p
  | some conn =>
    have hsame : (closeTcpConnection sss (some conn)).communities =
        (sss.removePeerByFd conn.2.socketFd).communities := rfl
    rw [hsame]
    unfold Sn.removePeerByFd
    split
    · exact comms_of_eq rfl p
    · rename_i comm c hfirst
      by_cases hp : p = comm
      · refine ⟨fun c => ((c.edgeByFd conn.2.socketFd).map fun e => c.edges.del e.1).getD c.edges,
          ?_⟩
        rw [Sn.modifyComm, Table.get?_modify, if_pos hp]
        congr 1
        funext c
        dsimp only
        cases c.edgeByFd conn.2.socketFd with
        | none => rfl
        | some e => rfl
      · refine ⟨Community.edges, ?_⟩
        rw [Sn.modifyComm, Table.get?_modify, if_neg hp]
        simp

/-- Whatever does not change with the edges of a community does not change. -/
theorem Rests.get? {w w' : World} (h : Rests w w') (p : ℕ) (c' : Community)
    (hget : w'.sss.communities.get? p = some c') :
    ∃ c, w.sss.communities.get? p = some c ∧ c' = { c with edges := c'.edges } := by
  obtain ⟨f, hf⟩ := h.comms p
  rw [hf] at hget
  obtain ⟨c, hc, rfl⟩ := Option.map_eq_some_iff.mp hget
  exact ⟨c, hc, rfl⟩

theorem Rests.close (w : World) (conn : Option (ℕ × TcpConnection)) :
    Rests w (w.setSss fun sss => closeTcpConnection sss conn) :=
  ⟨.closeTcpConnection w.sss conn, closeTcpConnection_sock w.sss conn,
    closeTcpConnection_federation w.sss conn, rfl, closeTcpConnection_keyTime w.sss conn, rfl,
    closeTcpConnection_comms w.sss conn⟩

theorem Rests.modifyConn (w : World) (p : ℕ) (f : TcpConnection → TcpConnection) :
    Rests w (w.modifyConn p f) :=
  ⟨.of_eq rfl, rfl, rfl, rfl, rfl, rfl, comms_of_eq rfl⟩

/-- The first stage of `process_udp` only looks at the communities. -/
theorem Sn.openHeader_congr {sss sss' : Sn} (h : sss'.communities = sss.communities) (rx : Rx) :
    (sss'.openHeader rx).1.communities = (sss.openHeader rx).1.communities ∧
      (sss'.openHeader rx).2 = (sss.openHeader rx).2 := by
  unfold Sn.openHeader Sn.modifyComm
  rw [h]
  dsimp only
  split_ifs
  · exact ⟨h, rfl⟩
  · split
    · exact ⟨h, rfl⟩
    · split
      · exact ⟨h, rfl⟩
      · exact ⟨rfl, rfl⟩
      · exact ⟨h, rfl⟩
  · split
    · split
      · exact ⟨rfl, rfl⟩
      · exact ⟨h, rfl⟩
    · exact ⟨h, rfl⟩

theorem Sn.openHeader_federation (sss : Sn) (rx : Rx) :
    (sss.openHeader rx).1.federation = sss.federation := by
  rcases sss.openHeader_cases rx with heq | ⟨p, c, -, ⟨-, heq⟩ | heq⟩ <;> rw [heq] <;> rfl

theorem World.dispatched_modifyConn (w : World) (p : ℕ) (f : TcpConnection → TcpConnection)
    (rx : Rx) : (w.modifyConn p f).dispatched rx = w.dispatched rx := by
  have hsame : (w.modifyConn p f).sss.communities = w.sss.communities := rfl
  obtain ⟨hcomms, htrial⟩ := Sn.openHeader_congr hsame rx
  have hfed : ((w.modifyConn p f).opened rx).sss.federation = (w.opened rx).sss.federation :=
    ((w.modifyConn p f).sss.openHeader_federation rx).trans (w.sss.openHeader_federation rx).symm
  have hadmit : ((w.modifyConn p f).opened rx).sss.toDispatch rx.sender =
      (w.opened rx).sss.toDispatch rx.sender := by
    funext o
    unfold Sn.toDispatch Sn.snBySock Sn.edges
    rw [hfed, show ((w.modifyConn p f).opened rx).sss.communities =
      (w.opened rx).sss.communities from hcomms]
  unfold World.dispatched
  rw [htrial, hadmit]

/-- **What an event keeps**: something that the changes of connections and the acts of the
periodic tasks keep, and the call of `process_udp` if there is one. -/
theorem snStep_keeps {I : World → Prop} {w : World} {event : SnEvent} (hw : I w)
    (hrests : ∀ v v', I v → Rests v v' → I v')
    (hact : ∀ v v', I v → Act (fun _ => True) (fun _ _ => False) v v' → I v')
    (hmsg : ∀ v rx, I v → v.sss.communities = w.sss.communities → v.accepted = w.accepted →
      event.rx w = some rx → v.dispatched rx = w.dispatched rx → I (v.processUdp rx)) :
    I (snStep w event) := by
  cases event with
  | udp sender udpBuf now stack => exact hmsg w _ hw rfl rfl rfl rfl
  | tcp p bread left now stack =>
    dsimp only [snStep]
    cases hget : w.sss.tcpConnections.get? p with
    | none => exact hw
    | some conn =>
      dsimp only [World.tcpInput]
      have hw₁ := hrests w _ hw (.modifyConn w p fun _ => (conn.recv bread).1)
      cases hread : (conn.recv bread).2 with
      | wait => exact hw₁
      | close => exact hrests _ _ hw₁ (.close _ _)
      | packet udpBuf =>
        refine hrests _ _ (hmsg _ _ hw₁ rfl rfl ?_ (World.dispatched_modifyConn _ _ _ _))
          (.modifyConn _ _ _)
        dsimp only [SnEvent.rx]
        rw [hget, Option.bind_some, hread]
  | accept fd sock => exact hrests w _ hw ⟨.of_eq rfl, rfl, rfl, rfl, rfl, rfl, comms_of_eq rfl⟩
  | reap => exact hrests w _ hw ⟨.of_eq rfl, rfl, rfl, rfl, rfl, rfl, comms_of_eq rfl⟩
  | closeAll =>
    have hfold : ∀ (conns : List (ℕ × TcpConnection)) (v : World), I v →
        I (v.setSss fun sss =>
          conns.foldl (fun sss conn => closeTcpConnection sss (some conn)) sss) := by
      intro conns
      induction conns with
      | nil => exact fun v hv => hv
      | cons conn conns ih => exact fun v hv => ih _ (hrests v _ hv (.close v (some conn)))
    exact hfold _ w hw
  | reRegister last now =>
    exact (w.reRegisterAndPurgeSupernodes_acts last now fun _ _ => trivial).invariant hact hw
  | purge last now => exact (w.purgeExpiredCommunities_acts last now).invariant hact hw
  | sort last now => exact (w.sortCommunities_acts last now).invariant hact hw
  | kcp ctrl data => exact hrests w _ hw ⟨.of_eq rfl, rfl, rfl, rfl, rfl, rfl, comms_of_eq rfl⟩

instance (w : World) (event : SnEvent) : Decidable (snMachine.enabled w event) :=
  inferInstanceAs (Decidable (SnEnabled w event))

/-! ### A supernode with one community -/

/-- A community from the file: its headers may be encrypted. -/
def namedCommunity (name : CommunityName) (key : List UInt8) : Community :=
  { Community.zero with
    community := name
    key := key
    keys := packetHeaderSetupKey name.toList }

/-- The name "net". -/
def netName : CommunityName := ⟨[110, 101, 116] ++ List.replicate 17 0, rfl⟩

/-- The name "*Federation". -/
def federationName : CommunityName :=
  ⟨[42, 70, 101, 100, 101, 114, 97, 116, 105, 111, 110] ++ List.replicate 9 0, rfl⟩

/-- A supernode for the community "net". -/
def netSn : Sn :=
  { idleSn with
    lockCommunities := true
    communities :=
      (Table.empty.add
        { namedCommunity federationName (cstr federationName.toList) with
          isFederation := true
          headerEncryption := .enabled }).add (namedCommunity netName (cstr netName.toList)) }

theorem netSn_get? {p : ℕ} {c : Community} (h : netSn.communities.get? p = some c) :
    p = 1 ∧ c = namedCommunity netName (cstr netName.toList) ∨
      p = 0 ∧ c = { namedCommunity federationName (cstr federationName.toList) with
        isFederation := true
        headerEncryption := .enabled } := by
  unfold netSn at h
  dsimp only at h
  rw [Table.get?_add] at h
  split_ifs at h with hp
  · exact Or.inl ⟨hp, (Option.some.inj h).symm⟩
  · rw [Table.get?_add] at h
    split_ifs at h with hp'
    · exact Or.inr ⟨hp', (Option.some.inj h).symm⟩
    · cases h

theorem netSn_started : SnStarted (.start netSn) where
  conns := rfl
  federation := ⟨_, rfl, rfl⟩
  onlyFederation := by
    intro p c hget hc
    rcases netSn_get? hget with ⟨-, rfl⟩ | ⟨rfl, -⟩
    · exact absurd hc (by decide)
    · rfl
  supernodes := by
    intro p c hget hc e he
    rcases netSn_get? hget with ⟨-, rfl⟩ | ⟨-, rfl⟩ <;> cases he
  edges := by
    intro p c hget hc
    rcases netSn_get? hget with ⟨-, rfl⟩ | ⟨-, rfl⟩ <;> rfl
  keys := by
    intro p c hget _
    rcases netSn_get? hget with ⟨-, rfl⟩ | ⟨-, rfl⟩ <;> exact packetHeaderSetupKey_ready _

/-- A stack full of zeros. -/
def zeroStack : Stack :=
  ⟨0, false, [], [], .zero, ⟨0, nullMac, nullMac, .zero, .zero, 0, List.Vector.replicate 20 0, 0⟩⟩

theorem length_hostMac (b : UInt8) : [2, 0, 0, 0, 0, b].length = 6 :=
  rfl

/-- The MAC 02:00:00:00:00:`b`. -/
def hostMac (b : UInt8) : Mac := ⟨[2, 0, 0, 0, 0, b], length_hostMac b⟩

/-- The edge with the MAC 02:00:00:00:00:`b` registers. -/
def hostRegistration (b : UInt8) : RegisterSuper where
  cookie := 7
  edgeMac := hostMac b
  sock := .zero
  devAddr := ⟨0x0a000000 + b.toUInt32, 24⟩
  devDesc := List.Vector.replicate 16 0
  auth := ⟨1, 16, List.replicate authMaxTokenSize b⟩
  keyTime := 0

/-- The packet `p` with a header encrypted for the community "net". -/
def sealedFor (p : List UInt8) (stamp : UInt64) : List UInt8 :=
  match packetHeaderSetupKey netName.toList with
  | ⟨some ctx, _, some iv, _⟩ =>
    packetHeaderEncrypt p (UInt16.ofNat p.length) (UInt16.ofNat p.length) ctx iv stamp 1
  | _ => p

/-- The REGISTER_SUPER of an edge to the community "net", with a plain header. -/
def hostDatagram (b : UInt8) : List UInt8 :=
  (Msg.registerSuper (hostRegistration b)).datagram (List.replicate 256 0)
    ⟨2, msgTypeRegisterSuper, 0, netName⟩ []

end N2n
