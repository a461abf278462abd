import N2nTun.SnSend
import N2nTun.UpdateEdge

/-!
# What a registration refreshes

An edge that registers again is found by its MAC, or by its tunnel address.  `update_edge`
compares the socket of the sender with the stored one, and writes the entry anew only if the
two differ.  The comparison knows nothing of the descriptor a message has arrived on.

## Main definitions

* `KnownEdge` — the registration belongs to an entry, which authenticates it.
* `Refreshed` — the entry says what the registration says.

## Main results

* `Refreshed.route` — the packets for a refreshed edge go back the way it has come.
* `updateEdge_refreshed_iff` — **when `update_edge` refreshes the entry of a known edge.**
-/

namespace N2n

open Bytes

section

variable (sss : Sn) (cmn : Common) (reg : RegisterSuper) (comm : Community) (senderSock : Sock)
  (socketFd : ℤ) (answer : Auth) (skipAdd : SkipAdd) (stamp : UInt64) (now : ℤ)

/-- The registration belongs to the entry `scan` at `p`, which authenticates it. -/
structure KnownEdge (p : ℕ) (scan : PeerInfo) : Prop where
  found : (lookupEdge comm.edges reg).2 = some (p, scan)
  authenticates : Authenticates reg comm answer scan

/-- The entry with the MAC of the registration is the one at `p`, it says what the registration
says, and all other entries are what they were. -/
structure Refreshed (edges edges' : Table PeerInfo) (p : ℕ) (scan : PeerInfo) : Prop where
  found : edges'.find? (·.hasMac reg.edgeMac) = some (p, scan)
  sock : scan.sock = senderSock
  socketFd : scan.socketFd = socketFd
  devAddr : scan.devAddr = reg.devAddr
  lastCookie : scan.lastCookie = reg.cookie
  lastSeen : scan.lastSeen = now
  other : ∀ q, q ≠ p → edges'.get? q = edges.get? q

/-- `update_edge` refreshes the entry at `p`. -/
def Refreshes (p : ℕ) : Prop :=
  ∃ scan, Refreshed reg senderSock socketFd now comm.edges
    (updateEdge sss cmn reg comm senderSock socketFd answer skipAdd stamp now).edges p scan

end

section

variable {sss : Sn} {cmn : Common} {reg : RegisterSuper} {comm : Community} {senderSock : Sock}
  {socketFd : ℤ} {answer : Auth} {skipAdd : SkipAdd} {stamp : UInt64} {now : ℤ} {p : ℕ}
  {scan : PeerInfo}

/-- The table in which the registration was looked up: its entry has the MAC, and all others are
what they were. -/
theorem lookupEdge_spec {edges : Table PeerInfo} {p : ℕ} {scan : PeerInfo}
    (h : (lookupEdge edges reg).2 = some (p, scan)) :
    (lookupEdge edges reg).1.find? (·.hasMac reg.edgeMac) = some (p, scan) ∧
      ∀ q, q ≠ p → (lookupEdge edges reg).1.get? q = edges.get? q := by
  unfold lookupEdge at h ⊢
  cases hfind : edges.find? (·.hasMac reg.edgeMac) with
  | some e =>
    rw [hfind] at h
    obtain rfl := Option.some.inj h
    exact ⟨hfind, fun _ _ => rfl⟩
  | none =>
    rw [hfind] at h
    dsimp only at h ⊢
    cases haddr : edgeByAddr edges reg.devAddr.netAddr with
    | none => simp [haddr] at h
    | some e =>
      rw [haddr] at h
      obtain ⟨rfl, rfl⟩ := Prod.mk.inj (Option.some.inj h)
      have hget := (Table.first?_eq_some haddr).1
      refine ⟨?_, fun q hq => ?_⟩
      · -- it was moved to the end of the table, where the search begins
        exact Table.find?_rekey_self hget (by simp [PeerInfo.hasMac, PeerInfo.keyed])
      · dsimp only
        rw [Table.get?_rekey, if_neg hq]

/-- A write to the entry that keeps its MAC. -/
theorem find?_modify_entry {edges : Table PeerInfo} {f : PeerInfo → PeerInfo}
    (h : edges.find? (·.hasMac reg.edgeMac) = some (p, scan))
    (hf : ∀ e : PeerInfo, (f e).macAddr = e.macAddr) :
    (edges.modify p f).find? (·.hasMac reg.edgeMac) = some (p, f scan) := by
  rw [Table.find?_modify edges p (fun e => by rw [PeerInfo.hasMac, PeerInfo.hasMac, hf]), h]
  simp [Table.updateAt]

/-- From another socket: the entry is refreshed. -/
theorem refreshes_moved (hknown : KnownEdge reg comm answer p scan)
    (hsock : sockEqual senderSock scan.sock = false) :
    Refreshes sss cmn reg comm senderSock socketFd answer skipAdd stamp now p := by
  obtain ⟨hfind, hother⟩ := lookupEdge_spec hknown.found
  unfold Refreshes updateEdge
  simp only [hknown.found, show (authEdge scan.auth reg.auth answer comm).1 = true from
    hknown.authenticates, hsock, if_true, Bool.false_eq_true, if_false]
  refine ⟨movedEdge cmn reg senderSock socketFd now scan,
    find?_modify_entry hfind fun _ => rfl, rfl, rfl, rfl, rfl, rfl, fun q hq => ?_⟩
  exact (Table.get?_modify_other hq _).trans (hother q hq)

/-- From a socket that is taken for the same: only the cookie and the time are. -/
theorem refreshes_same_iff (hknown : KnownEdge reg comm answer p scan)
    (hsock : sockEqual senderSock scan.sock = true) :
    Refreshes sss cmn reg comm senderSock socketFd answer skipAdd stamp now p ↔
      scan.sock = senderSock ∧ scan.socketFd = socketFd ∧ scan.devAddr = reg.devAddr := by
  obtain ⟨hfind, hother⟩ := lookupEdge_spec hknown.found
  unfold Refreshes updateEdge
  simp only [hknown.found, show (authEdge scan.auth reg.auth answer comm).1 = true from
    hknown.authenticates, hsock, if_true]
  have hseen := find?_modify_entry (f := seenEdge reg now) hfind fun _ => rfl
  constructor
  · rintro ⟨e, he⟩
    obtain ⟨-, rfl⟩ := Prod.mk.inj (Option.some.inj (hseen.symm.trans he.found))
    exact ⟨he.sock, he.socketFd, he.devAddr⟩
  · rintro ⟨hs, hfd, haddr⟩
    refine ⟨seenEdge reg now scan, hseen, hs, hfd, haddr, rfl, rfl, fun q hq => ?_⟩
    exact (Table.get?_modify_other hq _).trans (hother q hq)

/-- **`update_edge` refreshes the entry of a known edge exactly if the sender's socket is not
taken for the stored one, or nothing but the cookie and the time has changed.** -/
theorem updateEdge_refreshed_iff (sss : Sn) (cmn : Common) (reg : RegisterSuper)
    (comm : Community) (senderSock : Sock) (socketFd : ℤ) (answer : Auth) (skipAdd : SkipAdd)
    (stamp : UInt64) (now : ℤ) (p : ℕ) (scan : PeerInfo)
    (hknown : KnownEdge reg comm answer p scan) :
    Refreshes sss cmn reg comm senderSock socketFd answer skipAdd stamp now p ↔
      (sockEqual senderSock scan.sock = true →
        scan.sock = senderSock ∧ scan.socketFd = socketFd ∧ scan.devAddr = reg.devAddr) := by
  cases hsock : sockEqual senderSock scan.sock with
  | true =>
    rw [refreshes_same_iff hknown hsock]
    exact ⟨fun h _ => h, fun h => h rfl⟩
  | false => exact iff_of_true (refreshes_moved hknown hsock) fun h => absurd h (by decide)

end

/-- The entry of the edge in `oneEdgeComm`: it has registered over UDP, on descriptor 3. -/
def firstEdge : PeerInfo :=
  newEdge idleSn (registerCommon 0) (registerAs 1) (hostSock 1 5000) 3 0 100

theorem knownEdge_firstEdge : KnownEdge (registerAs 1) oneEdgeComm Auth.zero 0 firstEdge where
  found := by decide
  authenticates := show (authEdge _ _ _ _).1 = true by decide

/-- The edge registers again from another port. -/
theorem updateEdge_refreshed_otherPort :
    Refreshes idleSn (registerCommon 0) (registerAs 1) oneEdgeComm (hostSock 1 5001) 3 Auth.zero
      .add 0 110 0 :=
  (updateEdge_refreshed_iff idleSn (registerCommon 0) (registerAs 1) oneEdgeComm
    (hostSock 1 5001) 3 Auth.zero .add 0 110 0 firstEdge knownEdge_firstEdge).mpr
    fun h => absurd h (by decide)

/-- The edge registers again over TCP, from the port it had with UDP, and is still sent its packets
over UDP. -/
theorem not_refreshed_overTcp :
    KnownEdge (registerAs 1) oneEdgeComm Auth.zero 0 firstEdge ∧
      ¬ Refreshes idleSn (registerCommon 0) (registerAs 1) oneEdgeComm
        (hostSock 1 5000) 7 Auth.zero .add 0 110 0 := by
  refine ⟨knownEdge_firstEdge, fun h => ?_⟩
  obtain ⟨-, hfd, -⟩ := (refreshes_same_iff knownEdge_firstEdge (by decide)).mp h
  exact absurd hfd (by decide)

/-! ### Where the packets for the edge go -/

/-- Where `sendto_peer` sends the packets for an edge: the address and the descriptor. -/
def PeerInfo.route (peer : PeerInfo) (sock : ℤ) : Sock × ℤ :=
  (fillSockaddr peer.sock, if 0 ≤ peer.socketFd then peer.socketFd else sock)

/-- `sendto_peer` sends nothing, or one packet by the route of the edge. -/
theorem World.sendtoPeer_eq (w : World) (comm : ℕ) (peer : PeerInfo) (pkt : Pkt) (drop : Bool)
    (policy : TransportPolicy) :
    (w.sendtoPeer comm peer pkt drop policy).1 = w ∨
      (w.sendtoPeer comm peer pkt drop policy).1 =
        (w.sendtoSock (.entry comm) (peer.route w.sss.sock).2 (peer.route w.sss.sock).1 pkt
          policy).1 := by
  unfold World.sendtoPeer PeerInfo.route
  by_cases hfamily : peer.sock.family = afInet
  · rw [if_pos hfamily]
    by_cases hdrop : (drop && peer.socketFd == w.sss.sock && !w.sss.peerHasActiveKcp peer &&
        decide (snLegacySafeUdpSize < pkt.bytes.length)) = true
    · rw [if_pos hdrop]
      exact Or.inl rfl
    · rw [if_neg hdrop]
      exact Or.inr rfl
  · rw [if_neg hfamily]
    exact Or.inl rfl

/-- The packets for a refreshed edge go to the sender of the registration, over the descriptor
that it has arrived on. -/
theorem Refreshed.route {reg : RegisterSuper} {senderSock : Sock} {socketFd now : ℤ}
    {edges edges' : Table PeerInfo} {p : ℕ} {scan : PeerInfo}
    (h : Refreshed reg senderSock socketFd now edges edges' p scan) (sock : ℤ)
    (hfd : 0 ≤ socketFd) : scan.route sock = (fillSockaddr senderSock, socketFd) := by
  rw [PeerInfo.route, h.sock, h.socketFd, if_pos hfd]

end N2n
