import N2nTun.EdgeRun
import N2nTun.EdgeTcp

/-!
# The flags of the transports, and the socket in use

The edge has five flags and two counters about its transports to the supernode.  They
stay in step in every run.  `eee->sock`, which is a copy of the descriptor in use, does
not: where a socket is closed and the new one cannot be opened, the copy is left with
the closed descriptor.

## Main definitions

* `FlagsOk` — how the flags and the counters belong together.
* `SockCoherent` — `eee->sock` is -1 or the open descriptor of the transport in use.
* `CallOk` — the condition on a call: a socket that it closes and that is in use can be
  opened again.

## Main results

* `flagsOk_of_reach` — **the flags belong together in every run.**
* `sockCoherent_of_reach` — **the copy is right in every run whose calls meet the
  condition**; `connect_coherent_iff` and `recycle_coherent_iff` show that nothing less does.
-/

namespace N2n

open Machines

/-! ### The flags and the counters -/

/-- How the flags and the counters belong together. -/
structure FlagsOk (f : TransportFlags) : Prop where
  transport : f.activeSnTransport = .tcp ↔ f.connectTcp = true ∨ f.tcpFallbackActive = true
  sticky : f.tcpStickyAfterFallback = f.tcpFallbackActive
  budget : f.tcpRegisterSoftRetryBudget ≤ tcpRegisterSoftRetries
  fallback : f.tcpRegisterSoftRetryBudget ≠ 0 → f.tcpFallbackActive = true
  retries : f.registerFastRetryCount ≤ 3

section

variable {t : EdgeTransport}

@[simp] theorem flags_supernodeDisconnectTcp : (supernodeDisconnectTcp t).flags = t.flags := rfl

@[simp] theorem flags_supernodeDisconnectUdp : (supernodeDisconnectUdp t).flags = t.flags := rfl

@[simp] theorem flags_supernodeDisconnect : (supernodeDisconnect t).flags = t.flags := rfl

@[simp] theorem flags_edgeSyncActiveSocket : (edgeSyncActiveSocket t).flags = t.flags := rfl

@[simp] theorem flags_supernodeConnectUdpSocket (os : SocketResults) :
    (supernodeConnectUdpSocket t os).1.flags = t.flags := by
  unfold supernodeConnectUdpSocket
  split_ifs <;> rfl

@[simp] theorem flags_supernodeConnectTcpSocket (os : SocketResults) :
    (supernodeConnectTcpSocket t os).1.flags = t.flags := by
  unfold supernodeConnectTcpSocket
  dsimp only
  split_ifs <;> rfl

theorem usesTcp_iff : edgeTransportUsesTcp t = true ↔ t.flags.activeSnTransport = .tcp := by
  unfold edgeTransportUsesTcp
  exact beq_iff_eq

/-- Over TCP already, nothing changes. -/
theorem flags_setTcp (h : t.flags.activeSnTransport = .tcp) :
    (edgeSetActiveTransport t .tcp).flags = t.flags := by
  change { t.flags with activeSnTransport := .tcp } = t.flags
  rw [← h]

/-- The end of a fallback. -/
theorem FlagsOk.cleared {f : TransportFlags} (hconn : f.connectTcp = false)
    (hactive : f.activeSnTransport = .udp) (hfallback : f.tcpFallbackActive = false)
    (hsticky : f.tcpStickyAfterFallback = false) (hbudget : f.tcpRegisterSoftRetryBudget = 0)
    (hcount : f.registerFastRetryCount = 0) : FlagsOk f where
  transport := by simp [hconn, hactive, hfallback]
  sticky := by rw [hsticky, hfallback]
  budget := by rw [hbudget]; decide
  fallback := fun hne => absurd hbudget hne
  retries := by rw [hcount]; decide

theorem FlagsOk.release (h : FlagsOk t.flags) :
    FlagsOk (edgeReleaseTcpStickyAfterDisconnect t).flags := by
  unfold edgeReleaseTcpStickyAfterDisconnect
  split
  · exact h
  · next hc =>
    rw [Bool.or_eq_true, not_or, Bool.not_eq_true] at hc
    exact .cleared hc.1 rfl rfl rfl rfl rfl

theorem FlagsOk.recovered (h : FlagsOk t.flags) : FlagsOk (edgeMarkUdpRecovered t).flags := by
  unfold edgeMarkUdpRecovered
  split
  · exact h
  · next hc =>
    rw [Bool.or_eq_true, not_or, Bool.not_eq_true] at hc
    split
    · exact h
    · exact .cleared hc.1 rfl rfl rfl rfl rfl

theorem FlagsOk.switchToTcp (h : FlagsOk t.flags) (os : SocketResults) :
    FlagsOk (edgeSwitchToTcpSupernode t os).1.flags := by
  unfold edgeSwitchToTcpSupernode
  split
  · exact h
  · next hc =>
    rw [Bool.or_eq_true, not_or, Bool.not_eq_true, Bool.not_eq_true] at hc
    have hudp : t.activeSnTransport ≠ .tcp := fun heq =>
      absurd (usesTcp_iff.mpr heq) (by simp [hc.2])
    split
    · exact h
    · extract_lets t₁
      have hflags : (supernodeConnectTcpSocket t₁ os).1.flags = t₁.flags :=
        flags_supernodeConnectTcpSocket os
      generalize supernodeConnectTcpSocket t₁ os = r at hflags ⊢
      obtain ⟨t₂, tcpOk⟩ := r
      dsimp only at hflags ⊢
      split
      · -- the connection is not even in progress
        have heq : EdgeTransport.flags { t₂ with
            tcpFallbackActive := false
            tcpStickyAfterFallback := false
            tcpRegisterSoftRetryBudget := 0
            registerSuperSoftRetryArmed := false } = { t₁.flags with
              tcpFallbackActive := false
              tcpStickyAfterFallback := false
              tcpRegisterSoftRetryBudget := 0 } := by
          rw [← hflags]
          rfl
        rw [heq]
        refine .cleared hc.1 ?_ rfl rfl rfl rfl
        change t.activeSnTransport = .udp
        cases hact : t.activeSnTransport with
        | udp => rfl
        | tcp => exact absurd hact hudp
      · have heq : EdgeTransport.flags { resetSupAttempts (edgeSetActiveTransport t₂ .tcp) with
            snWait := 0 } = { t₁.flags with activeSnTransport := .tcp } := by
          rw [← hflags]
          rfl
        rw [heq]
        exact ⟨by simp [t₁, EdgeTransport.flags], rfl, UInt8.le_refl _, fun _ => rfl, UInt8.zero_le⟩

theorem FlagsOk.connect (h : FlagsOk t.flags) (os : SocketResults) :
    FlagsOk (supernodeConnect t os).flags := by
  unfold supernodeConnect
  extract_lets kcpElsewhere t₁ t₂
  have h₁ : t₁.flags = t.flags := by
    simp only [t₁]
    split <;> rfl
  have h₂ : t₂.flags = t.flags := by
    simp only [t₂]
    split
    · exact h₁
    · exact h₁
  have h₃ : (if t₂.connectTcp then (t₂, true) else supernodeConnectUdpSocket t₂ os).1.flags =
      t.flags := by
    split
    · exact h₂
    · rw [flags_supernodeConnectUdpSocket, h₂]
  generalize (if t₂.connectTcp then (t₂, true) else supernodeConnectUdpSocket t₂ os) = r₃ at h₃ ⊢
  obtain ⟨t₃, udpOk⟩ := r₃
  dsimp only at h₃ ⊢
  have hkeep : ∀ {t' : EdgeTransport}, t'.flags = t.flags → FlagsOk t'.flags :=
    fun heq => heq ▸ h
  split
  · exact hkeep h₃
  · split
    · next htcp =>
      have h₄ : (supernodeConnectTcpSocket t₃ os).1.flags = t.flags := by
        rw [flags_supernodeConnectTcpSocket, h₃]
      split
      · exact hkeep h₄
      · -- the transport in use was TCP before
        refine hkeep ?_
        have hactive : t.flags.activeSnTransport = .tcp := by
          rw [h.transport, ← h₃]
          rwa [Bool.or_eq_true] at htcp
        rw [← h₄] at hactive
        exact (flags_setTcp hactive).trans h₄
    · next htcp =>
      refine hkeep ?_
      have hactive : t.flags.activeSnTransport = .udp := by
        cases hact : t.flags.activeSnTransport with
        | udp => rfl
        | tcp =>
          rw [h.transport, ← h₃, ← Bool.or_eq_true] at hact
          exact absurd hact htcp
      rw [flags_edgeSyncActiveSocket, ← h₃]
      rw [← h₃] at hactive
      change { t₃.flags with activeSnTransport := .udp } = t₃.flags
      rw [← hactive]

theorem FlagsOk.errOut (h : FlagsOk t.flags) (os : SocketResults) (ms : UInt32) :
    FlagsOk (sendtoFdErrOut t os ms).flags := by
  unfold sendtoFdErrOut
  split
  · exact h
  · next htcp =>
    rw [Bool.not_eq_true', Bool.not_eq_false, usesTcp_iff] at htcp
    split
    · next hretry =>
      simp only [Bool.and_eq_true, decide_eq_true_eq] at hretry
      extract_lets t₁
      -- one soft retry less
      have hok : FlagsOk t₁.flags := by
        refine ⟨h.transport, h.sticky, ?_, fun _ => hretry.1.1.2, h.retries⟩
        have hle := h.budget
        have hpos := hretry.2
        simp only [t₁, EdgeTransport.flags, UInt8.le_iff_toNat_le, UInt8.lt_iff_toNat_lt] at *
        rw [UInt8.toNat_sub_of_le _ _ (by rw [UInt8.le_iff_toNat_le]; exact hpos)]
        omega
      have hflags : (supernodeConnectTcpSocket (supernodeDisconnectTcp t₁) os).1.flags =
          t₁.flags := flags_supernodeConnectTcpSocket os
      generalize supernodeConnectTcpSocket (supernodeDisconnectTcp t₁) os = r at hflags ⊢
      obtain ⟨t₂, tcpOk⟩ := r
      dsimp only at hflags ⊢
      have hset : (if tcpOk then edgeSetActiveTransport t₂ .tcp else t₂).flags = t₁.flags := by
        split
        · rw [flags_setTcp (by rw [hflags]; exact htcp), hflags]
        · exact hflags
      have heq : ∀ {v : EdgeTransport}, v.flags = t₁.flags →
          (edgeSyncActiveSocket { v with snWait := 2, lastRegisterReqMs := ms }).flags = t₁.flags :=
        fun hv => hv
      rw [heq hset]
      exact hok
    · have hrelease :
          FlagsOk (edgeReleaseTcpStickyAfterDisconnect (supernodeDisconnectTcp t)).flags :=
        FlagsOk.release h
      exact hrelease

theorem FlagsOk.calm {f : TransportFlags} (h : FlagsOk f) (budget : Bool) :
    FlagsOk { f with
      registerFastRetryCount := 0
      tcpRegisterSoftRetryBudget := if budget then 0 else f.tcpRegisterSoftRetryBudget } := by
  cases budget with
  | true => exact ⟨h.transport, h.sticky, UInt8.zero_le, fun hne => absurd rfl hne, UInt8.zero_le⟩
  | false => exact ⟨h.transport, h.sticky, h.budget, h.fallback, UInt8.zero_le⟩

theorem FlagsOk.nextStage (h : FlagsOk t.flags) : FlagsOk (Edge.nextRetryStage t).flags := by
  refine ⟨h.transport, h.sticky, h.budget, h.fallback, ?_⟩
  have hle := h.retries
  simp only [Edge.nextRetryStage, EdgeTransport.flags, UInt8.le_iff_toNat_le,
    UInt8.lt_iff_toNat_lt, UInt8.reduceToNat] at hle ⊢
  split
  · next hlt =>
    rw [UInt8.toNat_add, show UInt8.toNat 1 = 1 from rfl]
    omega
  · exact hle

theorem carried_flagsOk : Carried fun v => FlagsOk v.flags where
  errOut := fun ms _ h => h.errOut _ ms
  release := fun h => h.release
  recovered := fun h => h.recovered
  disconnect := fun h => h
  readFailed := fun h => FlagsOk.release (t := supernodeDisconnectTcp _) h
  readTooLong := fun h => FlagsOk.release (t := supernodeDisconnect _) h
  switchToTcp := fun _ h => h.switchToTcp _
  reconnect := by
    intro t os _ h htcp _
    have hflags := flags_supernodeConnectTcpSocket (t := t) os
    have hset : (if (supernodeConnectTcpSocket t os).2 then
        edgeSetActiveTransport (supernodeConnectTcpSocket t os).1 .tcp
        else (supernodeConnectTcpSocket t os).1).flags = t.flags := by
      split
      · rw [flags_setTcp (by rw [hflags]; exact usesTcp_iff.mp htcp), hflags]
      · exact hflags
    change FlagsOk (EdgeTransport.flags _)
    rw [hset]
    exact h
  calm := fun h => h.calm true
  calmRetry := fun h => h.calm false
  nextStage := fun h => h.nextStage
  sticky := fun h => h.sticky

end

theorem FlagsOk.recycle {t : EdgeTransport} (h : FlagsOk t.flags) (os : SocketResults) :
    FlagsOk (edgeRecycleUdpSupernodeSocket t os).flags := by
  unfold edgeRecycleUdpSupernodeSocket
  split
  · exact h
  · have hflags : (supernodeConnectUdpSocket (supernodeDisconnectUdp t) os).1.flags = t.flags :=
      flags_supernodeConnectUdpSocket os
    generalize supernodeConnectUdpSocket (supernodeDisconnectUdp t) os = r at hflags ⊢
    obtain ⟨t₁, udpOk⟩ := r
    dsimp only at hflags ⊢
    have hset : (if edgeTransportUsesTcp t₁ then t₁ else edgeSetActiveTransport t₁ .udp).flags =
        t.flags := by
      split
      · exact hflags
      · next hudp =>
        rw [usesTcp_iff] at hudp
        have hactive : t₁.flags.activeSnTransport = .udp := by
          cases hact : t₁.flags.activeSnTransport with
          | udp => rfl
          | tcp => exact absurd hact hudp
        change { t₁.flags with activeSnTransport := .udp } = t.flags
        rw [← hactive]
        exact hflags
    split
    · rw [hflags]
      exact h
    · rw [flags_edgeSyncActiveSocket, hset]
      exact h

/-- **Every call keeps the flags in step.** -/
theorem flagsOk_apply {e : Edge} (h : e.Holds fun v => FlagsOk v.flags) (c : EdgeCall) :
    (c.apply e).Holds fun v => FlagsOk v.flags := by
  have hconnect : ∀ {v : Edge}, v.Holds (fun v => FlagsOk v.flags) →
      v.connect.Holds fun v => FlagsOk v.flags := fun {v} hv =>
    ⟨FlagsOk.connect (t := v.openSockets.1.link) hv.view _, fun n => hv.answers (n + 1)⟩
  refine h.apply carried_flagsOk c (fun _ => hconnect h) (fun _ => ?_) fun now rank _ =>
    h.updateSupernodeReg carried_flagsOk now rank fun _ _ _ => hconnect
  exact ⟨FlagsOk.recycle (t := e.openSockets.1.link) h.view _, fun n => h.answers (n + 1)⟩

theorem Edge.Initial.flagsOk {e : Edge} (h : e.Initial) : e.Holds fun v => FlagsOk v.flags := by
  refine ⟨⟨?_, ?_, ?_, ?_, ?_⟩, h.answers⟩
  · change e.transport.activeSnTransport = .tcp ↔
      e.transport.connectTcp = true ∨ e.transport.tcpFallbackActive = true
    rw [h.activeSnTransport, h.fallback.1]
    cases e.transport.connectTcp <;> simp
  · exact h.fallback.2.trans h.fallback.1.symm
  · change e.transport.tcpRegisterSoftRetryBudget ≤ _
    rw [h.counters.2]
    exact UInt8.zero_le
  · exact fun hne => absurd h.counters.2 hne
  · change e.transport.registerFastRetryCount ≤ 3
    rw [h.counters.1]
    exact UInt8.zero_le

theorem holds_flagsOk {e : Edge} (h : edgeMachine.Reach anyStep e) :
    e.Holds fun v => FlagsOk v.flags :=
  h.invariant (I := Edge.Holds fun v => FlagsOk v.flags) (fun _ => Edge.Initial.flagsOk)
    fun _ c h _ _ => flagsOk_apply h c

/-- An edge after `edge_init`, with a list of two supernodes and the answers to come. -/
def startedEdge (connectTcp : Bool) (sockets : Stream' SocketResults) : Edge where
  conf := userConf
  preferredSock := { Sock.zero with family := afInvalid }
  devDesc := List.Vector.replicate 16 0
  registerInterval := 20
  localPort := 0
  allowP2p := true
  supernodes := (Table.empty.add { PeerInfo.zero with sock := { Sock.zero with port := 1 } }).add
    { PeerInfo.zero with sock := { Sock.zero with port := 2 } }
  currSn := 0
  macAddr := nullMac
  ipAddr := 0
  deviceMask := 0
  transport := { fallbackEdge with
    connectTcp := connectTcp
    sock := -1
    udpSock := -1
    tcpSock := -1
    tcpSnSockValid := false
    activeSnTransport := if connectTcp then .tcp else .udp
    tcpFallbackActive := false
    tcpStickyAfterFallback := false
    tcpRegisterSoftRetryBudget := 0 }
  knownPeers := Table.empty
  pendingPeers := Table.empty
  multicastJoined := false
  multicastPeer := Sock.zero
  lastRegisterReq := 0
  lastSweep := 0
  lastSup := 0
  lastUdpSup := 0
  closeSocketCounter := 0
  resolutionRequest := false
  currentSupernodeRxTransport := .none
  previouslyIssuedTimeStamp := 0
  env :=
    { sends := Stream'.const ⟨false, .term⟩
      sockets := sockets
      joins := Stream'.const false
      rands := Stream'.const 0
      tods := Stream'.const ⟨0, 0⟩ }
  sent := []

theorem startedEdge_initial (connectTcp : Bool) {sockets : Stream' SocketResults}
    (h : ∀ n, AnswerOk (sockets.get n)) : (startedEdge connectTcp sockets).Initial :=
  ⟨⟨rfl, rfl, rfl⟩, rfl, rfl, ⟨rfl, rfl⟩, ⟨rfl, rfl⟩, rfl, rfl, h⟩

/-- Both sockets can be opened, always. -/
def sparedSockets : Stream' SocketResults := Stream'.const ⟨3, 4, true⟩

theorem sparedSockets_ok (n : ℕ) : AnswerOk (sparedSockets.get n) :=
  show AnswerOk ⟨3, 4, true⟩ from ⟨by decide, by decide⟩

/-- **The flags and the counters belong together in every run.**  The edge uses TCP exactly when
it was told to or has fallen back to it; the fallback is sticky as long as it lasts; there are at
most `N2N_TCP_REGISTER_SOFT_RETRIES` soft retries, during a fallback only; and at most three
stages of fast retries. -/
theorem flagsOk_of_reach {e : Edge} (h : edgeMachine.Reach anyStep e) :
    (e.transport.activeSnTransport = .tcp ↔
      e.transport.connectTcp = true ∨ e.transport.tcpFallbackActive = true) ∧
    e.transport.tcpStickyAfterFallback = e.transport.tcpFallbackActive ∧
    e.transport.tcpRegisterSoftRetryBudget ≤ tcpRegisterSoftRetries ∧
    (e.transport.tcpRegisterSoftRetryBudget ≠ 0 → e.transport.tcpFallbackActive = true) ∧
    e.transport.registerFastRetryCount ≤ 3 := by
  have hok := (holds_flagsOk h).view
  exact ⟨hok.transport, hok.sticky, hok.budget, hok.fallback, hok.retries⟩

/-- An edge that falls back to TCP. -/
theorem flagsOk_fallback :
    (startedEdge false sparedSockets).connect.switchToTcp.1.transport.tcpStickyAfterFallback =
      (startedEdge false sparedSockets).connect.switchToTcp.1.transport.tcpFallbackActive :=
  (flagsOk_of_reach (.step EdgeCall.switchToTcp (.step EdgeCall.connect
    (.init (startedEdge_initial false sparedSockets_ok)) trivial trivial) trivial trivial)).2.1

/-! ### The socket in use -/

/-- The descriptor of the transport in use. -/
def TransportView.inUse (v : TransportView) : ℤ :=
  if v.flags.activeSnTransport = .tcp then v.tcpSock else v.udpSock

/-- `eee->sock` is -1 or the open descriptor of the transport in use. -/
def SockCoherent (t : EdgeTransport) : Prop :=
  t.sock = -1 ∨ 0 ≤ t.view.inUse ∧ t.sock = t.view.inUse

/-- What is known about the descriptors themselves. -/
structure BoundsOk (v : TransportView) : Prop where
  udp : -1 ≤ v.udpSock
  tcp : -1 ≤ v.tcpSock
  valid : 0 ≤ v.tcpSock → v.tcpSnSockValid = true

/-- The invariant: `eee->sock` is a copy of the descriptor in use. -/
structure LinkOk (v : TransportView) : Prop where
  flags : FlagsOk v.flags
  bounds : BoundsOk v
  copy : v.sock = v.inUse

section

variable {t : EdgeTransport} {os : SocketResults}

theorem BoundsOk.inUse {v : TransportView} (h : BoundsOk v) : -1 ≤ v.inUse := by
  unfold TransportView.inUse
  split
  · exact h.tcp
  · exact h.udp

theorem LinkOk.coherent (h : LinkOk t.view) : SockCoherent t := by
  have hbound := h.bounds.inUse
  rw [SockCoherent, show t.sock = t.view.inUse from h.copy]
  omega

theorem sync_sock : (edgeSyncActiveSocket t).sock = t.view.inUse := by
  change (if edgeTransportUsesTcp t then t.tcpSock else t.udpSock) =
    if t.flags.activeSnTransport = .tcp then t.tcpSock else t.udpSock
  simp only [usesTcp_iff]

theorem setActive_sock (transport : SnTransport) : (edgeSetActiveTransport t transport).sock =
    (edgeSetActiveTransport t transport).view.inUse :=
  sync_sock (t := { t with activeSnTransport := transport })

/-- After `edge_sync_active_socket` the copy is right. -/
theorem LinkOk.sync (hflags : FlagsOk t.flags) (hbounds : BoundsOk t.view) :
    LinkOk (edgeSyncActiveSocket t).view :=
  ⟨hflags, ⟨hbounds.udp, hbounds.tcp, hbounds.valid⟩, sync_sock⟩

theorem BoundsOk.disconnectTcp (h : BoundsOk t.view) :
    BoundsOk (supernodeDisconnectTcp t).view := by
  have hneg : (supernodeDisconnectTcp t).tcpSock < 0 := supernodeDisconnectTcp_tcpSock
  refine ⟨h.udp, ?_, fun h0 => absurd h0 (by simpa [EdgeTransport.view] using hneg)⟩
  have htcp := h.tcp
  simp only [EdgeTransport.view, supernodeDisconnectTcp] at htcp ⊢
  split <;> omega

theorem BoundsOk.disconnectUdp (h : BoundsOk t.view) :
    BoundsOk (supernodeDisconnectUdp t).view := by
  refine ⟨?_, h.tcp, h.valid⟩
  have hudp := h.udp
  simp only [EdgeTransport.view, supernodeDisconnectUdp, edgeResetSupernodeKcpState] at hudp ⊢
  split <;> omega

theorem BoundsOk.connectUdp (h : BoundsOk t.view) (hos : AnswerOk os) :
    BoundsOk (supernodeConnectUdpSocket t os).1.view := by
  unfold supernodeConnectUdpSocket
  split
  · exact h
  · exact ⟨hos.1, h.tcp, h.valid⟩

theorem BoundsOk.connectTcp (h : BoundsOk t.view) (hos : AnswerOk os) :
    BoundsOk (supernodeConnectTcpSocket t os).1.view := by
  unfold supernodeConnectTcpSocket
  split
  · exact h
  · extract_lets t₁ t₂
    have h₁ : BoundsOk t₁.view := h.disconnectTcp
    have h₂ : os.tcp < 0 → BoundsOk t₂.view := fun hneg =>
      ⟨h₁.udp, hos.2, fun h0 => absurd h0 (not_le.mpr hneg)⟩
    split
    · next hneg => exact h₂ hneg
    · split
      · refine ⟨h₁.udp, ?_, fun h0 => absurd h0 (not_le.mpr supernodeDisconnectTcp_tcpSock)⟩
        change -1 ≤ (supernodeDisconnectTcp t₂).tcpSock
        have htcp : -1 ≤ t₂.tcpSock := hos.2
        simp only [supernodeDisconnectTcp]
        split <;> omega
      · exact ⟨h₁.udp, hos.2, fun _ => rfl⟩

theorem BoundsOk.release (h : BoundsOk t.view) :
    BoundsOk (edgeReleaseTcpStickyAfterDisconnect t).view := by
  unfold edgeReleaseTcpStickyAfterDisconnect
  split
  · exact h
  · exact ⟨h.udp, h.tcp, h.valid⟩

/-- Nothing but the TCP socket is touched. -/
theorem connectTcp_rest (t : EdgeTransport) (os : SocketResults) :
    (supernodeConnectTcpSocket t os).1.sock = t.sock ∧
    (supernodeConnectTcpSocket t os).1.udpSock = t.udpSock := by
  unfold supernodeConnectTcpSocket
  dsimp only
  split_ifs <;> exact ⟨rfl, rfl⟩

/-- Without success there is no TCP socket. -/
theorem connectTcp_failed (h : (supernodeConnectTcpSocket t os).2 = false) :
    (supernodeConnectTcpSocket t os).1.tcpSock < 0 := by
  unfold supernodeConnectTcpSocket at h ⊢
  split
  · next hc => rw [if_pos hc] at h; exact absurd h (by simp)
  · next hc =>
    rw [if_neg hc] at h
    dsimp only at h ⊢
    split_ifs at h ⊢ with hneg
    · exact hneg
    · exact supernodeDisconnectTcp_tcpSock

/-! ### `eee->sock` follows, but for two functions -/

theorem LinkOk.release (h : LinkOk t.view) :
    LinkOk (edgeReleaseTcpStickyAfterDisconnect t).view := by
  have hflags := h.flags.release
  unfold edgeReleaseTcpStickyAfterDisconnect at hflags ⊢
  split_ifs at hflags ⊢
  · exact h
  · exact ⟨hflags, ⟨h.bounds.udp, h.bounds.tcp, h.bounds.valid⟩,
      setActive_sock (t := edgeResetSupernodeKcpState (clearTcpFallback t)) .udp⟩

theorem LinkOk.recovered (h : LinkOk t.view) : LinkOk (edgeMarkUdpRecovered t).view := by
  have hflags := h.flags.recovered
  unfold edgeMarkUdpRecovered at hflags ⊢
  split_ifs at hflags ⊢
  · exact h
  · exact h
  · exact ⟨hflags, ⟨h.bounds.udp, h.bounds.tcp, h.bounds.valid⟩,
      setActive_sock (t := clearTcpFallback t) .udp⟩

theorem LinkOk.disconnect (h : LinkOk t.view) : LinkOk (supernodeDisconnect t).view := by
  have hbounds : BoundsOk (supernodeDisconnectUdp (supernodeDisconnectTcp t)).view :=
    h.bounds.disconnectTcp.disconnectUdp
  refine ⟨h.flags, ⟨hbounds.udp, hbounds.tcp, hbounds.valid⟩, ?_⟩
  -- both sockets are closed
  have htcp : (supernodeDisconnect t).tcpSock < 0 := supernodeDisconnectTcp_tcpSock
  have hudp : (supernodeDisconnect t).udpSock < 0 := by
    change (if 0 ≤ t.udpSock then -1 else t.udpSock) < 0
    split <;> omega
  have hle : -1 ≤ (supernodeDisconnect t).tcpSock := hbounds.tcp
  have hle' : -1 ≤ (supernodeDisconnect t).udpSock := hbounds.udp
  change -1 = if t.activeSnTransport = .tcp then (supernodeDisconnect t).tcpSock
    else (supernodeDisconnect t).udpSock
  split <;> omega

theorem LinkOk.switchToTcp (h : LinkOk t.view) (hos : AnswerOk os) :
    LinkOk (edgeSwitchToTcpSupernode t os).1.view := by
  have hflags := h.flags.switchToTcp os
  unfold edgeSwitchToTcpSupernode at hflags ⊢
  split
  · exact h
  · next hc =>
    rw [if_neg hc] at hflags
    split
    · exact h
    · next hallow =>
      rw [if_neg hallow] at hflags
      extract_lets at hflags ⊢
      rename_i t₁
      have hbounds : BoundsOk (supernodeConnectTcpSocket t₁ os).1.view :=
        BoundsOk.connectTcp (t := t₁) ⟨h.bounds.udp, h.bounds.tcp, h.bounds.valid⟩ hos
      obtain ⟨hsock, hudp⟩ := connectTcp_rest t₁ os
      have hactive : (supernodeConnectTcpSocket t₁ os).1.flags = t₁.flags :=
        flags_supernodeConnectTcpSocket os
      generalize supernodeConnectTcpSocket t₁ os = r at hflags hbounds hsock hudp hactive ⊢
      obtain ⟨t₂, tcpOk⟩ := r
      dsimp only at hflags hbounds hsock hudp hactive ⊢
      split
      · next hfailed =>
        rw [if_pos hfailed] at hflags
        refine ⟨hflags, ⟨hbounds.udp, hbounds.tcp, hbounds.valid⟩, ?_⟩
        -- UDP is still in use
        have hact : t₂.activeSnTransport = t.activeSnTransport :=
          congrArg TransportFlags.activeSnTransport hactive
        rw [Bool.or_eq_true, not_or, usesTcp_iff] at hc
        have hne : t₂.activeSnTransport ≠ .tcp := hact ▸ hc.2
        have hcopy : t.sock = t.udpSock := h.copy.trans (if_neg hc.2)
        change t₂.sock = if t₂.activeSnTransport = .tcp then t₂.tcpSock else t₂.udpSock
        rw [if_neg hne, hsock, hudp]
        exact hcopy
      · next hfailed =>
        rw [if_neg hfailed] at hflags
        exact ⟨hflags, ⟨hbounds.udp, hbounds.tcp, hbounds.valid⟩, setActive_sock (t := t₂) .tcp⟩

theorem LinkOk.reconnect (h : LinkOk t.view) (hos : AnswerOk os)
    (htcp : edgeTransportUsesTcp t = true) (hneg : t.tcpSock < 0) :
    LinkOk (if (supernodeConnectTcpSocket t os).2 then
        edgeSetActiveTransport (supernodeConnectTcpSocket t os).1 .tcp
      else (supernodeConnectTcpSocket t os).1).view := by
  have hflags := carried_flagsOk.reconnect hos h.flags htcp hneg
  have hbounds := h.bounds.connectTcp hos
  split
  · next hok =>
    rw [if_pos hok] at hflags
    exact ⟨hflags, ⟨hbounds.udp, hbounds.tcp, hbounds.valid⟩, setActive_sock .tcp⟩
  · next hfailed =>
    rw [if_neg hfailed] at hflags
    refine ⟨hflags, hbounds, ?_⟩
    -- there was no descriptor, and there is none now
    have hnow := connectTcp_failed (Bool.not_eq_true _ ▸ hfailed)
    have hle : -1 ≤ (supernodeConnectTcpSocket t os).1.tcpSock := hbounds.tcp
    have hle' : -1 ≤ t.tcpSock := h.bounds.tcp
    have hact : (supernodeConnectTcpSocket t os).1.activeSnTransport = .tcp :=
      (congrArg TransportFlags.activeSnTransport (flags_supernodeConnectTcpSocket os)).trans
        (usesTcp_iff.mp htcp)
    have hcopy : t.sock = t.tcpSock := by
      rw [show t.sock = t.view.inUse from h.copy]
      exact if_pos (usesTcp_iff.mp htcp)
    change (supernodeConnectTcpSocket t os).1.sock =
      if (supernodeConnectTcpSocket t os).1.activeSnTransport = .tcp then
        (supernodeConnectTcpSocket t os).1.tcpSock else _
    rw [if_pos hact, (connectTcp_rest t os).1]
    omega

theorem LinkOk.errOut (h : LinkOk t.view) (hos : AnswerOk os) (ms : UInt32) :
    LinkOk (sendtoFdErrOut t os ms).view := by
  have hflags := h.flags.errOut os ms
  unfold sendtoFdErrOut at hflags ⊢
  split
  · exact h
  · next htcp =>
    rw [if_neg htcp] at hflags
    split
    · next hretry =>
      rw [if_pos hretry] at hflags
      extract_lets at hflags ⊢
      rename_i t₁
      have h₁ : BoundsOk (supernodeDisconnectTcp t₁).view :=
        BoundsOk.disconnectTcp (t := t₁) ⟨h.bounds.udp, h.bounds.tcp, h.bounds.valid⟩
      have hbounds := h₁.connectTcp hos
      generalize supernodeConnectTcpSocket (supernodeDisconnectTcp t₁) os = r at hflags hbounds ⊢
      obtain ⟨t₂, tcpOk⟩ := r
      dsimp only at hflags hbounds ⊢
      refine LinkOk.sync hflags ?_
      split
      · exact ⟨hbounds.udp, hbounds.tcp, hbounds.valid⟩
      · exact ⟨hbounds.udp, hbounds.tcp, hbounds.valid⟩
    · next hretry =>
      rw [if_neg hretry] at hflags
      refine LinkOk.sync hflags (BoundsOk.release ?_)
      exact h.bounds.disconnectTcp

theorem LinkOk.readFailed (h : LinkOk t.view) : LinkOk (tcpReadFailed t).view :=
  LinkOk.sync (carried_flagsOk.readFailed h.flags) h.bounds.disconnectTcp.release

theorem LinkOk.of_flags (h : LinkOk t.view) {f : TransportFlags} (hflags : FlagsOk f)
    (hactive : f.activeSnTransport = t.activeSnTransport) :
    LinkOk { t.view with flags := f } := by
  refine ⟨hflags, ⟨h.bounds.udp, h.bounds.tcp, h.bounds.valid⟩, ?_⟩
  have hcopy := h.copy
  simp only [TransportView.inUse, EdgeTransport.view, EdgeTransport.flags] at hcopy ⊢
  rwa [hactive]

theorem carried_linkOk : Carried LinkOk where
  errOut := fun ms hos h => h.errOut hos ms
  release := fun h => h.release
  recovered := fun h => h.recovered
  disconnect := fun h => h.disconnect
  readFailed := fun h => h.readFailed
  readTooLong := fun h => h.disconnect.release
  switchToTcp := fun hos h => h.switchToTcp hos
  reconnect := fun hos h htcp hneg => h.reconnect hos htcp hneg
  calm := fun h => h.of_flags (h.flags.calm true) rfl
  calmRetry := fun h => h.of_flags (h.flags.calm false) rfl
  nextStage := fun h => h.of_flags h.flags.nextStage rfl
  sticky := fun h => h.flags.sticky

/-! ### `supernode_connect` -/

/-- The first half of `supernode_connect`: what belongs to another supernode is dropped. -/
def dropElsewhere (t : EdgeTransport) : EdgeTransport :=
  let t := if (t.snKcpCtrl.active && !edgeDestIsCurrentSupernode t t.snKcpCtrl.remoteSock) ||
      (t.snKcpData.active && !edgeDestIsCurrentSupernode t t.snKcpData.remoteSock) then
    edgeResetSupernodeKcpState t
  else t
  if t.tcpSnSockValid && !edgeDestIsCurrentSupernode t t.tcpSnSock then supernodeDisconnectTcp t
  else t

/-- The second half: sockets are opened. -/
def openSnSockets (t : EdgeTransport) (os : SocketResults) : EdgeTransport :=
  let (t, udpOk) := if t.connectTcp then (t, true) else supernodeConnectUdpSocket t os
  if !udpOk then t
  else if t.connectTcp || t.tcpFallbackActive then
    let (t, tcpOk) := supernodeConnectTcpSocket t os
    if !tcpOk then t else edgeSyncActiveSocket { t with activeSnTransport := .tcp }
  else edgeSyncActiveSocket { t with activeSnTransport := .udp }

theorem supernodeConnect_eq : supernodeConnect t os = openSnSockets (dropElsewhere t) os := rfl

/-- A TCP connection to another supernode is closed, and nothing else that counts happens. -/
theorem dropElsewhere_spec (h : BoundsOk t.view) :
    (dropElsewhere t).flags = t.flags ∧ (dropElsewhere t).sock = t.sock ∧
      (dropElsewhere t).udpSock = t.udpSock ∧ BoundsOk (dropElsewhere t).view ∧
      ((dropElsewhere t).tcpSock = t.tcpSock ∧
          (0 ≤ t.tcpSock → edgeDestIsCurrentSupernode (dropElsewhere t)
            (dropElsewhere t).tcpSnSock = true ∧
            edgeDestIsCurrentSupernode t t.tcpSnSock = true) ∨
        (dropElsewhere t).tcpSock < 0 ∧ edgeDestIsCurrentSupernode t t.tcpSnSock = false) := by
  unfold dropElsewhere
  extract_lets t₁
  -- the sessions of KCP do not matter
  have h₁ : t₁.flags = t.flags ∧ t₁.sock = t.sock ∧ t₁.udpSock = t.udpSock ∧
      t₁.tcpSock = t.tcpSock ∧ t₁.tcpSnSock = t.tcpSnSock ∧
      t₁.tcpSnSockValid = t.tcpSnSockValid ∧ t₁.currSnSock = t.currSnSock := by
    simp only [t₁]
    split <;> exact ⟨rfl, rfl, rfl, rfl, rfl, rfl, rfl⟩
  obtain ⟨hflags, hsock, hudp, htcp, hsn, hvalid, hcurr⟩ := h₁
  have hdest : edgeDestIsCurrentSupernode t₁ t₁.tcpSnSock =
      edgeDestIsCurrentSupernode t t.tcpSnSock := by
    unfold edgeDestIsCurrentSupernode
    rw [hsn, hcurr]
  have hbounds : BoundsOk t₁.view := by
    refine ⟨h.udp.trans_eq hudp.symm, h.tcp.trans_eq htcp.symm, fun h0 => ?_⟩
    · exact hvalid.trans (h.valid (le_of_le_of_eq h0 htcp))
  split
  · next hc =>
    rw [Bool.and_eq_true, Bool.not_eq_true', hdest] at hc
    exact ⟨hflags, hsock, hudp, hbounds.disconnectTcp, .inr ⟨supernodeDisconnectTcp_tcpSock, hc.2⟩⟩
  · next hc =>
    refine ⟨hflags, hsock, hudp, hbounds, .inl ⟨htcp, fun h0 => ?_⟩⟩
    have hv : t₁.tcpSnSockValid = true := hvalid.trans (h.valid h0)
    rw [hv, Bool.true_and, Bool.not_eq_true', Bool.not_eq_false, hdest] at hc
    exact ⟨hdest.trans hc, hc⟩

/-- A socket that `supernode_connect` closes although it is in use can be replaced: UDP, if the
edge needs it, and TCP are there. -/
def ConnectOk (t : EdgeTransport) (os : SocketResults) : Prop :=
  edgeTransportUsesTcp t = true → 0 ≤ t.tcpSock →
    edgeDestIsCurrentSupernode t t.tcpSnSock = false →
    (t.connectTcp = true ∨ 0 ≤ t.udpSock ∨ 0 ≤ os.udp) ∧ 0 ≤ os.tcp ∧ os.connected = true

/-- The UDP socket is there, unless the edge does without. -/
theorem connectUdp_ok (t : EdgeTransport) (os : SocketResults) :
    (if t.connectTcp then (t, true) else supernodeConnectUdpSocket t os).2 =
      decide (t.connectTcp = true ∨ 0 ≤ t.udpSock ∨ 0 ≤ os.udp) ∧
    (if t.connectTcp then (t, true) else supernodeConnectUdpSocket t os).1.view =
      { t.view with udpSock := if t.connectTcp || 0 ≤ t.udpSock then t.udpSock else os.udp } ∧
    (if t.connectTcp then (t, true) else supernodeConnectUdpSocket t os).1.tcpSnSock =
      t.tcpSnSock ∧
    (if t.connectTcp then (t, true) else supernodeConnectUdpSocket t os).1.currSnSock =
      t.currSnSock := by
  unfold supernodeConnectUdpSocket
  by_cases hc : t.connectTcp = true
  · simp [hc, EdgeTransport.view]
  · by_cases hudp : 0 ≤ t.udpSock <;> simp [hc, hudp, EdgeTransport.view, EdgeTransport.flags]

/-- A new connection is made if the system allows it, and one that is there is kept. -/
theorem connectTcp_ok_iff (h : BoundsOk t.view) (os : SocketResults) :
    (supernodeConnectTcpSocket t os).2 = true ↔
      0 ≤ t.tcpSock ∧ edgeDestIsCurrentSupernode t t.tcpSnSock = true ∨
        0 ≤ os.tcp ∧ os.connected = true := by
  have hv := h.valid
  simp only [EdgeTransport.view] at hv
  unfold supernodeConnectTcpSocket
  by_cases hc :
      (0 ≤ t.tcpSock && t.tcpSnSockValid && edgeDestIsCurrentSupernode t t.tcpSnSock) = true
  · rw [if_pos hc]
    simp only [Bool.and_eq_true, decide_eq_true_eq] at hc
    simp [hc]
  · rw [if_neg hc]
    have hnot : ¬ (0 ≤ t.tcpSock ∧ edgeDestIsCurrentSupernode t t.tcpSnSock = true) := by
      rintro ⟨h0, hdest⟩
      exact hc (by simp [h0, hv h0, hdest])
    dsimp only
    split_ifs with hneg hconn
    · simp only [false_iff, not_or]
      exact ⟨hnot, fun hpos => absurd hpos.1 (by omega)⟩
    · simp only [false_iff, not_or]
      exact ⟨hnot, fun hpos => by simp [hpos.2] at hconn⟩
    · simp only [true_iff]
      exact .inr ⟨by omega, by simpa using hconn⟩

/-- How the second half can come out. -/
theorem openSnSockets_cases (h : BoundsOk t.view) (hos : AnswerOk os) :
    BoundsOk (openSnSockets t os).view ∧
    ((t.connectTcp = true ∨ 0 ≤ t.udpSock ∨ 0 ≤ os.udp) ∧
        (t.connectTcp = true ∨ t.tcpFallbackActive = true →
          0 ≤ t.tcpSock ∧ edgeDestIsCurrentSupernode t t.tcpSnSock = true ∨
            0 ≤ os.tcp ∧ os.connected = true) ∧
        (openSnSockets t os).sock = (openSnSockets t os).view.inUse ∨
      -- no UDP socket
      ¬ (t.connectTcp = true ∨ 0 ≤ t.udpSock ∨ 0 ≤ os.udp) ∧
        (openSnSockets t os).sock = t.sock ∧ (openSnSockets t os).flags = t.flags ∧
        (openSnSockets t os).tcpSock = t.tcpSock ∧ (openSnSockets t os).udpSock < 0 ∨
      -- no TCP connection
      (t.connectTcp = true ∨ t.tcpFallbackActive = true) ∧
        ¬ (0 ≤ t.tcpSock ∧ edgeDestIsCurrentSupernode t t.tcpSnSock = true ∨
          0 ≤ os.tcp ∧ os.connected = true) ∧
        (openSnSockets t os).sock = t.sock ∧ (openSnSockets t os).flags = t.flags ∧
        (openSnSockets t os).tcpSock < 0) := by
  obtain ⟨hudpOk, hview, hsn, hcurr⟩ := connectUdp_ok t os
  have hbounds₁ : BoundsOk
      (if t.connectTcp then (t, true) else supernodeConnectUdpSocket t os).1.view := by
    split
    · exact h
    · exact h.connectUdp hos
  unfold openSnSockets
  generalize (if t.connectTcp then (t, true) else supernodeConnectUdpSocket t os) = r₁
    at hudpOk hview hsn hcurr hbounds₁ ⊢
  obtain ⟨t₁, udpOk⟩ := r₁
  dsimp only at hudpOk hview hsn hcurr hbounds₁ ⊢
  have hflags : t₁.flags = t.flags := congrArg TransportView.flags hview
  have hsock : t₁.sock = t.sock := congrArg TransportView.sock hview
  have htcp : t₁.tcpSock = t.tcpSock := congrArg TransportView.tcpSock hview
  have hudp : t₁.udpSock = if t.connectTcp || 0 ≤ t.udpSock then t.udpSock else os.udp :=
    congrArg TransportView.udpSock hview
  have hwant : (t₁.connectTcp || t₁.tcpFallbackActive) = true ↔
      t.connectTcp = true ∨ t.tcpFallbackActive = true := by
    rw [Bool.or_eq_true, show t₁.connectTcp = t.connectTcp from
      congrArg TransportFlags.connectTcp hflags, show t₁.tcpFallbackActive =
      t.tcpFallbackActive from congrArg TransportFlags.tcpFallbackActive hflags]
  have hdest : edgeDestIsCurrentSupernode t₁ t₁.tcpSnSock =
      edgeDestIsCurrentSupernode t t.tcpSnSock := by
    unfold edgeDestIsCurrentSupernode
    rw [hsn, hcurr]
  split
  · next hno =>
    rw [hudpOk, Bool.not_eq_true', decide_eq_false_iff_not] at hno
    refine ⟨hbounds₁, .inr (.inl ⟨hno, hsock, hflags, htcp, ?_⟩)⟩
    simp only [not_or, not_le, Bool.not_eq_true] at hno
    rw [hudp, if_neg (by simp [hno])]
    exact hno.2.2
  · next hyes =>
    rw [hudpOk, Bool.not_eq_true', Bool.not_eq_false, decide_eq_true_eq] at hyes
    split
    · next hwanted =>
      have hok := connectTcp_ok_iff hbounds₁ os
      rw [htcp, hdest] at hok
      have hbounds₂ := hbounds₁.connectTcp hos
      have hflags₂ := flags_supernodeConnectTcpSocket (t := t₁) os
      have hfailed : (supernodeConnectTcpSocket t₁ os).2 = false → _ := connectTcp_failed
      have hrest := connectTcp_rest t₁ os
      generalize supernodeConnectTcpSocket t₁ os = r₂ at hok hbounds₂ hflags₂ hfailed hrest ⊢
      obtain ⟨t₂, tcpOk⟩ := r₂
      dsimp only at hok hbounds₂ hflags₂ hfailed hrest ⊢
      split
      · next hno =>
        rw [Bool.not_eq_true'] at hno
        refine ⟨hbounds₂, .inr (.inr ⟨hwant.mp hwanted, ?_, hrest.1.trans hsock,
          hflags₂.trans hflags, hfailed hno⟩)⟩
        rw [← hok, hno]
        exact Bool.false_ne_true
      · next htrue =>
        rw [Bool.not_eq_true', Bool.not_eq_false] at htrue
        exact ⟨⟨hbounds₂.udp, hbounds₂.tcp, hbounds₂.valid⟩,
          .inl ⟨hyes, fun _ => hok.mp htrue, sync_sock⟩⟩
    · next hwanted =>
      exact ⟨⟨hbounds₁.udp, hbounds₁.tcp, hbounds₁.valid⟩,
        .inl ⟨hyes, fun hw => absurd (hwant.mpr hw) hwanted, sync_sock⟩⟩

/-- If a closed socket can be replaced, `supernode_connect` leaves everything in order. -/
theorem LinkOk.connect (h : LinkOk t.view) (hos : AnswerOk os) (hc : ConnectOk t os) :
    LinkOk (supernodeConnect t os).view := by
  have hflags := h.flags.connect os
  rw [supernodeConnect_eq] at hflags ⊢
  obtain ⟨hflags₁, hsock₁, hudp₁, hbounds₁, htcp₁⟩ := dropElsewhere_spec h.bounds
  obtain ⟨hbounds, hcases⟩ := openSnSockets_cases hbounds₁ hos
  have hconn₁ : (dropElsewhere t).connectTcp = t.connectTcp :=
    congrArg TransportFlags.connectTcp hflags₁
  have hcopy : t.sock = if t.activeSnTransport = .tcp then t.tcpSock else t.udpSock := h.copy
  refine ⟨hflags, hbounds, ?_⟩
  have hinUse : (openSnSockets (dropElsewhere t) os).flags = (dropElsewhere t).flags →
      (openSnSockets (dropElsewhere t) os).view.inUse = if t.activeSnTransport = .tcp then
        (openSnSockets (dropElsewhere t) os).tcpSock
      else (openSnSockets (dropElsewhere t) os).udpSock := by
    intro hf
    have hact : (openSnSockets (dropElsewhere t) os).activeSnTransport = t.activeSnTransport :=
      congrArg TransportFlags.activeSnTransport (hf.trans hflags₁)
    rw [← hact]
    rfl
  have htcp : edgeTransportUsesTcp t = true ↔ t.activeSnTransport = .tcp := usesTcp_iff
  have hle : -1 ≤ t.tcpSock := h.bounds.tcp
  have hle' : -1 ≤ t.udpSock := h.bounds.udp
  have hbt : -1 ≤ (openSnSockets (dropElsewhere t) os).tcpSock := hbounds.tcp
  have hbu : -1 ≤ (openSnSockets (dropElsewhere t) os).udpSock := hbounds.udp
  change (openSnSockets (dropElsewhere t) os).sock = _
  rcases hcases with ⟨-, -, hsync⟩ | ⟨hno, hsock, hf, htcpSame, hudpNeg⟩ |
    ⟨hwanted, hno, hsock, hf, htcpNeg⟩
  · exact hsync
  · rw [hsock, hsock₁, hinUse hf, hcopy, htcpSame]
    rw [hconn₁, hudp₁] at hno
    simp only [not_or, not_le] at hno
    split
    · next hact =>
      rcases htcp₁ with ⟨hsame, -⟩ | ⟨hneg, hdest⟩
      · exact hsame.symm
      · -- the connection has been closed, so the UDP socket can be opened
        by_contra hne
        have hpos : 0 ≤ t.tcpSock := by
          have hdrop : -1 ≤ (dropElsewhere t).tcpSock := hbounds₁.tcp
          omega
        have hok := (hc (htcp.mpr hact) hpos hdest).1
        rcases hok with hconn | hudp | hudp
        · exact hno.1 hconn
        · omega
        · omega
    · omega
  · have hact : t.activeSnTransport = .tcp := by
      have hfb : (dropElsewhere t).tcpFallbackActive = t.tcpFallbackActive :=
        congrArg TransportFlags.tcpFallbackActive hflags₁
      rw [hconn₁, hfb] at hwanted
      exact h.flags.transport.mpr hwanted
    rw [hsock, hsock₁, hinUse hf, hcopy, if_pos hact, if_pos hact]
    rw [not_or] at hno
    rcases htcp₁ with ⟨hsame, hdest⟩ | ⟨hneg, hdest⟩
    · by_contra hne
      have hpos : 0 ≤ t.tcpSock := by omega
      exact hno.1 ⟨by omega, (hdest hpos).1⟩
    · by_contra hne
      have hpos : 0 ≤ t.tcpSock := by omega
      exact hno.2 (hc (htcp.mpr hact) hpos hdest).2

/-- **The condition is exact**: if it fails, `eee->sock` is left with the closed socket. -/
theorem connect_coherent_iff (h : LinkOk t.view) (hos : AnswerOk os) :
    SockCoherent (supernodeConnect t os) ↔ ConnectOk t os := by
  refine ⟨?_, fun hc => (h.connect hos hc).coherent⟩
  intro hcoh htcp hpos hdest
  rw [supernodeConnect_eq] at hcoh
  obtain ⟨hflags₁, hsock₁, hudp₁, hbounds₁, htcp₁⟩ := dropElsewhere_spec h.bounds
  obtain ⟨-, hcases⟩ := openSnSockets_cases hbounds₁ hos
  have hconn₁ : (dropElsewhere t).connectTcp = t.connectTcp :=
    congrArg TransportFlags.connectTcp hflags₁
  have hfb₁ : (dropElsewhere t).tcpFallbackActive = t.tcpFallbackActive :=
    congrArg TransportFlags.tcpFallbackActive hflags₁
  have hact := usesTcp_iff.mp htcp
  have hcopy : t.sock = t.tcpSock := h.copy.trans (if_pos hact)
  have hwanted := h.flags.transport.mp hact
  -- the connection in use has been closed
  have hclosed : (dropElsewhere t).tcpSock < 0 := by
    rcases htcp₁ with ⟨-, hsame⟩ | ⟨hneg, -⟩
    · exact absurd (hdest.symm.trans (hsame hpos).2) Bool.false_ne_true
    · exact hneg
  have hstale : (openSnSockets (dropElsewhere t) os).sock = (dropElsewhere t).sock →
      (openSnSockets (dropElsewhere t) os).flags = (dropElsewhere t).flags →
      ¬ (openSnSockets (dropElsewhere t) os).tcpSock < 0 := by
    intro hsock hf hneg
    have hinUse : (openSnSockets (dropElsewhere t) os).view.inUse =
        (openSnSockets (dropElsewhere t) os).tcpSock :=
      if_pos ((congrArg TransportFlags.activeSnTransport (hf.trans hflags₁)).trans hact)
    rw [SockCoherent, hsock, hsock₁, hcopy, hinUse] at hcoh
    omega
  rcases hcases with ⟨hudp, htcpOk, -⟩ | ⟨-, hsock, hf, hsame, -⟩ | ⟨-, -, hsock, hf, hneg⟩
  · rw [hconn₁, hudp₁] at hudp
    rw [hconn₁, hfb₁] at htcpOk
    refine ⟨hudp, (htcpOk hwanted).resolve_left ?_⟩
    rintro ⟨hopen, -⟩
    omega
  · exact absurd (hsame.trans_lt hclosed) (hstale hsock hf)
  · exact absurd hneg (hstale hsock hf)

/-! ### `edge_recycle_udp_supernode_socket` -/

/-- A UDP socket in use can be opened again. -/
def RecycleOk (t : EdgeTransport) (os : SocketResults) : Prop :=
  t.connectTcp = false → edgeTransportUsesTcp t = false → 0 ≤ t.udpSock → 0 ≤ os.udp

/-- What it does: the socket is closed, and the answer of the system is the new one. -/
theorem recycle_spec (hconn : t.connectTcp = false) (os : SocketResults) :
    (edgeRecycleUdpSupernodeSocket t os).udpSock = os.udp ∧
      (edgeRecycleUdpSupernodeSocket t os).tcpSock = t.tcpSock ∧
      (edgeRecycleUdpSupernodeSocket t os).tcpSnSockValid = t.tcpSnSockValid ∧
      if 0 ≤ os.udp then
        (edgeRecycleUdpSupernodeSocket t os).sock =
          (edgeRecycleUdpSupernodeSocket t os).view.inUse
      else
        (edgeRecycleUdpSupernodeSocket t os).sock = t.sock ∧
          (edgeRecycleUdpSupernodeSocket t os).flags = t.flags := by
  have hopen : supernodeConnectUdpSocket (supernodeDisconnectUdp t) os =
      ({ supernodeDisconnectUdp t with udpSock := os.udp }, decide (0 ≤ os.udp)) := by
    unfold supernodeConnectUdpSocket
    rw [if_neg]
    change ¬ 0 ≤ if 0 ≤ t.udpSock then -1 else t.udpSock
    split <;> omega
  unfold edgeRecycleUdpSupernodeSocket
  rw [if_neg (by simp [hconn]), hopen]
  dsimp only
  by_cases hudp : 0 ≤ os.udp
  · rw [if_neg (by simp [hudp]), if_pos hudp]
    refine ⟨?_, ?_, ?_, sync_sock⟩ <;> split <;> rfl
  · rw [if_pos (by simp [hudp]), if_neg hudp]
    exact ⟨rfl, rfl, rfl, rfl, rfl⟩

theorem LinkOk.recycle (h : LinkOk t.view) (hos : AnswerOk os) (hc : RecycleOk t os) :
    LinkOk (edgeRecycleUdpSupernodeSocket t os).view := by
  cases hconn : t.connectTcp with
  | true =>
    unfold edgeRecycleUdpSupernodeSocket
    rw [if_pos hconn]
    exact h
  | false =>
    obtain ⟨hudp, htcp, hvalid, hrest⟩ := recycle_spec hconn os
    refine ⟨h.flags.recycle os, ⟨hos.1.trans_eq hudp.symm, h.bounds.tcp.trans_eq htcp.symm,
      fun h0 => hvalid.trans (h.bounds.valid (htcp.le.trans' h0))⟩, ?_⟩
    split at hrest
    · exact hrest
    · next hneg =>
      obtain ⟨hsock, hflags⟩ := hrest
      have hact : (edgeRecycleUdpSupernodeSocket t os).activeSnTransport = t.activeSnTransport :=
        congrArg TransportFlags.activeSnTransport hflags
      have hcopy : t.sock = if t.activeSnTransport = .tcp then t.tcpSock else t.udpSock := h.copy
      change (edgeRecycleUdpSupernodeSocket t os).sock =
        if (edgeRecycleUdpSupernodeSocket t os).activeSnTransport = .tcp then
          (edgeRecycleUdpSupernodeSocket t os).tcpSock
        else (edgeRecycleUdpSupernodeSocket t os).udpSock
      rw [hsock, hact, htcp, hudp, hcopy]
      split
      · rfl
      · next hne =>
        -- without a socket before there is none to close
        have hle : -1 ≤ t.udpSock := h.bounds.udp
        have hle' := hos.1
        have hudpNeg : ¬ 0 ≤ t.udpSock := fun h0 => hneg
          (hc hconn (Bool.not_eq_true _ ▸ fun htcp => hne (usesTcp_iff.mp htcp)) h0)
        omega

/-- **The condition is exact**: if it fails, `eee->sock` is left with the closed socket. -/
theorem recycle_coherent_iff (h : LinkOk t.view) (hos : AnswerOk os) :
    SockCoherent (edgeRecycleUdpSupernodeSocket t os) ↔ RecycleOk t os := by
  refine ⟨?_, fun hc => (h.recycle hos hc).coherent⟩
  intro hcoh hconn hudpUsed hpos
  obtain ⟨hudp, -, -, hrest⟩ := recycle_spec hconn os
  by_contra hneg
  rw [if_neg hneg] at hrest
  have hact : t.activeSnTransport ≠ .tcp := fun hact => by
    rw [usesTcp_iff.mpr hact] at hudpUsed
    exact absurd hudpUsed (by decide)
  have hcopy : t.sock = t.udpSock := h.copy.trans (if_neg hact)
  have hinUse : (edgeRecycleUdpSupernodeSocket t os).view.inUse = os.udp :=
    (if_neg (by rw [show (edgeRecycleUdpSupernodeSocket t os).view.flags = t.flags from hrest.2]
                exact hact)).trans hudp
  rw [SockCoherent, hrest.1, hcopy, hinUse] at hcoh
  omega

end

/-! ### Runs -/

namespace Edge

/-- In forced-TCP mode `update_supernode_reg` may give an open connection up for a supernode at
another address; then the new one can be made. -/
def UpdateOk (e : Edge) (now : ℤ) (rank : ℕ → ℕ) : Prop :=
  e.registrationDue now e.nowMs.2 = true → e.transport.supAttempts = 0 →
    e.transport.connectTcp = true → 0 ≤ e.transport.tcpSock → e.closesSockets = false →
    sockEqual e.transport.tcpSnSock (e.selectionSort rank).takeHeadSn.sn.sock = false →
    0 ≤ (e.env.sockets.get 1).tcp ∧ (e.env.sockets.get 1).connected = true

/-- Up to the attempt itself `update_supernode_reg` leaves nearly everything alone. -/
theorem beforeAttempt_eq {e : Edge} (h : LinkOk e.transport.view) {now : ℤ}
    (hzero : (e.beforeAttempt now).transport.supAttempts = 0) :
    ∃ joined env, e.beforeAttempt now = { e with multicastJoined := joined, env := env } ∧
      env.sockets = e.env.sockets ∧
      (e.transport.tcpFallbackActive && edgeTransportUsesTcp e.transport) = false := by
  unfold beforeAttempt at hzero ⊢
  extract_lets v at hzero
  extract_lets
  have hv : ∃ env, v = { e with env := env } ∧ env.sockets = e.env.sockets := by
    simp only [v]
    split
    · exact ⟨_, rfl, rfl⟩
    · exact ⟨_, rfl, rfl⟩
  obtain ⟨env, hv, henv⟩ := hv
  have hjoin : ∃ joined env, v.checkJoinMulticastGroup =
      { e with multicastJoined := joined, env := env } ∧ env.sockets = e.env.sockets := by
    rw [hv]
    unfold checkJoinMulticastGroup
    split
    · exact ⟨_, _, rfl, henv⟩
    · exact ⟨_, _, rfl, henv⟩
  obtain ⟨joined, env, hjoin, henv⟩ := hjoin
  rw [hjoin, probeUdp_eq (e := { e with multicastJoined := joined, env := env }) h.flags.sticky]
    at hzero ⊢
  split at hzero
  · exact absurd hzero one_ne_zero
  · next hno =>
    rw [if_neg hno]
    exact ⟨joined, env, rfl, henv, Bool.not_eq_true _ ▸ hno⟩

end Edge

/-- A switch to TCP that fails leaves the transport as it is. -/
theorem switchToTcp_failed {t : EdgeTransport} {os : SocketResults}
    (h : (edgeSwitchToTcpSupernode t os).2 = false) :
    (edgeSwitchToTcpSupernode t os).1.flags.activeSnTransport = t.flags.activeSnTransport := by
  unfold edgeSwitchToTcpSupernode at h ⊢
  split_ifs at h ⊢ with h₁ h₂
  · rfl
  · rfl
  · extract_lets at h ⊢
    rename_i t₁
    have hflags : (supernodeConnectTcpSocket t₁ os).1.flags = t₁.flags :=
      flags_supernodeConnectTcpSocket os
    generalize supernodeConnectTcpSocket t₁ os = r at h hflags ⊢
    obtain ⟨t₂, tcpOk⟩ := r
    dsimp only at h hflags ⊢
    split_ifs at h ⊢
    have hactive : t₂.activeSnTransport = t₁.activeSnTransport :=
      congrArg TransportFlags.activeSnTransport hflags
    exact hactive

/-- When the edge gives up on a supernode, its sockets are closed or stay as they are. -/
theorem Edge.giveUp_spec (e : Edge) (rank : ℕ → ℕ) :
    (e.giveUp rank).transport.flags = e.transport.flags ∧ (e.giveUp rank).env = e.env ∧
      (e.giveUp rank).sn = (e.selectionSort rank).takeHeadSn.sn ∧
      ((e.giveUp rank).transport.tcpSock < 0 ∨
        e.closesSockets = false ∧ (e.giveUp rank).transport.tcpSock = e.transport.tcpSock ∧
          (e.giveUp rank).transport.tcpSnSock = e.transport.tcpSnSock) := by
  unfold Edge.giveUp Edge.countReconnect
  dsimp only
  split
  · exact ⟨rfl, rfl, rfl, .inl supernodeDisconnectTcp_tcpSock⟩
  · next hclose =>
    have hcloses : e.closesSockets = false := Bool.not_eq_true _ ▸ hclose
    split
    · exact ⟨rfl, rfl, rfl, .inr ⟨hcloses, rfl, rfl⟩⟩
    · exact ⟨rfl, rfl, rfl, .inr ⟨hcloses, rfl, rfl⟩⟩

theorem Edge.takeHeadSn_sn {e e' : Edge} (h : e'.supernodes = e.supernodes) :
    e'.takeHeadSn.sn = e.takeHeadSn.sn := by
  simp only [Edge.takeHeadSn, Edge.onTransport, Edge.sn, Edge.headSn, h]

/-- In forced-TCP mode there is nothing to switch to. -/
theorem Edge.switchToTcp_forced {e : Edge} (h : e.transport.connectTcp = true) :
    e.switchToTcp.1 = { e.openSockets.1 with transport := e.link } := by
  have hstay : edgeSwitchToTcpSupernode e.openSockets.1.link e.openSockets.2 = (e.link, false) := by
    unfold edgeSwitchToTcpSupernode
    rw [if_pos]
    · rfl
    · rw [show e.openSockets.1.link.connectTcp = e.transport.connectTcp from rfl, h]
      rfl
  unfold Edge.switchToTcp
  dsimp only
  rw [hstay]

/-- The condition on `update_supernode_reg` is the one on the connection that it makes. -/
theorem Edge.UpdateOk.connectOk {e : Edge} {now : ℤ} {rank : ℕ → ℕ} (h : LinkOk e.transport.view)
    (hok : e.UpdateOk now rank) (hdue : e.registrationDue now e.nowMs.2 = true)
    (hzero : (e.nowMs.1.beforeAttempt now).transport.supAttempts = 0)
    (hfailed : (e.nowMs.1.beforeAttempt now).switchToTcp.2 = false) :
    ConnectOk (e.givenUp now rank).link (e.givenUp now rank).env.sockets.head := by
  obtain ⟨joined, env, hv, henv, hfallback⟩ := Edge.beforeAttempt_eq (e := e.nowMs.1) h hzero
  unfold Edge.givenUp
  generalize hu : e.nowMs.1.beforeAttempt now = u at hv hzero hfailed ⊢
  have htrans : u.transport = e.transport := by rw [hv]; rfl
  have hsockets : u.env.sockets = e.env.sockets := by rw [hv]; exact henv
  have hsupernodes : u.supernodes = e.supernodes := by rw [hv]; rfl
  obtain ⟨hflags, henv', hsn, hcases⟩ := u.switchToTcp.1.giveUp_spec rank
  intro htcp hpos hdest
  have hact : e.transport.flags.activeSnTransport = .tcp := by
    rw [← htrans]
    exact (switchToTcp_failed hfailed).symm.trans
      ((congrArg TransportFlags.activeSnTransport hflags).symm.trans (usesTcp_iff.mp htcp))
  -- TCP is in use although it is no fallback, so the edge was told to
  have hforced : e.transport.connectTcp = true := by
    have huses : edgeTransportUsesTcp e.nowMs.1.transport = true := usesTcp_iff.mpr hact
    rw [huses, Bool.and_true] at hfallback
    refine (h.flags.transport.mp hact).resolve_right fun hfb => ?_
    exact absurd (hfb.symm.trans hfallback) (by decide)
  have hswitch := Edge.switchToTcp_forced (e := u) (by rw [htrans]; exact hforced)
  rw [hswitch] at hflags henv' hsn hcases hpos hdest ⊢
  rcases hcases with hneg | ⟨hcloses, hsame, hsame'⟩
  · exact absurd hneg (not_lt.mpr hpos)
  · have hcloses₀ : e.closesSockets = false := by
      rw [← hcloses, hv]
      rfl
    have hsame₀ : u.link.tcpSock = e.transport.tcpSock := by
      rw [← htrans]
      rfl
    have hpos₀ : 0 ≤ e.transport.tcpSock := by
      rw [← hsame₀, ← hsame]
      exact hpos
    have hsn₀ : u.link.tcpSnSock = e.transport.tcpSnSock := by
      rw [← htrans]
      rfl
    have hupdate := hok hdue (by rw [← htrans]; exact hzero) hforced hpos₀ hcloses₀
    rw [henv']
    have hget : Stream'.head u.openSockets.1.env.sockets = e.env.sockets.get 1 := by
      rw [← hsockets]
      rfl
    have hconn : u.link.connectTcp = true := by
      rw [show u.link.connectTcp = u.transport.connectTcp from rfl, htrans]
      exact hforced
    refine ⟨.inl ((congrArg TransportFlags.connectTcp hflags).trans hconn), ?_⟩
    change 0 ≤ (Stream'.head u.openSockets.1.env.sockets).tcp ∧
      (Stream'.head u.openSockets.1.env.sockets).connected = true
    rw [hget]
    refine hupdate ?_
    rw [← hsn₀, ← hsame']
    refine Eq.trans (congrArg _ ?_) hdest
    refine congrArg PeerInfo.sock (Eq.trans ?_ hsn.symm)
    exact (Edge.takeHeadSn_sn (by
      change Table.sortOn u.supernodes rank = Table.sortOn e.supernodes rank
      rw [hsupernodes])).symm

/-- The condition on a call: what it closes and what is in use can be opened again. -/
def CallOk (e : Edge) : EdgeCall → Prop
  | .connect => ConnectOk e.link e.env.sockets.head
  | .recycleUdp => RecycleOk e.transport e.env.sockets.head
  | .updateSupernodeReg now rank => e.UpdateOk now rank
  | _ => True

/-- **A call that meets the condition leaves everything in order.** -/
theorem linkOk_apply {e : Edge} (h : e.Holds LinkOk) {c : EdgeCall} (hok : CallOk e c) :
    (c.apply e).Holds LinkOk := by
  have hconnect : ∀ {v : Edge}, v.Holds LinkOk → ConnectOk v.link v.env.sockets.head →
      v.connect.Holds LinkOk := fun {v} hv hc =>
    ⟨LinkOk.connect (t := v.openSockets.1.link) hv.view (hv.answers 0) hc,
      fun n => hv.answers (n + 1)⟩
  refine h.apply carried_linkOk c ?_ ?_ ?_
  · rintro rfl
    exact hconnect h hok
  · rintro rfl
    exact ⟨LinkOk.recycle (t := e.openSockets.1.link) h.view (h.answers 0) hok,
      fun n => h.answers (n + 1)⟩
  · rintro now rank rfl
    exact h.updateSupernodeReg carried_linkOk now rank fun hdue hzero hfailed hgiven =>
      hconnect hgiven (Edge.UpdateOk.connectOk h.view hok hdue hzero hfailed)

theorem Edge.Initial.linkOk {e : Edge} (h : e.Initial) : e.Holds LinkOk := by
  obtain ⟨hsock, hudp, htcp⟩ := h.sockets
  refine ⟨⟨h.flagsOk.view, ⟨hudp.ge, htcp.ge, fun h0 => ?_⟩, ?_⟩, h.answers⟩
  · have hneg : e.transport.tcpSock = -1 := htcp
    have hpos : 0 ≤ e.transport.tcpSock := h0
    omega
  · change e.transport.sock =
      if e.transport.activeSnTransport = .tcp then e.transport.tcpSock else e.transport.udpSock
    rw [hsock, hudp, htcp, ite_self]

/-- **`eee->sock` is -1 or the open descriptor of the transport in use**, in every state of a run
in which every socket that is closed while it is in use can be opened again. -/
theorem sockCoherent_of_reach {e : Edge} (h : edgeMachine.Reach CallOk e) :
    SockCoherent e.transport := by
  have hok : e.Holds LinkOk := h.invariant (I := Edge.Holds LinkOk) (fun _ => Edge.Initial.linkOk)
    fun _ _ h _ hc => linkOk_apply h hc
  exact hok.view.coherent

/-- A UDP socket can be opened, once. -/
def oneSocket : Stream' SocketResults := Stream'.cons ⟨3, -1, false⟩ (Stream'.const ⟨-1, -1, false⟩)

theorem oneSocket_ok (n : ℕ) : AnswerOk (oneSocket.get n) := by
  cases n with
  | zero => exact ⟨by decide, by decide⟩
  | succ n => exact show AnswerOk ⟨-1, -1, false⟩ from ⟨by decide, by decide⟩

/-- The edge connects and recycles its socket, which it cannot open again: `eee->sock` is left
with descriptor 3. -/
theorem not_sockCoherent : ¬ ∀ e, edgeMachine.Reach anyStep e → SockCoherent e.transport := by
  intro hall
  have hinit : edgeMachine.init (startedEdge false oneSocket) :=
    startedEdge_initial false oneSocket_ok
  have hreach : edgeMachine.Reach anyStep
      ([EdgeCall.connect, .recycleUdp].foldl edgeMachine.step (startedEdge false oneSocket)) :=
    Machine.Reach.runs (.init hinit) ⟨trivial, trivial, trivial⟩
  rcases hall _ hreach with hsock | ⟨hopen, -⟩
  · exact absurd hsock (by decide)
  · exact absurd hopen (by decide)

/-- An edge that can open its socket again. -/
theorem sockCoherent_spared :
    SockCoherent (startedEdge false sparedSockets).connect.recycleUdp.transport := by
  have hconnect : CallOk (startedEdge false sparedSockets) .connect :=
    fun htcp => absurd htcp (by decide)
  have hrecycle : CallOk (startedEdge false sparedSockets).connect .recycleUdp :=
    fun _ _ _ => by decide
  exact sockCoherent_of_reach (.step EdgeCall.recycleUdp (.step EdgeCall.connect
    (.init (startedEdge_initial false sparedSockets_ok)) trivial hconnect) trivial hrecycle)

end N2n
