import N2nTun.Define

/-!
# The edge's transports to its supernode

The sockets of an edge and the functions of `edge_utils.c` that open, close and
select them.  `eee->sock` is the active one of `udp_sock` and `tcp_sock`.  What
the operating system answers is an argument.

## Main definitions

* `EdgeTransport` — the fields of `n2n_edge_t` these functions work on.
* `supernodeConnect`, `supernodeDisconnect`, `edgeSwitchToTcpSupernode`, … — the
  functions under the names of the source.
* `TransportOp` — everything else the edge does to its transports while it
  handles a packet or a timer.
-/

namespace N2n

/-- `n2n_sn_transport_t`. -/
inductive SnTransport where
  | udp
  | tcp
  deriving DecidableEq

/-- What n2n looks at in an `ikcpcb`; the rest belongs to the KCP library. -/
structure Ikcpcb where
  conv : UInt32
  state : UInt32
  deriving DecidableEq

/-- `n2n_kcp_ctx_t`. -/
structure EdgeKcpCtx where
  kcp : Option Ikcpcb
  remoteSock : Sock
  conv : UInt32
  active : Bool
  rxConfirmCount : UInt8
  lastSeen : ℤ
  /-- how many packets have been accepted since the session was set up; not in the source -/
  accepted : ℕ
  deriving DecidableEq

/-- A context after `n2n_kcp_ctx_term`. -/
def EdgeKcpCtx.term : EdgeKcpCtx := ⟨none, Sock.zero, 0, false, 0, 0, 0⟩

/-- The transport part of `n2n_edge_t`. -/
structure EdgeTransport where
  /-- `conf.connect_tcp` -/
  connectTcp : Bool
  /-- `conf.allow_tcp_fallback` -/
  allowTcpFallback : Bool
  /-- `curr_sn->sock` -/
  currSnSock : Sock
  sock : ℤ
  udpSock : ℤ
  tcpSock : ℤ
  udpMulticastSock : ℤ
  tcpSnSock : Sock
  tcpSnSockValid : Bool
  activeSnTransport : SnTransport
  tcpFallbackActive : Bool
  tcpStickyAfterFallback : Bool
  kcpProbePending : Bool
  kcpProbeCookie : UInt32
  lastKcpProbe : ℤ
  registerFastRetryCount : UInt8
  tcpRegisterSoftRetryBudget : UInt8
  registerSuperSoftRetryArmed : Bool
  registerSuperRequestActive : Bool
  registerSuperCookie : UInt32
  registerSuperAuth : Auth
  sendingRegisterSuper : Bool
  sendingSupernodeControl : Bool
  lastRegisterReqMs : UInt32
  snWait : UInt8
  supAttempts : ℕ
  snKcpCtrl : EdgeKcpCtx
  snKcpData : EdgeKcpCtx
  snKcpCtrlConfirmed : Bool
  snKcpDataConfirmed : Bool
  /-- how many TCP connections have been opened; not in the source -/
  tcpOpened : ℕ

/-- `N2N_EDGE_SUP_ATTEMPTS`. -/
def edgeSupAttempts : ℕ := 3

/-- `N2N_TCP_REGISTER_SOFT_RETRIES`. -/
def tcpRegisterSoftRetries : UInt8 := 2

/-- The answers of the operating system to the opening of sockets: the new
descriptors, negative for a failure, and whether `connect` went well or is in
progress. -/
structure SocketResults where
  udp : ℤ
  tcp : ℤ
  connected : Bool
  deriving DecidableEq

variable (eee : EdgeTransport)

/-- `edge_transport_uses_tcp`. -/
def edgeTransportUsesTcp : Bool := eee.activeSnTransport == .tcp

/-- `reset_sup_attempts`. -/
def resetSupAttempts : EdgeTransport :=
  { eee with supAttempts := if edgeTransportUsesTcp eee then 1 else edgeSupAttempts }

/-- `edge_reset_supernode_kcp_state`. -/
def edgeResetSupernodeKcpState : EdgeTransport :=
  { eee with
    snKcpCtrl := .term
    snKcpData := .term
    snKcpCtrlConfirmed := false
    snKcpDataConfirmed := false }

/-- `edge_reset_register_super_request`. -/
def edgeResetRegisterSuperRequest : EdgeTransport :=
  { eee with
    registerSuperRequestActive := false
    registerSuperCookie := 0
    registerSuperAuth := Auth.zero }

/-- `edge_sync_active_socket`. -/
def edgeSyncActiveSocket : EdgeTransport :=
  { eee with sock := if edgeTransportUsesTcp eee then eee.tcpSock else eee.udpSock }

/-- `edge_set_active_transport`. -/
def edgeSetActiveTransport (transport : SnTransport) : EdgeTransport :=
  edgeSyncActiveSocket { eee with activeSnTransport := transport }

/-- `edge_dest_is_current_supernode`. -/
def edgeDestIsCurrentSupernode (sock : Sock) : Bool := sockEqual sock eee.currSnSock

/-- `supernode_disconnect_udp`. -/
def supernodeDisconnectUdp : EdgeTransport :=
  edgeResetSupernodeKcpState { eee with udpSock := if 0 ≤ eee.udpSock then -1 else eee.udpSock }

/-- `supernode_disconnect_tcp`. -/
def supernodeDisconnectTcp : EdgeTransport :=
  { eee with
    tcpSock := if 0 ≤ eee.tcpSock then -1 else eee.tcpSock
    tcpSnSock := { Sock.zero with family := afInvalid }
    tcpSnSockValid := false }

/-- The fields that the end of a TCP fallback clears. -/
def clearTcpFallback : EdgeTransport :=
  edgeResetRegisterSuperRequest { eee with
    tcpStickyAfterFallback := false
    tcpFallbackActive := false
    kcpProbePending := false
    kcpProbeCookie := 0
    lastKcpProbe := 0
    registerFastRetryCount := 0
    tcpRegisterSoftRetryBudget := 0
    registerSuperSoftRetryArmed := false }

/-- `edge_release_tcp_sticky_after_disconnect`. -/
def edgeReleaseTcpStickyAfterDisconnect : EdgeTransport :=
  if eee.connectTcp || !eee.tcpStickyAfterFallback then eee
  else
    resetSupAttempts (edgeSetActiveTransport
      (edgeResetSupernodeKcpState (clearTcpFallback eee)) .udp)

/-- `edge_mark_udp_recovered`. -/
def edgeMarkUdpRecovered : EdgeTransport :=
  if eee.connectTcp || !eee.tcpFallbackActive then eee
  else if eee.tcpStickyAfterFallback then eee
  else resetSupAttempts (edgeSetActiveTransport (clearTcpFallback eee) .udp)

/-- `supernode_connect_udp_socket`, and whether it succeeded. -/
def supernodeConnectUdpSocket (os : SocketResults) : EdgeTransport × Bool :=
  if 0 ≤ eee.udpSock then (eee, true)
  else ({ eee with udpSock := os.udp }, 0 ≤ os.udp)

/-- `supernode_connect_tcp_socket`, and whether it succeeded. -/
def supernodeConnectTcpSocket (os : SocketResults) : EdgeTransport × Bool :=
  if 0 ≤ eee.tcpSock && eee.tcpSnSockValid && edgeDestIsCurrentSupernode eee eee.tcpSnSock then
    (eee, true)
  else
    let eee := supernodeDisconnectTcp eee
    let eee := { eee with tcpSock := os.tcp }
    if os.tcp < 0 then (eee, false)
    else if !os.connected then (supernodeDisconnectTcp eee, false)
    else
      ({ eee with
        tcpSnSock := eee.currSnSock
        tcpSnSockValid := true
        tcpOpened := eee.tcpOpened + 1 }, true)

/-- `supernode_connect`. -/
def supernodeConnect (os : SocketResults) : EdgeTransport :=
  let kcpElsewhere :=
    (eee.snKcpCtrl.active && !edgeDestIsCurrentSupernode eee eee.snKcpCtrl.remoteSock) ||
      (eee.snKcpData.active && !edgeDestIsCurrentSupernode eee eee.snKcpData.remoteSock)
  let eee := if kcpElsewhere then edgeResetSupernodeKcpState eee else eee
  let eee :=
    if eee.tcpSnSockValid && !edgeDestIsCurrentSupernode eee eee.tcpSnSock then
      supernodeDisconnectTcp eee
    else eee
  let (eee, udpOk) := if eee.connectTcp then (eee, true) else supernodeConnectUdpSocket eee os
  if !udpOk then eee
  else if eee.connectTcp || eee.tcpFallbackActive then
    let (eee, tcpOk) := supernodeConnectTcpSocket eee os
    if !tcpOk then eee else edgeSyncActiveSocket { eee with activeSnTransport := .tcp }
  else edgeSyncActiveSocket { eee with activeSnTransport := .udp }

/-- `edge_switch_to_tcp_supernode`, and what it returns. -/
def edgeSwitchToTcpSupernode (os : SocketResults) : EdgeTransport × Bool :=
  if eee.connectTcp || edgeTransportUsesTcp eee then (eee, false)
  else if !eee.allowTcpFallback then (eee, false)
  else
    let eee := { eee with
      tcpFallbackActive := true
      tcpStickyAfterFallback := true
      kcpProbePending := false
      kcpProbeCookie := 0
      lastKcpProbe := 0
      registerFastRetryCount := 0
      tcpRegisterSoftRetryBudget := tcpRegisterSoftRetries
      registerSuperSoftRetryArmed := false }
    let (eee, tcpOk) := supernodeConnectTcpSocket eee os
    if !tcpOk then
      ({ eee with
        tcpFallbackActive := false
        tcpStickyAfterFallback := false
        tcpRegisterSoftRetryBudget := 0
        registerSuperSoftRetryArmed := false }, false)
    else
      ({ resetSupAttempts (edgeSetActiveTransport eee .tcp) with snWait := 0 }, true)

/-- `supernode_disconnect`. -/
def supernodeDisconnect : EdgeTransport :=
  { supernodeDisconnectUdp (supernodeDisconnectTcp eee) with sock := -1 }

/-- `edge_recycle_udp_supernode_socket`. -/
def edgeRecycleUdpSupernodeSocket (os : SocketResults) : EdgeTransport :=
  if eee.connectTcp then eee
  else
    let (eee, udpOk) := supernodeConnectUdpSocket (supernodeDisconnectUdp eee) os
    if !udpOk then eee
    else
      let eee := if edgeTransportUsesTcp eee then eee else edgeSetActiveTransport eee .udp
      edgeSyncActiveSocket eee

/-- The end of `sendto_fd` when the socket is not ready or `sendto` has failed:
over TCP the connection is closed, and a registration may reopen it once. -/
def sendtoFdErrOut (os : SocketResults) (nowMs : UInt32) : EdgeTransport :=
  if !edgeTransportUsesTcp eee then eee
  else if eee.sendingRegisterSuper && eee.tcpFallbackActive && !eee.registerSuperSoftRetryArmed &&
      0 < eee.tcpRegisterSoftRetryBudget then
    let eee := { eee with
      registerSuperSoftRetryArmed := true
      tcpRegisterSoftRetryBudget := eee.tcpRegisterSoftRetryBudget - 1 }
    let (eee, tcpOk) := supernodeConnectTcpSocket (supernodeDisconnectTcp eee) os
    let eee := if tcpOk then edgeSetActiveTransport eee .tcp else eee
    edgeSyncActiveSocket { eee with snWait := 2, lastRegisterReqMs := nowMs }
  else
    let eee := edgeReleaseTcpStickyAfterDisconnect (supernodeDisconnectTcp eee)
    edgeSyncActiveSocket { eee with snWait := 1 }

/-! ### Operations outside the reading of sockets -/

/-- What else the edge does to its transports. -/
inductive TransportOp where
  | connect (os : SocketResults)
  | disconnect
  | switchToTcp (os : SocketResults)
  | recycleUdp (os : SocketResults)
  | markUdpRecovered
  /-- a failed send -/
  | sendError (os : SocketResults) (nowMs : UInt32)
  /-- another supernode becomes `curr_sn` -/
  | setCurrSn (sock : Sock)
  | setSnWait (value : UInt8)
  | setSending (registerSuper control : Bool)

/-- One operation. -/
def TransportOp.apply (eee : EdgeTransport) : TransportOp → EdgeTransport
  | .connect os => supernodeConnect eee os
  | .disconnect => supernodeDisconnect eee
  | .switchToTcp os => (edgeSwitchToTcpSupernode eee os).1
  | .recycleUdp os => edgeRecycleUdpSupernodeSocket eee os
  | .markUdpRecovered => edgeMarkUdpRecovered eee
  | .sendError os nowMs => sendtoFdErrOut eee os nowMs
  | .setCurrSn sock => { eee with currSnSock := sock }
  | .setSnWait value => { eee with snWait := value }
  | .setSending registerSuper control =>
    { eee with sendingRegisterSuper := registerSuper, sendingSupernodeControl := control }

/-- Operations in sequence. -/
def applyOps (eee : EdgeTransport) (ops : List TransportOp) : EdgeTransport :=
  ops.foldl TransportOp.apply eee

/-! ### The TCP connection under these operations -/

/-- From `eee` to `eee'` a TCP connection that is open has been open all the time,
unless new ones have been opened. -/
structure TcpKept (eee eee' : EdgeTransport) : Prop where
  connectTcp : eee'.connectTcp = eee.connectTcp
  opened : eee.tcpOpened ≤ eee'.tcpOpened
  sock : eee'.tcpOpened = eee.tcpOpened → 0 ≤ eee'.tcpSock → 0 ≤ eee.tcpSock

variable {eee}

theorem TcpKept.of_eq {eee' : EdgeTransport} (hconn : eee'.connectTcp = eee.connectTcp)
    (hopened : eee'.tcpOpened = eee.tcpOpened) (hsock : eee'.tcpSock = eee.tcpSock) :
    TcpKept eee eee' :=
  ⟨hconn, hopened.ge, fun _ h => hsock ▸ h⟩

theorem TcpKept.of_closed {eee' : EdgeTransport} (hconn : eee'.connectTcp = eee.connectTcp)
    (hopened : eee'.tcpOpened = eee.tcpOpened) (hsock : eee'.tcpSock < 0) : TcpKept eee eee' :=
  ⟨hconn, hopened.ge, fun _ h => absurd h (by omega)⟩

theorem TcpKept.refl (eee : EdgeTransport) : TcpKept eee eee := .of_eq rfl rfl rfl

theorem TcpKept.trans {eee' eee'' : EdgeTransport} (h : TcpKept eee eee')
    (h' : TcpKept eee' eee'') : TcpKept eee eee'' := by
  refine ⟨h'.connectTcp.trans h.connectTcp, h.opened.trans h'.opened, ?_⟩
  intro hopened hsock
  have hle := h.opened
  have hle' := h'.opened
  exact h.sock (by omega) (h'.sock (by omega) hsock)

theorem supernodeDisconnectTcp_tcpSock : (supernodeDisconnectTcp eee).tcpSock < 0 := by
  simp only [supernodeDisconnectTcp]
  split <;> omega

theorem tcpKept_disconnectTcp : TcpKept eee (supernodeDisconnectTcp eee) :=
  .of_closed rfl rfl supernodeDisconnectTcp_tcpSock

theorem tcpKept_release : TcpKept eee (edgeReleaseTcpStickyAfterDisconnect eee) := by
  unfold edgeReleaseTcpStickyAfterDisconnect
  split <;> exact .of_eq rfl rfl rfl

theorem tcpKept_markUdpRecovered : TcpKept eee (edgeMarkUdpRecovered eee) := by
  unfold edgeMarkUdpRecovered
  split
  · exact .refl _
  · split
    · exact .refl _
    · exact .of_eq rfl rfl rfl

theorem tcpKept_connectUdpSocket (os : SocketResults) :
    TcpKept eee (supernodeConnectUdpSocket eee os).1 := by
  unfold supernodeConnectUdpSocket
  split <;> exact .of_eq rfl rfl rfl

theorem tcpKept_connectTcpSocket (os : SocketResults) :
    TcpKept eee (supernodeConnectTcpSocket eee os).1 := by
  unfold supernodeConnectTcpSocket
  split
  · exact .refl _
  · simp only
    split
    · next hneg => exact .of_closed rfl rfl hneg
    · split
      · exact .of_closed rfl rfl supernodeDisconnectTcp_tcpSock
      · exact ⟨rfl, Nat.le_succ _, fun h => absurd h (Nat.succ_ne_self _)⟩

theorem tcpKept_disconnect : TcpKept eee (supernodeDisconnect eee) :=
  .of_closed rfl rfl supernodeDisconnectTcp_tcpSock

theorem TcpKept.ite {c : Prop} [Decidable c] {e₁ e₂ : EdgeTransport} (h₁ : TcpKept eee e₁)
    (h₂ : TcpKept eee e₂) : TcpKept eee (if c then e₁ else e₂) := by
  split
  · exact h₁
  · exact h₂

theorem tcpKept_connect (os : SocketResults) : TcpKept eee (supernodeConnect eee os) := by
  unfold supernodeConnect
  extract_lets kcpElsewhere e₁ e₂
  have h₁ : TcpKept eee e₁ := .ite (.of_eq rfl rfl rfl) (.refl _)
  have h₂ : TcpKept eee e₂ := .ite (h₁.trans tcpKept_disconnectTcp) h₁
  have h₃ : TcpKept eee (if e₂.connectTcp then (e₂, true)
      else supernodeConnectUdpSocket e₂ os).1 := by
    split
    · exact h₂
    · exact h₂.trans (tcpKept_connectUdpSocket os)
  generalize (if e₂.connectTcp then (e₂, true) else supernodeConnectUdpSocket e₂ os) = r₃ at h₃ ⊢
  obtain ⟨e₃, udpOk⟩ := r₃
  refine .ite h₃ (.ite ?_ (h₃.trans (.of_eq rfl rfl rfl)))
  have h₄ := h₃.trans (tcpKept_connectTcpSocket os)
  exact .ite h₄ (h₄.trans (.of_eq rfl rfl rfl))

theorem tcpKept_switchToTcp (os : SocketResults) :
    TcpKept eee (edgeSwitchToTcpSupernode eee os).1 := by
  unfold edgeSwitchToTcpSupernode
  split
  · exact .refl _
  · split
    · exact .refl _
    · extract_lets e₁
      have h₀ : TcpKept eee e₁ := .of_eq rfl rfl rfl
      have h₁ := h₀.trans (tcpKept_connectTcpSocket os)
      generalize supernodeConnectTcpSocket e₁ os = r₂ at h₁ ⊢
      obtain ⟨e₂, tcpOk⟩ := r₂
      simp only
      split <;> exact h₁.trans (.of_eq rfl rfl rfl)

theorem tcpKept_recycleUdp (os : SocketResults) :
    TcpKept eee (edgeRecycleUdpSupernodeSocket eee os) := by
  unfold edgeRecycleUdpSupernodeSocket
  refine .ite (.refl _) ?_
  have h₀ : TcpKept eee (supernodeDisconnectUdp eee) := .of_eq rfl rfl rfl
  have h₁ := h₀.trans (tcpKept_connectUdpSocket os)
  generalize supernodeConnectUdpSocket (supernodeDisconnectUdp eee) os = r₂ at h₁ ⊢
  obtain ⟨e₂, udpOk⟩ := r₂
  refine .ite h₁ ?_
  have h₂ : TcpKept eee (if edgeTransportUsesTcp e₂ then e₂ else edgeSetActiveTransport e₂ .udp) :=
    .ite h₁ (h₁.trans (.of_eq rfl rfl rfl))
  exact h₂.trans (.of_eq rfl rfl rfl)

/-- After a failed send over TCP the connection has been closed, whatever came next. -/
theorem tcpKept_errOut_of_closed (h : edgeTransportUsesTcp eee = true) (os : SocketResults)
    (nowMs : UInt32) : TcpKept (supernodeDisconnectTcp eee) (sendtoFdErrOut eee os nowMs) := by
  unfold sendtoFdErrOut
  rw [if_neg (by simp [h])]
  refine .ite ?_ ?_
  · extract_lets e₁
    have h₀ : TcpKept (supernodeDisconnectTcp eee) (supernodeDisconnectTcp e₁) :=
      .of_eq rfl rfl rfl
    have h₁ := h₀.trans (tcpKept_connectTcpSocket os)
    generalize supernodeConnectTcpSocket (supernodeDisconnectTcp e₁) os = r₂ at h₁ ⊢
    obtain ⟨e₂, tcpOk⟩ := r₂
    have h₂ : TcpKept (supernodeDisconnectTcp eee)
        (if tcpOk then edgeSetActiveTransport e₂ .tcp else e₂) :=
      .ite (h₁.trans (.of_eq rfl rfl rfl)) h₁
    exact h₂.trans (.of_eq rfl rfl rfl)
  · exact tcpKept_release.trans (.of_eq rfl rfl rfl)

theorem tcpKept_sendtoFdErrOut (os : SocketResults) (nowMs : UInt32) :
    TcpKept eee (sendtoFdErrOut eee os nowMs) := by
  cases h : edgeTransportUsesTcp eee with
  | true => exact tcpKept_disconnectTcp.trans (tcpKept_errOut_of_closed h os nowMs)
  | false =>
    unfold sendtoFdErrOut
    rw [if_pos (by simp [h])]
    exact .refl _

theorem tcpKept_apply (op : TransportOp) : TcpKept eee (op.apply eee) := by
  cases op with
  | connect os => exact tcpKept_connect os
  | disconnect => exact tcpKept_disconnect
  | switchToTcp os => exact tcpKept_switchToTcp os
  | recycleUdp os => exact tcpKept_recycleUdp os
  | markUdpRecovered => exact tcpKept_markUdpRecovered
  | sendError os nowMs => exact tcpKept_sendtoFdErrOut os nowMs
  | setCurrSn sock => exact .of_eq rfl rfl rfl
  | setSnWait value => exact .of_eq rfl rfl rfl
  | setSending registerSuper control => exact .of_eq rfl rfl rfl

/-- **Every sequence of operations keeps the TCP connection, closes it, or opens a
new one.** -/
theorem tcpKept_applyOps : ∀ (ops : List TransportOp) {eee : EdgeTransport},
    TcpKept eee (applyOps eee ops) := by
  intro ops
  induction ops with
  | nil =>
    intro eee
    exact .refl _
  | cons op ops ih =>
    intro eee
    exact (tcpKept_apply op).trans ih

end N2n
