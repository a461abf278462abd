import N2nTun.EdgeRegister
import N2nTun.Lib.Machine

/-!
# The edge as a machine of calls

A run of the edge is a sequence of calls of its functions, in any order: those that
work on the transports, those that send, and what is done with a packet that has come
in.  What a function does between such calls is a call of its own here, so that the
bootstrap and the timers of the main loop are runs too.

## Main definitions

* `EdgeCall`, `edgeMachine` — the calls, and the runs.
* `TransportView` — what there is to say about the transports.
* `Edge.Holds`, `Carried` — a property of the view, and what it has to be closed under.

## Main results

* `Edge.holds_processRegistration`, `Edge.holds_updateSupernodeReg`, … — **each function
  keeps what is closed under the elementary steps**; only where a socket is opened again is
  there something left to show.
* `Edge.sortSupernodes_calls`, `Edge.handleDeadKcpSession_calls` — the timers are runs.
-/

namespace N2n

open Machines

/-! ### What there is to say about the transports -/

/-- The settings, the flags and the counters. -/
structure TransportFlags where
  connectTcp : Bool
  activeSnTransport : SnTransport
  tcpFallbackActive : Bool
  tcpStickyAfterFallback : Bool
  tcpRegisterSoftRetryBudget : UInt8
  registerFastRetryCount : UInt8

/-- The flags and the descriptors. -/
structure TransportView where
  flags : TransportFlags
  sock : ℤ
  udpSock : ℤ
  tcpSock : ℤ
  tcpSnSockValid : Bool

namespace EdgeTransport

/-- The flags of a transport. -/
def flags (t : EdgeTransport) : TransportFlags where
  connectTcp := t.connectTcp
  activeSnTransport := t.activeSnTransport
  tcpFallbackActive := t.tcpFallbackActive
  tcpStickyAfterFallback := t.tcpStickyAfterFallback
  tcpRegisterSoftRetryBudget := t.tcpRegisterSoftRetryBudget
  registerFastRetryCount := t.registerFastRetryCount

/-- The view of a transport. -/
def view (t : EdgeTransport) : TransportView where
  flags := t.flags
  sock := t.sock
  udpSock := t.udpSock
  tcpSock := t.tcpSock
  tcpSnSockValid := t.tcpSnSockValid

end EdgeTransport

/-- `open_socket` gives a descriptor or -1. -/
def AnswerOk (os : SocketResults) : Prop := -1 ≤ os.udp ∧ -1 ≤ os.tcp

/-- The TCP branch of a read when `recvfrom` has failed. -/
def tcpReadFailed (t : EdgeTransport) : EdgeTransport :=
  edgeSyncActiveSocket
    { edgeReleaseTcpStickyAfterDisconnect (supernodeDisconnectTcp t) with snWait := 1 }

/-- The TCP branch of a read when the length of a packet is too large. -/
def tcpReadTooLong (t : EdgeTransport) : EdgeTransport :=
  { edgeReleaseTcpStickyAfterDisconnect (supernodeDisconnect t) with snWait := 1 }

/-- A property of the view that every step keeps, except that `supernode_connect` and
`edge_recycle_udp_supernode_socket` may not. -/
structure Carried (P : TransportView → Prop) : Prop where
  errOut : ∀ {t os} (ms : UInt32), AnswerOk os → P t.view → P (sendtoFdErrOut t os ms).view
  release : ∀ {t}, P t.view → P (edgeReleaseTcpStickyAfterDisconnect t).view
  recovered : ∀ {t}, P t.view → P (edgeMarkUdpRecovered t).view
  disconnect : ∀ {t}, P t.view → P (supernodeDisconnect t).view
  readFailed : ∀ {t}, P t.view → P (tcpReadFailed t).view
  readTooLong : ∀ {t}, P t.view → P (tcpReadTooLong t).view
  switchToTcp : ∀ {t os}, AnswerOk os → P t.view → P (edgeSwitchToTcpSupernode t os).1.view
  reconnect : ∀ {t os}, AnswerOk os → P t.view → edgeTransportUsesTcp t = true → t.tcpSock < 0 →
    P (if (supernodeConnectTcpSocket t os).2 then
        edgeSetActiveTransport (supernodeConnectTcpSocket t os).1 .tcp
      else (supernodeConnectTcpSocket t os).1).view
  /-- the counters go back to 0 -/
  calm : ∀ {t : EdgeTransport}, P t.view →
    P { t with registerFastRetryCount := 0, tcpRegisterSoftRetryBudget := 0 }.view
  calmRetry : ∀ {t : EdgeTransport}, P t.view → P { t with registerFastRetryCount := 0 }.view
  nextStage : ∀ {t}, P t.view → P (Edge.nextRetryStage t).view
  /-- the flags of the fallback say the same -/
  sticky : ∀ {t : EdgeTransport}, P t.view → t.tcpStickyAfterFallback = t.tcpFallbackActive

namespace Edge

/-- The property holds of the edge's transports, and the answers to come are possible. -/
structure Holds (P : TransportView → Prop) (e : Edge) : Prop where
  view : P e.transport.view
  answers : ∀ n, AnswerOk (e.env.sockets.get n)

variable {P : TransportView → Prop} {e : Edge}

theorem Holds.of_eq (h : e.Holds P) {e' : Edge} (hview : e'.transport.view = e.transport.view)
    (hsockets : e'.env.sockets = e.env.sockets) : e'.Holds P :=
  ⟨hview ▸ h.view, hsockets ▸ h.answers⟩

theorem Holds.onTransport (h : e.Holds P) {f : EdgeTransport → EdgeTransport}
    (hf : ∀ t, t.view = e.transport.view → P (f t).view) : (e.onTransport f).Holds P :=
  ⟨hf e.link rfl, h.answers⟩

/-- An update that the view does not show. -/
theorem Holds.onTransport_same (h : e.Holds P) {f : EdgeTransport → EdgeTransport}
    (hf : ∀ t, (f t).view = t.view) : (e.onTransport f).Holds P :=
  h.of_eq (hf e.link) rfl

theorem Holds.openSockets (h : e.Holds P) :
    e.openSockets.1.Holds P ∧ AnswerOk e.openSockets.2 :=
  ⟨⟨h.view, fun n => h.answers (n + 1)⟩, h.answers 0⟩

theorem Holds.ite {c : Prop} [Decidable c] {e₁ e₂ : Edge} (h₁ : c → e₁.Holds P)
    (h₂ : ¬ c → e₂.Holds P) : (if c then e₁ else e₂).Holds P := by
  split
  · next hc => exact h₁ hc
  · next hc => exact h₂ hc

theorem Holds.foldl {α : Type} {f : Edge → α → Edge} (hf : ∀ e a, Holds P e → (f e a).Holds P)
    (l : List α) : ∀ {e : Edge}, e.Holds P → (l.foldl f e).Holds P := by
  induction l with
  | nil => exact fun h => h
  | cons a l ih => exact fun h => ih (hf _ a h)

/-! ### Sending -/

theorem Holds.sendFailed (hP : Carried P) (h : e.Holds P) :
    (e.openSockets.1.nowMs.1.onTransport
      (sendtoFdErrOut · e.openSockets.2 e.openSockets.1.nowMs.2)).Holds P := by
  obtain ⟨h₁, hos⟩ := h.openSockets
  have h₂ : e.openSockets.1.nowMs.1.Holds P := h₁.of_eq rfl rfl
  refine h₂.onTransport fun t ht => hP.errOut _ hos ?_
  rw [ht]
  exact h₂.view

theorem Holds.sendtoSock (hP : Carried P) (h : e.Holds P) (dest : Sock) :
    (e.sendtoSock dest).Holds P := by
  unfold Edge.sendtoSock
  dsimp only
  split_ifs
  · exact h
  · exact h
  · exact h
  · exact Holds.sendFailed hP (h.of_eq rfl rfl)
  · exact h.of_eq rfl rfl
  · refine Holds.onTransport_same ?_ fun _ => rfl
    exact h.of_eq rfl rfl
  · exact h.of_eq rfl rfl

theorem Holds.encryptHeader (h : e.Holds P) (pktbuf : List UInt8)
    (ctx iv : Option SpeckContext) : (e.encryptHeader pktbuf ctx iv).1.Holds P := by
  unfold Edge.encryptHeader
  split_ifs
  · dsimp only
    split <;> exact h.of_eq rfl rfl
  · exact h

theorem Holds.sendControl (hP : Carried P) (h : e.Holds P) (dest : Sock) :
    (e.sendControl dest).Holds P := by
  unfold Edge.sendControl
  extract_lets e₁ e₂
  have h₁ : e₁.Holds P := h.onTransport_same fun _ => rfl
  exact (h₁.sendtoSock hP dest).onTransport_same fun _ => rfl

theorem Holds.setSending (h : e.Holds P) (registerSuper control : Bool) :
    (e.setSending registerSuper control).Holds P := by
  unfold Edge.setSending
  exact h.onTransport_same fun _ => rfl

theorem Holds.sendRegistration (hP : Carried P) (h : e.Holds P) (dest : Sock) :
    (e.sendRegistration dest).Holds P := by
  unfold Edge.sendRegistration
  extract_lets e₁ e₂
  have h₁ : e₁.Holds P := (h.setSending true true).onTransport_same fun _ => rfl
  exact ((h₁.sendtoSock hP dest).setSending false false).onTransport_same fun _ => rfl

theorem Holds.sendRegister (hP : Carried P) (h : e.Holds P) (remotePeer : Sock) :
    (e.sendRegister remotePeer).Holds P := by
  unfold Edge.sendRegister
  refine .ite (fun _ => h) fun _ => ?_
  extract_lets e₁ e₂ e₃
  have h₁ : e₁.Holds P := .ite (fun _ => h.of_eq rfl rfl) fun _ => h
  have h₂ : e₂.Holds P := .ite (fun _ => h₁.onTransport_same fun _ => rfl) fun _ => h₁
  exact (h₂.sendtoSock hP remotePeer).onTransport_same fun _ => rfl

theorem Holds.localAuth (h : e.Holds P) (auth : Auth) : (e.localAuth auth).1.Holds P := by
  unfold Edge.localAuth
  split_ifs <;> exact h.of_eq rfl rfl

theorem Holds.startRequest (h : e.Holds P) : e.startRequest.Holds P := by
  unfold Edge.startRequest
  refine .ite (fun _ => h) fun _ => ?_
  have h₁ : e.rand.1.Holds P := h.of_eq rfl rfl
  exact (h₁.localAuth _).onTransport_same fun _ => rfl

theorem Holds.modifySn (h : e.Holds P) (f : PeerInfo → PeerInfo) : (e.modifySn f).Holds P :=
  h.of_eq rfl rfl

theorem Holds.addSent (h : e.Holds P) (sent : List EdgeSent) :
    Holds P { e with sent := sent } := h.of_eq rfl rfl

theorem Holds.sendRegisterSuper (hP : Carried P) (h : e.Holds P) :
    e.sendRegisterSuper.Holds P := by
  unfold Edge.sendRegisterSuper
  extract_lets flags e₁ e₂ reg pktbuf
  have h₂ : e₂.Holds P := h.startRequest.modifySn _
  have h₃ := h₂.encryptHeader pktbuf e₂.conf.keys.ctxStatic e₂.conf.keys.ivStatic
  generalize e₂.encryptHeader pktbuf e₂.conf.keys.ctxStatic e₂.conf.keys.ivStatic = r at h₃ ⊢
  exact (h₃.addSent _).sendRegistration hP _

theorem Holds.sendUnregisterSuper (hP : Carried P) (h : e.Holds P) :
    e.sendUnregisterSuper.Holds P := by
  unfold Edge.sendUnregisterSuper
  have h₁ := h.localAuth Auth.zero
  generalize e.localAuth Auth.zero = r₁ at h₁ ⊢
  obtain ⟨e₁, auth⟩ := r₁
  dsimp only
  generalize (encodeUnregisterSuper _ _ _).bytes = pktbuf
  have h₂ := h₁.encryptHeader pktbuf e₁.conf.keys.ctxDynamic e₁.conf.keys.ivDynamic
  generalize e₁.encryptHeader pktbuf e₁.conf.keys.ctxDynamic e₁.conf.keys.ivDynamic = r₂ at h₂ ⊢
  exact (h₂.addSent _).sendControl hP _

theorem Holds.sendQueryPeer (hP : Carried P) (h : e.Holds P) (dstMac : Mac) (pings skip : ℕ) :
    (e.sendQueryPeer dstMac pings skip).Holds P := by
  unfold Edge.sendQueryPeer
  extract_lets query pktbuf
  have h₁ := h.encryptHeader pktbuf e.conf.keys.ctxDynamic e.conf.keys.ivDynamic
  generalize e.encryptHeader pktbuf e.conf.keys.ctxDynamic e.conf.keys.ivDynamic = r at h₁ ⊢
  dsimp only
  refine .ite (fun _ => ?_) fun _ => h₁.sendControl hP _
  split_ifs
  all_goals
    refine Holds.onTransport_same ?_ fun _ => rfl
    refine Holds.foldl (fun _ dest h => h.sendtoSock hP dest) _ ?_
    refine Holds.onTransport_same ?_ fun _ => rfl
    exact h₁.of_eq rfl rfl

theorem Holds.registerWithLocalPeers (hP : Carried P) (h : e.Holds P) :
    e.registerWithLocalPeers.Holds P :=
  .ite (fun _ => h.sendRegister hP _) fun _ => h

theorem Holds.registerWithKnownPeers (hP : Carried P) (h : e.Holds P) (now : ℤ) :
    (e.registerWithKnownPeers now).Holds P :=
  .foldl (fun _ peer h => h.sendRegister hP peer) _ h

/-! ### What comes in -/

theorem Holds.findPeerTimeStampAndVerify (h : e.Holds P) (sn : Option ℕ) (mac : Mac)
    (stamp : UInt64) (allowJitter : Bool) :
    (e.findPeerTimeStampAndVerify sn mac stamp allowJitter).1.Holds P := by
  unfold Edge.findPeerTimeStampAndVerify
  dsimp only
  split
  · split <;> exact h.of_eq rfl rfl
  · split
    · exact h.of_eq rfl rfl
    · split <;> exact h.of_eq rfl rfl

theorem Holds.checkStamp (h : e.Holds P) (d : EdgeDispatch) (mac : Mac) (allowJitter : Bool) :
    (e.checkStamp d mac allowJitter).1.Holds P := by
  unfold Edge.checkStamp
  split_ifs
  · exact h.findPeerTimeStampAndVerify _ _ _ _
  · exact h

theorem Holds.afterCheck {r : Edge × Bool} (h : r.1.Holds P) {next : Edge → Edge}
    (hnext : r.1.Holds P → (next r.1).Holds P) : (Edge.afterCheck r next).Holds P :=
  .ite (fun _ => hnext h) fun _ => h

theorem Holds.sendGratArp (hP : Carried P) (h : e.Holds P) : e.sendGratArp.Holds P := by
  unfold Edge.sendGratArp
  extract_lets e₁
  have h₁ : e₁.Holds P := .ite (fun _ => h.of_eq rfl rfl) fun _ => h
  exact .ite (fun _ => h₁) fun _ => .ite
    (fun _ => .foldl (fun _ dest h => h.sendtoSock hP dest) _ h₁)
    fun _ => h₁.sendtoSock hP _

theorem Holds.learnSn {tmpbuf : List UInt8} {r : Edge × Sock} (h : r.1.Holds P) (i : ℕ) :
    (Edge.learnSn tmpbuf r i).1.Holds P := by
  unfold Edge.learnSn
  dsimp only
  split_ifs <;> exact h.of_eq rfl rfl

theorem Holds.learnSns {tmpbuf : List UInt8} (is : List ℕ) : ∀ {r : Edge × Sock},
    r.1.Holds P → (is.foldl (Edge.learnSn tmpbuf) r).1.Holds P := by
  induction is with
  | nil => exact fun h => h
  | cons i is ih => exact fun h => ih (h.learnSn i)

theorem Holds.endRequest (hP : Carried P) (h : e.Holds P) :
    (e.onTransport Edge.endRequest).Holds P := by
  refine h.onTransport fun t ht => ?_
  have hcalm := hP.calm (t := t) (by rw [ht]; exact h.view)
  exact hcalm

theorem Holds.supernodeSeen (h : e.Holds P) (now : ℤ) : (e.supernodeSeen now).Holds P :=
  h.of_eq rfl rfl

theorem Holds.acceptAck (hP : Carried P) (h : e.Holds P) (rx : EdgeRx) (ra : RegisterSuperAck)
    (tmpbuf : List UInt8) : (e.acceptAck rx ra tmpbuf).Holds P := by
  unfold Edge.acceptAck
  extract_lets e₁ e₂ e₃ e₄ e₅ e₆
  have h₁ : e₁.Holds P := h.of_eq rfl rfl
  have h₂ : e₂.Holds P := .ite
    (fun _ => h₁.onTransport fun t ht => hP.recovered (by rw [ht]; exact h₁.view)) fun _ => h₁
  have h₃ : e₃.Holds P := .ite (fun _ => h₂.of_eq rfl rfl) fun _ => h₂
  have h₄ : e₄.Holds P := Holds.learnSns (r := (e₃, rx.payloadSock)) _ h₃
  have h₅ : e₅.Holds P := h₄.endRequest hP
  have h₆ : e₆.Holds P := .ite (fun _ => (h₅.sendGratArp hP).sendGratArp hP) fun _ => h₅
  exact .ite (fun _ => h₅) fun _ => h₆.supernodeSeen _

theorem Holds.setConf (h : e.Holds P) (conf : EdgeConf) : Holds P { e with conf := conf } :=
  h.of_eq rfl rfl

theorem Holds.handleRegisterSuperAck (hP : Carried P) (h : e.Holds P) (rx : EdgeRx)
    (d : EdgeDispatch) : (e.handleRegisterSuperAck rx d).Holds P := by
  unfold Edge.handleRegisterSuperAck
  dsimp only
  refine .ite (fun _ => h) fun _ => (h.checkStamp d _ false).afterCheck fun h₁ => ?_
  refine .ite (fun _ => h₁) fun _ => .ite (fun _ => h₁) fun _ => ?_
  split
  · exact h₁
  · exact (h₁.setConf _).acceptAck hP _ _ _

theorem Holds.handleRegisterSuperNak (h : e.Holds P) (d : EdgeDispatch) :
    (e.handleRegisterSuperNak d).Holds P := by
  unfold Edge.handleRegisterSuperNak
  dsimp only
  refine .ite (fun _ => h) fun _ => (h.checkStamp d _ false).afterCheck fun h₁ => ?_
  exact .ite (fun _ => h₁) fun _ => h₁.onTransport_same fun _ => rfl

theorem Holds.handleReRegisterSuper (h : e.Holds P) (d : EdgeDispatch) :
    (e.handleReRegisterSuper d).Holds P :=
  (h.checkStamp d _ false).afterCheck fun h₁ =>
    .ite (fun _ => h₁) fun _ => h₁.onTransport_same fun _ => rfl

theorem Holds.learnPeer (hP : Carried P) (h : e.Holds P) (cmn : Common) (pi : PeerInfoMsg)
    (now : ℤ) {store : Edge → (EdgePeer → EdgePeer) → Edge}
    (hstore : ∀ e f, Holds P e → (store e f).Holds P) :
    (e.learnPeer cmn pi now store).Holds P := by
  have h₁ := hstore _ (fun peer => { peer with sock := pi.sock }) (h.supernodeSeen now)
  exact (Holds.ite (fun _ => (hstore _ _ h₁).sendRegister hP _) fun _ => h₁).sendRegister hP _

theorem Holds.handlePeerInfo (hP : Carried P) (h : e.Holds P) (rx : EdgeRx) (d : EdgeDispatch) :
    (e.handlePeerInfo rx d).Holds P := by
  unfold Edge.handlePeerInfo
  dsimp only
  refine (h.checkStamp d _ true).afterCheck fun h₁ => ?_
  refine .ite (fun _ => h₁) fun _ => .ite (fun _ => ?_) fun _ => ?_
  · split
    · refine Holds.supernodeSeen ?_ _
      exact h₁.of_eq rfl rfl
    · exact h₁.of_eq rfl rfl
  · split
    · exact h₁.learnPeer hP _ _ _ fun _ _ h => h.of_eq rfl rfl
    · split
      · exact h₁.learnPeer hP _ _ _ fun _ _ h => h.of_eq rfl rfl
      · exact h₁

/-- **A message of a supernode** keeps the property. -/
theorem Holds.processRegistration (hP : Carried P) (h : e.Holds P) (rx : EdgeRx) :
    (e.processRegistration rx).Holds P := by
  unfold Edge.processRegistration
  split
  · exact h
  · next d _ =>
    exact .ite (fun _ => h.handleRegisterSuperAck hP rx d) fun _ =>
      .ite (fun _ => h.handleRegisterSuperNak d) fun _ =>
      .ite (fun _ => h.handlePeerInfo hP rx d) fun _ =>
      .ite (fun _ => h.handleReRegisterSuper d) fun _ => h

/-! ### The choice of the supernode -/

theorem Holds.selectionSort (h : e.Holds P) (rank : ℕ → ℕ) : (e.selectionSort rank).Holds P :=
  h.of_eq rfl rfl

theorem Holds.setCurrSn (h : e.Holds P) (p : ℕ) : Holds P { e with currSn := p } := h.of_eq rfl rfl

theorem Holds.takeHeadSn (h : e.Holds P) : e.takeHeadSn.Holds P := by
  unfold Edge.takeHeadSn
  exact (h.setCurrSn _).onTransport_same fun _ => rfl

theorem Holds.disconnect (hP : Carried P) (h : e.Holds P) : e.disconnect.Holds P :=
  h.onTransport fun t ht => hP.disconnect (by rw [ht]; exact h.view)

theorem Holds.switchToTcp (hP : Carried P) (h : e.Holds P) : e.switchToTcp.1.Holds P := by
  obtain ⟨h₁, hos⟩ := h.openSockets
  exact ⟨hP.switchToTcp (t := e.openSockets.1.link) hos h₁.view, h₁.answers⟩

theorem Holds.reconnectTcp (hP : Carried P) (h : e.Holds P) : e.reconnectTcp.1.Holds P := by
  unfold Edge.reconnectTcp
  split
  · next hc =>
    rw [Bool.and_eq_true, decide_eq_true_eq] at hc
    obtain ⟨h₁, hos⟩ := h.openSockets
    have hview := hP.reconnect (t := e.openSockets.1.link) hos h₁.view hc.1 hc.2
    dsimp only
    split_ifs at hview ⊢ <;> exact ⟨hview, h₁.answers⟩
  · exact h

theorem Holds.countReconnect (hP : Carried P) (h : e.Holds P) : e.countReconnect.Holds P :=
  .ite (fun _ => Holds.disconnect hP (h.of_eq rfl rfl)) fun _ => .ite
    (fun _ => h.of_eq rfl rfl) fun _ => h

theorem Holds.giveUp (hP : Carried P) (h : e.Holds P) (rank : ℕ → ℕ) :
    (e.giveUp rank).Holds P := by
  have h₁ : Holds P { (e.selectionSort rank).takeHeadSn with resolutionRequest := true } :=
    (h.selectionSort rank).takeHeadSn.of_eq rfl rfl
  exact h₁.countReconnect hP

/-! ### `update_supernode_reg` -/

theorem Holds.checkJoinMulticastGroup (h : e.Holds P) : e.checkJoinMulticastGroup.Holds P :=
  .ite (fun _ => h.of_eq rfl rfl) fun _ => h

/-- The fallback is sticky as long as it is active, so that the supernode is never tried over
UDP. -/
theorem probeUdp_eq (h : e.transport.tcpStickyAfterFallback = e.transport.tcpFallbackActive)
    (now : ℤ) : e.probeUdp now =
      if e.transport.tcpFallbackActive && edgeTransportUsesTcp e.transport then
        e.onTransport fun t => { t with supAttempts := 1 }
      else e := by
  unfold probeUdp
  split
  · next hc =>
    rw [Bool.and_eq_true] at hc
    dsimp only
    rw [if_neg]
    rintro ⟨hsticky, -⟩
    rw [h, hc.1] at hsticky
    exact absurd hsticky (by decide)
  · rfl

theorem Holds.probeUdp (hP : Carried P) (h : e.Holds P) (now : ℤ) : (e.probeUdp now).Holds P := by
  rw [probeUdp_eq (hP.sticky h.view)]
  exact .ite (fun _ => h.onTransport_same fun _ => rfl) fun _ => h

theorem Holds.nextAttempt (hP : Carried P) (h : e.Holds P) (rank : ℕ → ℕ)
    (hconnect : e.transport.supAttempts = 0 → e.switchToTcp.2 = false →
      (e.switchToTcp.1.giveUp rank).Holds P → (e.switchToTcp.1.giveUp rank).connect.Holds P) :
    (e.nextAttempt rank).Holds P := by
  unfold Edge.nextAttempt
  dsimp only
  refine .ite (fun hzero => ?_) fun _ => h.onTransport_same fun _ => rfl
  have h₁ := h.switchToTcp hP
  exact .ite (fun _ => h₁) fun hfailed =>
    hconnect hzero (Bool.not_eq_true _ ▸ hfailed) (h₁.giveUp hP rank)

theorem Holds.setLastRegisterReq (h : e.Holds P) (now : ℤ) :
    Holds P { e with lastRegisterReq := now } := h.of_eq rfl rfl

theorem Holds.register (hP : Carried P) (h : e.Holds P) (now off : ℤ) (currentMs : UInt32)
    (wasWaiting : Bool) : (e.register now off currentMs wasWaiting).Holds P := by
  unfold Edge.register
  extract_lets e₁ e₂
  have h₁ : e₁.Holds P := (h.sendRegisterSuper hP).registerWithLocalPeers hP
  have h₂ : e₂.Holds P := .ite (fun _ => h₁.registerWithKnownPeers hP now) fun _ => h₁
  refine (h₂.setLastRegisterReq _).onTransport fun t ht => ?_
  have hview : P { t with snWait := 1, lastRegisterReqMs := currentMs }.view := by
    rw [show EdgeTransport.view { t with snWait := 1, lastRegisterReqMs := currentMs } =
      e₂.transport.view from ht]
    exact h₂.view
  dsimp only
  split
  · exact hP.nextStage hview
  · exact hP.calmRetry hview

theorem Holds.beforeAttempt (hP : Carried P) (h : e.Holds P) (now : ℤ) :
    (e.beforeAttempt now).Holds P := by
  have h₁ : Holds P (if e.transport.snWait = 2 then e.rand.1 else e) :=
    .ite (fun _ => h.of_eq rfl rfl) fun _ => h
  exact h₁.checkJoinMulticastGroup.probeUdp hP now

theorem Holds.awaitTcp (hP : Carried P) (h : e.Holds P) (now : ℤ) (currentMs : UInt32)
    (wasWaiting : Bool) : (e.awaitTcp now currentMs wasWaiting).Holds P := by
  unfold Edge.awaitTcp
  refine (h.setLastRegisterReq _).onTransport fun t ht => ?_
  have hview : P { t with snWait := 1, lastRegisterReqMs := currentMs }.view := by
    rw [show EdgeTransport.view { t with snWait := 1, lastRegisterReqMs := currentMs } =
      e.transport.view from ht]
    exact h.view
  dsimp only
  split
  · exact hP.nextStage hview
  · exact hview

/-- The state in which `update_supernode_reg` connects to the next supernode. -/
def givenUp (e : Edge) (now : ℤ) (rank : ℕ → ℕ) : Edge :=
  (e.nowMs.1.beforeAttempt now).switchToTcp.1.giveUp rank

/-- **`update_supernode_reg` keeps the property**, if the connection to the next supernode
does. -/
theorem Holds.updateSupernodeReg (hP : Carried P) (h : e.Holds P) (now : ℤ) (rank : ℕ → ℕ)
    (hconnect : e.registrationDue now e.nowMs.2 = true →
      (e.nowMs.1.beforeAttempt now).transport.supAttempts = 0 →
      (e.nowMs.1.beforeAttempt now).switchToTcp.2 = false →
      (e.givenUp now rank).Holds P → (e.givenUp now rank).connect.Holds P) :
    (e.updateSupernodeReg now rank).Holds P := by
  unfold Edge.updateSupernodeReg
  have h₀ : e.nowMs.1.Holds P := h.of_eq rfl rfl
  dsimp only
  refine .ite (fun _ => h₀) fun hdue => ?_
  rw [Bool.not_eq_true', Bool.not_eq_false] at hdue
  have h₁ := h₀.beforeAttempt hP now
  refine .ite (fun _ => h₁.onTransport fun t ht => ?_) fun _ => ?_
  · -- the fallback is put off
    have hcalm := hP.calm (t := t) (by rw [ht]; exact h₁.view)
    exact hcalm
  · have h₂ := (h₁.nextAttempt hP rank (hconnect hdue)).reconnectTcp hP
    exact .ite (fun _ => h₂.register hP _ _ _ _) fun _ => h₂.awaitTcp hP _ _ _

end Edge

/-! ### Calls -/

/-- The calls that a run of the edge is made of.  The last of them stand for what the other
functions, the resolver and the TAP device change. -/
inductive EdgeCall where
  | connect
  | disconnect
  | switchToTcp
  | releaseTcpSticky
  | markUdpRecovered
  | recycleUdp
  | sendtoSock (dest : Sock)
  | sendControl (dest : Sock)
  | sendRegister (remotePeer : Sock)
  | sendRegisterSuper
  | sendUnregisterSuper
  | sendQueryPeer (dstMac : Mac) (pings skip : ℕ)
  /-- a message of a supernode, over any transport -/
  | processUdp (rx : EdgeRx)
  /-- `recvfrom` fails on the TCP connection -/
  | readFailed
  /-- a length does not fit, in the TCP connection -/
  | readTooLong
  | updateSupernodeReg (now : ℤ) (rank : ℕ → ℕ)
  /-- `n2n_kcp_edge_input` and `n2n_kcp_edge_update` -/
  | kcp (ctrl data : EdgeKcpCtx) (ctrlConfirmed dataConfirmed : Bool)
  | resetKcp
  | selectionSort (rank : ℕ → ℕ)
  | setCurrSn (p : ℕ)
  | resetSupAttempts
  | setSnWait (value : UInt8)
  | setTimes (lastRegisterReq lastSweep : ℤ)
  | resolved (p : ℕ) (sock : Sock)
  | setPeers (known pending : Table EdgePeer)
  | setDevice (mac : Mac) (ipAddr deviceMask : UInt32)
  | setPreferredSock (sock : Sock)
  | setRxTransport (transport : RxTransport)
  | endBootstrap

/-- What the bootstrap leaves the transport with. -/
def endBootstrap (t : EdgeTransport) : EdgeTransport :=
  edgeResetRegisterSuperRequest { t with
    snWait := 1
    lastRegisterReqMs := 0
    registerFastRetryCount := 0
    tcpRegisterSoftRetryBudget := 0
    registerSuperSoftRetryArmed := false
    sendingSupernodeControl := false }

/-- One call. -/
def EdgeCall.apply (e : Edge) : EdgeCall → Edge
  | .connect => e.connect
  | .disconnect => e.disconnect
  | .switchToTcp => e.switchToTcp.1
  | .releaseTcpSticky => e.onTransport edgeReleaseTcpStickyAfterDisconnect
  | .markUdpRecovered => e.onTransport edgeMarkUdpRecovered
  | .recycleUdp => e.recycleUdp
  | .sendtoSock dest => e.sendtoSock dest
  | .sendControl dest => e.sendControl dest
  | .sendRegister remotePeer => e.sendRegister remotePeer
  | .sendRegisterSuper => e.sendRegisterSuper
  | .sendUnregisterSuper => e.sendUnregisterSuper
  | .sendQueryPeer dstMac pings skip => e.sendQueryPeer dstMac pings skip
  | .processUdp rx => e.processRegistration rx
  | .readFailed => e.onTransport tcpReadFailed
  | .readTooLong => e.onTransport tcpReadTooLong
  | .updateSupernodeReg now rank => e.updateSupernodeReg now rank
  | .kcp ctrl data ctrlConfirmed dataConfirmed =>
    e.onTransport fun t =>
      { t with
        snKcpCtrl := ctrl
        snKcpData := data
        snKcpCtrlConfirmed := ctrlConfirmed
        snKcpDataConfirmed := dataConfirmed }
  | .resetKcp => e.onTransport edgeResetSupernodeKcpState
  | .selectionSort rank => e.selectionSort rank
  | .setCurrSn p => { e with currSn := p }
  | .resetSupAttempts => e.onTransport N2n.resetSupAttempts
  | .setSnWait value => e.onTransport fun t => { t with snWait := value }
  | .setTimes lastRegisterReq lastSweep =>
    { e with lastRegisterReq := lastRegisterReq, lastSweep := lastSweep }
  | .resolved p sock =>
    { e with supernodes := e.supernodes.modify p fun sn => { sn with sock := sock } }
  | .setPeers known pending => { e with knownPeers := known, pendingPeers := pending }
  | .setDevice mac ipAddr deviceMask =>
    { e with macAddr := mac, ipAddr := ipAddr, deviceMask := deviceMask }
  | .setPreferredSock sock => { e with preferredSock := sock }
  | .setRxTransport transport => { e with currentSupernodeRxTransport := transport }
  | .endBootstrap => { e with lastRegisterReq := 0 }.onTransport N2n.endBootstrap

/-- What `edge_init` leaves behind. -/
structure Edge.Initial (e : Edge) : Prop where
  sockets : e.transport.sock = -1 ∧ e.transport.udpSock = -1 ∧ e.transport.tcpSock = -1
  tcpSnSockValid : e.transport.tcpSnSockValid = false
  activeSnTransport :
    e.transport.activeSnTransport = if e.transport.connectTcp then .tcp else .udp
  fallback : e.transport.tcpFallbackActive = false ∧ e.transport.tcpStickyAfterFallback = false
  counters : e.transport.registerFastRetryCount = 0 ∧ e.transport.tcpRegisterSoftRetryBudget = 0
  request : e.transport.registerSuperRequestActive = false
  sent : e.sent = []
  answers : ∀ n, AnswerOk (e.env.sockets.get n)

/-- The runs of the edge. -/
def edgeMachine : Machine Edge EdgeCall := ⟨Edge.Initial, fun _ _ => True, EdgeCall.apply⟩

/-- **A call keeps the property**, if one that opens the socket in use again does. -/
theorem Edge.Holds.apply {P : TransportView → Prop} (hP : Carried P) {e : Edge} (h : e.Holds P)
    (c : EdgeCall) (hconnect : c = .connect → e.connect.Holds P)
    (hrecycle : c = .recycleUdp → e.recycleUdp.Holds P)
    (hupdate : ∀ now rank, c = .updateSupernodeReg now rank →
      (e.updateSupernodeReg now rank).Holds P) : (c.apply e).Holds P := by
  have hview : ∀ {f : EdgeTransport → EdgeTransport}, (∀ {t}, P t.view → P (f t).view) →
      (e.onTransport f).Holds P := fun hf => h.onTransport fun t ht => hf (by rw [ht]; exact h.view)
  cases c with
  | connect => exact hconnect rfl
  | disconnect => exact h.disconnect hP
  | switchToTcp => exact h.switchToTcp hP
  | releaseTcpSticky => exact hview hP.release
  | markUdpRecovered => exact hview hP.recovered
  | recycleUdp => exact hrecycle rfl
  | sendtoSock dest => exact h.sendtoSock hP dest
  | sendControl dest => exact h.sendControl hP dest
  | sendRegister remotePeer => exact h.sendRegister hP remotePeer
  | sendRegisterSuper => exact h.sendRegisterSuper hP
  | sendUnregisterSuper => exact h.sendUnregisterSuper hP
  | sendQueryPeer dstMac pings skip => exact h.sendQueryPeer hP dstMac pings skip
  | processUdp rx => exact h.processRegistration hP rx
  | readFailed => exact hview hP.readFailed
  | readTooLong => exact hview hP.readTooLong
  | updateSupernodeReg now rank => exact hupdate now rank rfl
  | endBootstrap =>
    refine (h.setLastRegisterReq 0).onTransport fun t ht => ?_
    have hcalm := hP.calm (t := t) (by rw [ht]; exact h.view)
    exact hcalm
  | kcp | resetKcp | selectionSort | setCurrSn | resetSupAttempts | setSnWait | setTimes |
    resolved | setPeers | setDevice | setPreferredSock | setRxTransport => exact h.of_eq rfl rfl

/-! ### The timers are runs -/

/-- From `e` to `e'` there is a run of calls. -/
def Edge.RunsTo (e e' : Edge) : Prop := ∃ cs : List EdgeCall, e' = cs.foldl EdgeCall.apply e

theorem Edge.RunsTo.refl (e : Edge) : e.RunsTo e := ⟨[], rfl⟩

theorem Edge.RunsTo.trans {e e' e'' : Edge} (h : e.RunsTo e') (h' : e'.RunsTo e'') :
    e.RunsTo e'' := by
  obtain ⟨cs, rfl⟩ := h
  obtain ⟨cs', rfl⟩ := h'
  exact ⟨cs ++ cs', by rw [List.foldl_append]⟩

theorem Edge.RunsTo.ite {c : Prop} [Decidable c] {e e₁ e₂ : Edge} (h₁ : e.RunsTo e₁)
    (h₂ : e.RunsTo e₂) : e.RunsTo (if c then e₁ else e₂) := by
  split
  · exact h₁
  · exact h₂

/-- `sort_supernodes` is a run. -/
theorem Edge.sortSupernodes_calls (e : Edge) (now : ℤ) (rank : ℕ → ℕ) (pings skip : ℕ) :
    e.RunsTo (e.sortSupernodes now rank pings skip) := by
  unfold sortSupernodes
  refine .ite (.refl e) ?_
  extract_lets e₁ e₂ e₃ e₄
  have h₁ : e.RunsTo e₁ := .ite ⟨[.selectionSort rank], rfl⟩ (.refl e)
  -- from the current supernode to the best one
  have h₂ : e₁.RunsTo e₃ := .ite
    ⟨[.sendUnregisterSuper, .setCurrSn e₁.sendUnregisterSuper.headSn, .resetSupAttempts, .connect,
      .sendRegisterSuper, .setTimes now e₂.lastSweep, .setSnWait 1], rfl⟩ (.refl e₁)
  have h₃ : e₃.RunsTo e₄ := .ite (.refl e₃) ⟨[.sendQueryPeer nullMac pings skip], rfl⟩
  exact (h₁.trans (h₂.trans h₃)).trans ⟨[.setTimes e₄.lastRegisterReq now], rfl⟩

/-- `edge_handle_dead_kcp_session` is a run. -/
theorem Edge.handleDeadKcpSession_calls (e : Edge) (ctrlDead dataDead : Bool) :
    e.RunsTo (e.handleDeadKcpSession ctrlDead dataDead) := by
  unfold handleDeadKcpSession
  refine .ite (.refl e) ?_
  extract_lets e₁
  have h₁ : e.RunsTo e₁ := .ite
    ⟨[.kcp e.transport.snKcpCtrl .term e.transport.snKcpCtrlConfirmed false], rfl⟩ (.refl e)
  have h₂ : e₁.RunsTo (e₁.onTransport edgeResetSupernodeKcpState).switchToTcp.1 :=
    ⟨[.resetKcp, .switchToTcp], rfl⟩
  refine .ite h₁ (h₁.trans (h₂.trans (.ite ⟨[.setSnWait 2], rfl⟩ ?_)))
  exact ⟨[.recycleUdp, .resetSupAttempts, .setSnWait 2], rfl⟩

/-- `edge_handle_idle_data_kcp_session` is a run. -/
theorem Edge.handleIdleDataKcpSession_calls (e : Edge) (idle : Bool) :
    e.RunsTo (e.handleIdleDataKcpSession idle) :=
  .ite (.refl e) (.ite
    ⟨[.kcp e.transport.snKcpCtrl .term e.transport.snKcpCtrlConfirmed false], rfl⟩ (.refl e))

end N2n
