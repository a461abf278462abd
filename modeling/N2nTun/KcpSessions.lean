import N2nTun.Kcp
import N2nTun.TransportState

/-!
# The KCP sessions

An edge keeps two KCP sessions with its supernode, one for control messages and one for
data, and a supernode keeps two tables of them.  The conversation id tells by its top bit
which of the two a session is.

What the KCP library does to a session, and whether memory is there, are arguments; of
the library's object only the conversation and the state are looked at.

## Main definitions

* `EdgeTransport.kcpEdgeSetup`, `EdgeTransport.kcpEdgeSend`, `EdgeTransport.kcpEdgeInput`,
  `EdgeTransport.kcpEdgeUpdate` — the edge's side of `kcp_bridge.c`.
* `SnKcp`, `SnKcp.findOrCreate`, `SnKcp.processInput`, `SnKcp.update`, … — the supernode's side.
* `kcpEdgeMachine`, `kcpSnMachine` — the runs.

## Main results

* `KcpOk`, `KcpOk.apply` — what every function of the edge keeps.
* `SnKcpOk`, `SnKcpOk.apply` — the same for the supernode.
* `kcpSessions` — **the sessions in all runs.**
-/

namespace N2n

open Machines

/-! ### Conversations and channels -/

/-- `n2n_kcp_channel_t`. -/
inductive KcpChannel where
  | ctrl
  | data
  deriving DecidableEq

/-- `N2N_KCP_CONV_CHANNEL_BIT`. -/
def kcpConvChannelBit : UInt32 := 0x80000000

/-- `N2N_KCP_CONV_VALUE_MASK`. -/
def kcpConvValueMask : UInt32 := 0x7fffffff

/-- `(IUINT32)-1`, the state of an object whose link is dead. -/
def kcpDead : UInt32 := 0xffffffff

/-- `n2n_kcp_conv_with_channel`. -/
def n2nKcpConvWithChannel (conv : UInt32) (channel : KcpChannel) : UInt32 :=
  let conv := conv &&& kcpConvValueMask
  let conv := if conv = 0 then 1 else conv
  if channel = .data then conv ||| kcpConvChannelBit else conv

/-- `n2n_kcp_channel_from_conv`. -/
def n2nKcpChannelFromConv (conv : UInt32) : KcpChannel :=
  if conv &&& kcpConvChannelBit ≠ 0 then .data else .ctrl

/-- `n2n_kcp_generate_conv`, from what `n2n_rand` gives. -/
def n2nKcpGenerateConv (rand : UInt64) : UInt32 :=
  let conv := rand.toUInt32 &&& kcpConvValueMask
  if conv = 0 then 1 else conv

/-- A value without the channel bit. -/
theorem and_valueMask_and_bit (conv : UInt32) :
    (conv &&& kcpConvValueMask) &&& kcpConvChannelBit = 0 := by
  rw [UInt32.and_assoc, show kcpConvValueMask &&& kcpConvChannelBit = 0 by decide, UInt32.and_zero]

/-- The channel bit is set. -/
theorem or_bit_and_bit {value : UInt32} (h : value &&& kcpConvChannelBit = 0) :
    (value ||| kcpConvChannelBit) &&& kcpConvChannelBit = kcpConvChannelBit := by
  have hdistrib : (value ||| kcpConvChannelBit) &&& kcpConvChannelBit =
      value &&& kcpConvChannelBit ||| kcpConvChannelBit &&& kcpConvChannelBit :=
    UInt32.toBitVec_inj.1 BitVec.and_or_distrib_right
  rw [hdistrib, h, UInt32.and_self, UInt32.zero_or]

/-- **The top bit identifies the channel.** -/
theorem channelFromConv_convWithChannel (conv : UInt32) (channel : KcpChannel) :
    n2nKcpChannelFromConv (n2nKcpConvWithChannel conv channel) = channel := by
  have hvalue : (if conv &&& kcpConvValueMask = 0 then 1 else conv &&& kcpConvValueMask) &&&
      kcpConvChannelBit = 0 := by
    split
    · decide
    · exact and_valueMask_and_bit conv
  unfold n2nKcpChannelFromConv
  cases channel with
  | ctrl => exact if_neg (not_not.mpr hvalue)
  | data =>
    refine if_pos ?_
    change (_ ||| kcpConvChannelBit) &&& kcpConvChannelBit ≠ 0
    rw [or_bit_and_bit hvalue]
    decide

/-- **A conversation is never 0.** -/
theorem convWithChannel_ne_zero (conv : UInt32) (channel : KcpChannel) :
    n2nKcpConvWithChannel conv channel ≠ 0 := by
  cases channel with
  | ctrl =>
    unfold n2nKcpConvWithChannel
    dsimp only
    rw [if_neg (by decide)]
    split
    · decide
    · assumption
  | data =>
    intro hzero
    have hchannel := channelFromConv_convWithChannel conv .data
    rw [hzero] at hchannel
    exact absurd hchannel (by decide)

/-! ### The sessions of an edge -/

/-- The library has given the link up. -/
def Ikcpcb.isDead (kcp : Ikcpcb) : Bool := kcp.state == kcpDead

/-- There is an object, and its link is dead. -/
def EdgeKcpCtx.isDead (ctx : EdgeKcpCtx) : Bool := ctx.kcp.any Ikcpcb.isDead

/-- `N2N_DATA_KCP_IDLE_REAP_SECS`. -/
def dataKcpIdleReapSecs : ℤ := 100

/-- The session is alive, with nothing heard for long and, by `ikcp_waitsnd`, nothing to send. -/
def EdgeKcpCtx.isIdle (ctx : EdgeKcpCtx) (now waitsnd : ℤ) : Bool :=
  ctx.kcp.isSome && !ctx.isDead && decide (dataKcpIdleReapSecs < now - ctx.lastSeen) && waitsnd == 0

/-- `ikcp_update`, `ikcp_flush` and the like leave the object in some state. -/
def EdgeKcpCtx.withState (ctx : EdgeKcpCtx) (state : UInt32) : EdgeKcpCtx :=
  { ctx with kcp := ctx.kcp.map fun kcp => { kcp with state := state } }

/-- Whether `calloc` and `ikcp_create` succeed. -/
structure KcpAlloc where
  user : Bool
  kcp : Bool
  deriving DecidableEq

/-- What the library answers: whether the call succeeds, and the state afterwards. -/
structure KcpAnswer where
  ok : Bool
  state : UInt32
  deriving DecidableEq

namespace EdgeTransport

/-- `n2n_kcp_edge_ctx`. -/
def kcpCtx (eee : EdgeTransport) : KcpChannel → EdgeKcpCtx
  | .ctrl => eee.snKcpCtrl
  | .data => eee.snKcpData

/-- `n2n_kcp_edge_confirm_flag`. -/
def kcpConfirmed (eee : EdgeTransport) : KcpChannel → Bool
  | .ctrl => eee.snKcpCtrlConfirmed
  | .data => eee.snKcpDataConfirmed

/-- A context and its flag are written. -/
def setKcp (eee : EdgeTransport) (channel : KcpChannel) (ctx : EdgeKcpCtx) (confirmed : Bool) :
    EdgeTransport :=
  match channel with
  | .ctrl => { eee with snKcpCtrl := ctx, snKcpCtrlConfirmed := confirmed }
  | .data => { eee with snKcpData := ctx, snKcpDataConfirmed := confirmed }

/-- A context is written. -/
def setKcpCtx (eee : EdgeTransport) (channel : KcpChannel) (ctx : EdgeKcpCtx) : EdgeTransport :=
  eee.setKcp channel ctx (eee.kcpConfirmed channel)

/-- There is a session with this supernode, and its link is not dead. -/
def kcpInUse (eee : EdgeTransport) (remote : Sock) (channel : KcpChannel) : Bool :=
  let ctx := eee.kcpCtx channel
  ctx.active && ctx.kcp.isSome && sockEqual ctx.remoteSock remote && !ctx.isDead

/-- `n2n_kcp_edge_setup_with_conv`, and whether it returns 0. -/
def kcpEdgeSetupWithConv (eee : EdgeTransport) (remote : Sock) (channel : KcpChannel)
    (conv : UInt32) (alloc : KcpAlloc) (now : ℤ) : EdgeTransport × Bool :=
  if eee.udpSock < 0 then (eee, true)
  else if eee.kcpInUse remote channel then (eee, true)
  else if !alloc.user then (eee.setKcp channel .term false, false)
  else
    let conv := n2nKcpConvWithChannel conv channel
    let ctx := { EdgeKcpCtx.term with conv := conv, remoteSock := remote }
    if !alloc.kcp then (eee.setKcp channel ctx false, false)
    else
      (eee.setKcp channel
        { ctx with kcp := some ⟨conv, 0⟩, active := true, rxConfirmCount := 0, lastSeen := now }
        false, true)

/-- `n2n_kcp_edge_setup`. -/
def kcpEdgeSetup (eee : EdgeTransport) (remote : Sock) (channel : KcpChannel) (rand : UInt64)
    (alloc : KcpAlloc) (now : ℤ) : EdgeTransport × Bool :=
  eee.kcpEdgeSetupWithConv remote channel (n2nKcpGenerateConv rand) alloc now

/-- `n2n_kcp_edge_send` of `len` bytes, and what it returns. -/
def kcpEdgeSend (eee : EdgeTransport) (len : ℕ) (dest : Sock) (channel : KcpChannel)
    (rand : UInt64) (alloc : KcpAlloc) (ans : KcpAnswer) (now : ℤ) : EdgeTransport × ℤ :=
  if eee.udpSock < 0 then (eee, -1)
  else if !sockEqual dest eee.currSnSock then (eee, -1)
  else
    let (eee, ok) := eee.kcpEdgeSetup dest channel rand alloc now
    let ctx := eee.kcpCtx channel
    if !ok then (eee, -1)
    else if ctx.kcp.isNone || ctx.isDead then (eee, -1)
    else if !ans.ok then (eee, -1)
    else (eee.setKcpCtx channel (ctx.withState ans.state), len)

/-- There is a session with the sender for this conversation. -/
def kcpSession (eee : EdgeTransport) (sender : Sock) (conv : UInt32) : Bool :=
  let ctx := eee.kcpCtx (n2nKcpChannelFromConv conv)
  ctx.active && ctx.kcp.isSome && sockEqual ctx.remoteSock sender && conv == ctx.conv

/-- A packet has been accepted: it counts until the session is confirmed. -/
def countAccepted (ctx : EdgeKcpCtx) (confirmed : Bool) : EdgeKcpCtx :=
  { ctx with
    rxConfirmCount :=
      if !confirmed && ctx.rxConfirmCount < 0xFF then ctx.rxConfirmCount + 1
      else ctx.rxConfirmCount
    accepted := ctx.accepted + 1 }

/-- `n2n_kcp_edge_input`, with what it returns; the edge stays as it is where the classifier does
not return. -/
def kcpEdgeInput (eee : EdgeTransport) (sender : Sock) (buf : List UInt8) (ans : KcpAnswer)
    (now : ℤ) : EdgeTransport × ℤ :=
  if eee.udpSock < 0 then (eee, 0)
  else if !sockEqual sender eee.currSnSock then (eee, 0)
  else
    match (n2nKcpPacketGetConv buf).join with
    | none => (eee, 0)
    | some conv =>
      let channel := n2nKcpChannelFromConv conv
      if !eee.kcpSession sender conv then (eee, -1)
      -- there was a session, so that it is not dropped when the library refuses the packet
      else if !ans.ok then (eee, -1)
      else
        let confirmed := eee.kcpConfirmed channel
        let ctx := countAccepted (eee.kcpCtx channel) confirmed
        let confirmed := confirmed || decide (2 ≤ ctx.rxConfirmCount)
        (eee.setKcp channel ({ ctx with lastSeen := now }.withState ans.state) confirmed, 1)

/-- One session in `n2n_kcp_edge_update`. -/
def kcpUpdateCtx (eee : EdgeTransport) (channel : KcpChannel) (state : UInt32) : EdgeTransport :=
  let ctx := eee.kcpCtx channel
  if ctx.active && ctx.kcp.isSome then eee.setKcpCtx channel (ctx.withState state) else eee

/-- `n2n_kcp_edge_update`. -/
def kcpEdgeUpdate (eee : EdgeTransport) (ctrl data : UInt32) : EdgeTransport :=
  (eee.kcpUpdateCtx .ctrl ctrl).kcpUpdateCtx .data data

/-! ### What the edge keeps -/

/-- One session of an edge with this UDP socket: a confirmed one is active and has accepted two
packets; an active one has an object, a socket, and a conversation of its channel. -/
structure KcpCtxOk (udpSock : ℤ) (channel : KcpChannel) (ctx : EdgeKcpCtx) (confirmed : Bool) :
    Prop where
  confirmed : confirmed = true → ctx.active = true ∧ 2 ≤ ctx.accepted
  kcp : ctx.active = true → ctx.kcp.isSome = true
  udpSock : ctx.active = true → 0 ≤ udpSock
  conv : ctx.active = true → ctx.conv ≠ 0 ∧ n2nKcpChannelFromConv ctx.conv = channel
  count : ctx.rxConfirmCount.toNat ≤ ctx.accepted

/-- No session. -/
theorem KcpCtxOk.inactive {udpSock : ℤ} {channel : KcpChannel} {ctx : EdgeKcpCtx}
    (hactive : ctx.active = false) (hcount : ctx.rxConfirmCount.toNat ≤ ctx.accepted) :
    KcpCtxOk udpSock channel ctx false := by
  have hnot : ctx.active ≠ true := by simp [hactive]
  exact ⟨fun h => (by cases h), fun h => absurd h hnot, fun h => absurd h hnot,
    fun h => absurd h hnot, hcount⟩

theorem KcpCtxOk.term (udpSock : ℤ) (channel : KcpChannel) :
    KcpCtxOk udpSock channel .term false := .inactive rfl (Nat.zero_le _)

theorem KcpCtxOk.withState {udpSock : ℤ} {channel : KcpChannel} {ctx : EdgeKcpCtx}
    {confirmed : Bool} (h : KcpCtxOk udpSock channel ctx confirmed) (state : UInt32) :
    KcpCtxOk udpSock channel (ctx.withState state) confirmed where
  confirmed := h.confirmed
  kcp hactive := by simpa [EdgeKcpCtx.withState] using h.kcp hactive
  udpSock := h.udpSock
  conv := h.conv
  count := h.count

theorem KcpCtxOk.seen {udpSock : ℤ} {channel : KcpChannel} {ctx : EdgeKcpCtx} {confirmed : Bool}
    (h : KcpCtxOk udpSock channel ctx confirmed) (now : ℤ) :
    KcpCtxOk udpSock channel { ctx with lastSeen := now } confirmed :=
  ⟨h.confirmed, h.kcp, h.udpSock, h.conv, h.count⟩

/-- **The two sessions of an edge.** -/
def KcpOk (eee : EdgeTransport) : Prop :=
  ∀ channel, KcpCtxOk eee.udpSock channel (eee.kcpCtx channel) (eee.kcpConfirmed channel)

theorem KcpOk.of_eq {eee eee' : EdgeTransport} (h : KcpOk eee)
    (hsock : eee'.udpSock = eee.udpSock)
    (hctx : ∀ channel, eee'.kcpCtx channel = eee.kcpCtx channel)
    (hconfirmed : ∀ channel, eee'.kcpConfirmed channel = eee.kcpConfirmed channel) :
    KcpOk eee' := by
  intro channel
  rw [hsock, hctx, hconfirmed]
  exact h channel

/-- An update of other fields. -/
theorem KcpOk.of_rfl {eee eee' : EdgeTransport} (h : KcpOk eee)
    (hsock : eee'.udpSock = eee.udpSock) (hctrl : eee'.snKcpCtrl = eee.snKcpCtrl)
    (hdata : eee'.snKcpData = eee.snKcpData)
    (hctrlc : eee'.snKcpCtrlConfirmed = eee.snKcpCtrlConfirmed)
    (hdatac : eee'.snKcpDataConfirmed = eee.snKcpDataConfirmed) : KcpOk eee' :=
  h.of_eq hsock (by rintro (_ | _) <;> assumption) (by rintro (_ | _) <;> assumption)

theorem KcpOk.ite {c : Prop} [Decidable c] {e₁ e₂ : EdgeTransport} (h₁ : KcpOk e₁)
    (h₂ : KcpOk e₂) : KcpOk (if c then e₁ else e₂) := by
  split
  · exact h₁
  · exact h₂

theorem kcpOk_reset (eee : EdgeTransport) : KcpOk (edgeResetSupernodeKcpState eee) := by
  rintro (_ | _) <;> exact .term _ _

theorem KcpOk.setKcp {eee : EdgeTransport} (h : KcpOk eee) {channel : KcpChannel}
    {ctx : EdgeKcpCtx} {confirmed : Bool}
    (hctx : KcpCtxOk eee.udpSock channel ctx confirmed) :
    KcpOk (eee.setKcp channel ctx confirmed) := by
  intro other
  cases channel with
  | ctrl =>
    cases other with
    | ctrl => exact hctx
    | data => exact h .data
  | data =>
    cases other with
    | ctrl => exact h .ctrl
    | data => exact hctx

theorem KcpOk.kcpEdgeSetup {eee : EdgeTransport} (h : KcpOk eee) (remote : Sock)
    (channel : KcpChannel) (rand : UInt64) (alloc : KcpAlloc) (now : ℤ) :
    KcpOk (eee.kcpEdgeSetup remote channel rand alloc now).1 := by
  unfold EdgeTransport.kcpEdgeSetup kcpEdgeSetupWithConv
  dsimp only
  split_ifs with hsock huse huser hkcp
  · exact h
  · exact h
  · exact h.setKcp (.term _ _)
  · exact h.setKcp (.inactive rfl (Nat.zero_le _))
  · -- a new session: the conversation is made for the channel
    refine h.setKcp ⟨fun h => (by cases h), fun _ => rfl, fun _ => not_lt.mp hsock, fun _ => ?_,
      Nat.zero_le _⟩
    exact ⟨convWithChannel_ne_zero _ channel, channelFromConv_convWithChannel _ channel⟩

theorem KcpOk.kcpEdgeSend {eee : EdgeTransport} (h : KcpOk eee) (len : ℕ) (dest : Sock)
    (channel : KcpChannel) (rand : UInt64) (alloc : KcpAlloc) (ans : KcpAnswer) (now : ℤ) :
    KcpOk (eee.kcpEdgeSend len dest channel rand alloc ans now).1 := by
  unfold EdgeTransport.kcpEdgeSend
  have h₁ := h.kcpEdgeSetup dest channel rand alloc now
  generalize eee.kcpEdgeSetup dest channel rand alloc now = r at h₁ ⊢
  obtain ⟨e₁, ok⟩ := r
  dsimp only at h₁ ⊢
  split_ifs
  · exact h
  · exact h
  · exact h₁
  · exact h₁
  · exact h₁
  · exact h₁.setKcp ((h₁ channel).withState ans.state)

/-- **An accepted packet**: the second one confirms the session. -/
theorem KcpCtxOk.accepted {udpSock : ℤ} {channel : KcpChannel} {ctx : EdgeKcpCtx}
    {confirmed : Bool} (h : KcpCtxOk udpSock channel ctx confirmed) (hactive : ctx.active = true) :
    KcpCtxOk udpSock channel (countAccepted ctx confirmed)
      (confirmed || decide (2 ≤ (countAccepted ctx confirmed).rxConfirmCount)) := by
  have hcount : (countAccepted ctx confirmed).rxConfirmCount.toNat ≤
      (countAccepted ctx confirmed).accepted := by
    have hle := h.count
    unfold countAccepted
    dsimp only
    split_ifs with hc
    · have hlt : ctx.rxConfirmCount.toNat < 255 := by
        have hlt := UInt8.lt_iff_toNat_lt.mp (of_decide_eq_true (Bool.and_eq_true_iff.mp hc).2)
        exact hlt
      rw [UInt8.toNat_add, Nat.mod_eq_of_lt (by change _ + 1 < 256; omega)]
      exact Nat.succ_le_succ hle
    · exact Nat.le_succ_of_le hle
  refine ⟨fun hconfirmed => ⟨hactive, ?_⟩, h.kcp, h.udpSock, h.conv, hcount⟩
  rcases Bool.or_eq_true_iff.mp hconfirmed with hc | hc
  · exact Nat.le_succ_of_le (h.confirmed hc).2
  · exact le_trans (UInt8.le_iff_toNat_le.mp (of_decide_eq_true hc)) hcount

theorem KcpOk.kcpEdgeInput {eee : EdgeTransport} (h : KcpOk eee) (sender : Sock)
    (buf : List UInt8) (ans : KcpAnswer) (now : ℤ) :
    KcpOk (eee.kcpEdgeInput sender buf ans now).1 := by
  unfold EdgeTransport.kcpEdgeInput
  by_cases hsock : eee.udpSock < 0
  · rwa [if_pos hsock]
  by_cases hsender : (!sockEqual sender eee.currSnSock) = true
  · rwa [if_neg hsock, if_pos hsender]
  rw [if_neg hsock, if_neg hsender]
  cases (n2nKcpPacketGetConv buf).join with
  | none => exact h
  | some conv =>
    dsimp only
    split_ifs with hsession
    · exact h
    · exact h
    · have hactive : (eee.kcpCtx (n2nKcpChannelFromConv conv)).active = true := by
        simp only [kcpSession, Bool.not_eq_true', Bool.not_eq_false, Bool.and_eq_true] at hsession
        exact hsession.1.1.1
      have haccepted := (h (n2nKcpChannelFromConv conv)).accepted hactive
      exact h.setKcp ((haccepted.seen now).withState ans.state)

theorem KcpOk.kcpUpdateCtx {eee : EdgeTransport} (h : KcpOk eee) (channel : KcpChannel)
    (state : UInt32) : KcpOk (eee.kcpUpdateCtx channel state) := by
  unfold EdgeTransport.kcpUpdateCtx
  exact .ite (h.setKcp ((h channel).withState state)) h

/-! ### Sockets and timers -/

theorem KcpOk.disconnectTcp {eee : EdgeTransport} (h : KcpOk eee) :
    KcpOk (supernodeDisconnectTcp eee) := h.of_rfl rfl rfl rfl rfl rfl

theorem kcpOk_disconnectUdp (eee : EdgeTransport) : KcpOk (supernodeDisconnectUdp eee) :=
  kcpOk_reset _

theorem kcpOk_disconnect (eee : EdgeTransport) : KcpOk (supernodeDisconnect eee) :=
  (kcpOk_disconnectUdp _).of_rfl rfl rfl rfl rfl rfl

theorem KcpOk.setActive {eee : EdgeTransport} (h : KcpOk eee) (transport : SnTransport) :
    KcpOk (edgeSetActiveTransport eee transport) := h.of_rfl rfl rfl rfl rfl rfl

theorem KcpOk.release {eee : EdgeTransport} (h : KcpOk eee) :
    KcpOk (edgeReleaseTcpStickyAfterDisconnect eee) := by
  unfold edgeReleaseTcpStickyAfterDisconnect
  exact .ite h ((kcpOk_reset (clearTcpFallback eee)).of_rfl rfl rfl rfl rfl rfl)

theorem KcpOk.markUdpRecovered {eee : EdgeTransport} (h : KcpOk eee) :
    KcpOk (edgeMarkUdpRecovered eee) := by
  unfold edgeMarkUdpRecovered
  exact .ite h (.ite h (h.of_rfl rfl rfl rfl rfl rfl))

/-- The UDP socket is opened only where there is none, and then no session is active. -/
theorem KcpOk.connectUdpSocket {eee : EdgeTransport} (h : KcpOk eee) (os : SocketResults) :
    KcpOk (supernodeConnectUdpSocket eee os).1 := by
  unfold supernodeConnectUdpSocket
  split_ifs with hsock
  · exact h
  · intro channel
    have hctx := h channel
    have hinactive : (eee.kcpCtx channel).active = true → False :=
      fun hactive => hsock (hctx.udpSock hactive)
    exact ⟨hctx.confirmed, hctx.kcp, fun hactive => (hinactive hactive).elim, hctx.conv, hctx.count⟩

theorem KcpOk.connectTcpSocket {eee : EdgeTransport} (h : KcpOk eee) (os : SocketResults) :
    KcpOk (supernodeConnectTcpSocket eee os).1 := by
  unfold supernodeConnectTcpSocket
  dsimp only
  split_ifs <;> exact h.of_rfl rfl rfl rfl rfl rfl

theorem KcpOk.connect {eee : EdgeTransport} (h : KcpOk eee) (os : SocketResults) :
    KcpOk (supernodeConnect eee os) := by
  unfold supernodeConnect
  extract_lets kcpElsewhere e₁ e₂
  have h₁ : KcpOk e₁ := .ite (kcpOk_reset eee) h
  have h₂ : KcpOk e₂ := .ite h₁.disconnectTcp h₁
  have h₃ : KcpOk (if e₂.connectTcp then (e₂, true) else supernodeConnectUdpSocket e₂ os).1 := by
    split
    · exact h₂
    · exact h₂.connectUdpSocket os
  generalize (if e₂.connectTcp then (e₂, true) else supernodeConnectUdpSocket e₂ os) = r at h₃ ⊢
  obtain ⟨e₃, udpOk⟩ := r
  refine .ite h₃ (.ite ?_ (h₃.of_rfl rfl rfl rfl rfl rfl))
  have h₄ := h₃.connectTcpSocket os
  exact .ite h₄ (h₄.of_rfl rfl rfl rfl rfl rfl)

theorem KcpOk.switchToTcp {eee : EdgeTransport} (h : KcpOk eee) (os : SocketResults) :
    KcpOk (edgeSwitchToTcpSupernode eee os).1 := by
  unfold edgeSwitchToTcpSupernode
  split
  · exact h
  · split
    · exact h
    · extract_lets e₁
      have h₁ : KcpOk e₁ := h.of_rfl rfl rfl rfl rfl rfl
      have h₂ := h₁.connectTcpSocket os
      generalize supernodeConnectTcpSocket e₁ os = r at h₂ ⊢
      obtain ⟨e₂, tcpOk⟩ := r
      dsimp only
      split <;> exact h₂.of_rfl rfl rfl rfl rfl rfl

theorem KcpOk.recycleUdp {eee : EdgeTransport} (h : KcpOk eee) (os : SocketResults) :
    KcpOk (edgeRecycleUdpSupernodeSocket eee os) := by
  unfold edgeRecycleUdpSupernodeSocket
  refine .ite h ?_
  have h₁ := (kcpOk_disconnectUdp eee).connectUdpSocket os
  generalize supernodeConnectUdpSocket (supernodeDisconnectUdp eee) os = r at h₁ ⊢
  obtain ⟨e₁, udpOk⟩ := r
  refine .ite h₁ ?_
  have h₂ : KcpOk (if edgeTransportUsesTcp e₁ then e₁ else edgeSetActiveTransport e₁ .udp) :=
    .ite h₁ (h₁.setActive .udp)
  exact h₂.of_rfl rfl rfl rfl rfl rfl

theorem KcpOk.errOut {eee : EdgeTransport} (h : KcpOk eee) (os : SocketResults)
    (nowMs : UInt32) : KcpOk (sendtoFdErrOut eee os nowMs) := by
  unfold sendtoFdErrOut
  refine .ite h (.ite ?_ ?_)
  · extract_lets e₁
    have h₁ : KcpOk e₁ := h.of_rfl rfl rfl rfl rfl rfl
    have h₂ := h₁.disconnectTcp.connectTcpSocket os
    generalize supernodeConnectTcpSocket (supernodeDisconnectTcp e₁) os = r at h₂ ⊢
    obtain ⟨e₂, tcpOk⟩ := r
    have h₃ : KcpOk (if tcpOk then edgeSetActiveTransport e₂ .tcp else e₂) :=
      .ite (h₂.setActive .tcp) h₂
    exact h₃.of_rfl rfl rfl rfl rfl rfl
  · exact h.disconnectTcp.release.of_rfl rfl rfl rfl rfl rfl

theorem KcpOk.op {eee : EdgeTransport} (h : KcpOk eee) (op : TransportOp) :
    KcpOk (op.apply eee) := by
  cases op with
  | connect os => exact h.connect os
  | disconnect => exact kcpOk_disconnect eee
  | switchToTcp os => exact h.switchToTcp os
  | recycleUdp os => exact h.recycleUdp os
  | markUdpRecovered => exact h.markUdpRecovered
  | sendError os nowMs => exact h.errOut os nowMs
  | setCurrSn sock => exact h.of_rfl rfl rfl rfl rfl rfl
  | setSnWait value => exact h.of_rfl rfl rfl rfl rfl rfl
  | setSending registerSuper control => exact h.of_rfl rfl rfl rfl rfl rfl

theorem KcpOk.termData {eee : EdgeTransport} (h : KcpOk eee) :
    KcpOk { eee with snKcpData := .term, snKcpDataConfirmed := false } :=
  h.setKcp (.term eee.udpSock .data)

/-- What `n2n_kcp_edge_input` returns is what the classifier of datagrams goes by. -/
theorem kcpEdgeInput_rc (eee : EdgeTransport) (sender : Sock) {buf : List UInt8}
    (h : buf.length < 2 ^ 32) (ans : KcpAnswer) (now : ℤ) :
    n2nKcpEdgeInput eee sender buf (eee.kcpSession sender) ans.ok =
      some (eee.kcpEdgeInput sender buf ans now).2 := by
  have hreturns : n2nKcpPacketGetConv buf ≠ none := n2nKcpPacketGetConv_ne_none h
  unfold n2nKcpEdgeInput EdgeTransport.kcpEdgeInput
  cases hconv : n2nKcpPacketGetConv buf with
  | none => exact absurd hconv hreturns
  | some conv =>
    cases conv with
    | none => split_ifs <;> rfl
    | some conv => dsimp only [Option.join_some]; split_ifs <;> rfl

end EdgeTransport

namespace Edge

/-- The sessions of an edge are as they should be. -/
def KcpOk (e : Edge) : Prop := e.transport.KcpOk

theorem KcpOk.onTransport {e : Edge} (h : e.KcpOk) {f : EdgeTransport → EdgeTransport}
    (hf : ∀ {t : EdgeTransport}, t.KcpOk → (f t).KcpOk) : (e.onTransport f).KcpOk :=
  hf (h.of_rfl rfl rfl rfl rfl rfl)

/-- An update of other fields of the transport. -/
theorem KcpOk.onTransport_rfl {e : Edge} (h : e.KcpOk) {f : EdgeTransport → EdgeTransport}
    (hsock : ∀ t, (f t).udpSock = t.udpSock) (hctrl : ∀ t, (f t).snKcpCtrl = t.snKcpCtrl)
    (hdata : ∀ t, (f t).snKcpData = t.snKcpData)
    (hctrlc : ∀ t, (f t).snKcpCtrlConfirmed = t.snKcpCtrlConfirmed)
    (hdatac : ∀ t, (f t).snKcpDataConfirmed = t.snKcpDataConfirmed) : (e.onTransport f).KcpOk :=
  h.onTransport fun h => h.of_rfl (hsock _) (hctrl _) (hdata _) (hctrlc _) (hdatac _)

theorem KcpOk.ite {c : Prop} [Decidable c] {e₁ e₂ : Edge} (h₁ : e₁.KcpOk) (h₂ : e₂.KcpOk) :
    (if c then e₁ else e₂).KcpOk := by
  split
  · exact h₁
  · exact h₂

theorem KcpOk.handleIdleDataKcpSession {e : Edge} (h : e.KcpOk) (idle : Bool) :
    (e.handleIdleDataKcpSession idle).KcpOk := by
  unfold Edge.handleIdleDataKcpSession
  exact .ite h (.ite (h.onTransport fun h => h.termData) h)

theorem KcpOk.handleDeadKcpSession {e : Edge} (h : e.KcpOk) (ctrlDead dataDead : Bool) :
    (e.handleDeadKcpSession ctrlDead dataDead).KcpOk := by
  unfold Edge.handleDeadKcpSession
  refine .ite h ?_
  extract_lets e₁
  have h₁ : e₁.KcpOk := .ite (h.onTransport fun h => h.termData) h
  refine .ite h₁ ?_
  have h₂ : (e₁.onTransport edgeResetSupernodeKcpState).switchToTcp.1.KcpOk :=
    (EdgeTransport.kcpOk_reset e₁.link).of_rfl rfl rfl rfl rfl rfl |>.switchToTcp _
  generalize (e₁.onTransport edgeResetSupernodeKcpState).switchToTcp = r at h₂ ⊢
  obtain ⟨e₂, switched⟩ := r
  have h₃ : e₂.recycleUdp.KcpOk :=
    KcpOk.onTransport (e := e₂.openSockets.1) h₂ fun h => h.recycleUdp _
  refine .ite (h₂.onTransport_rfl ?_ ?_ ?_ ?_ ?_) (h₃.onTransport_rfl ?_ ?_ ?_ ?_ ?_) <;>
    exact fun _ => rfl

end Edge

/-! ### Runs of the edge -/

/-- What happens to the sessions of an edge. -/
inductive KcpEdgeEvent where
  | transport (op : TransportOp)
  | releaseTcpSticky
  | readFailed
  | readTooLong
  | setup (remote : Sock) (channel : KcpChannel) (rand : UInt64) (alloc : KcpAlloc) (now : ℤ)
  | send (len : ℕ) (dest : Sock) (channel : KcpChannel) (rand : UInt64) (alloc : KcpAlloc)
      (ans : KcpAnswer) (now : ℤ)
  | input (sender : Sock) (buf : List UInt8) (ans : KcpAnswer) (now : ℤ)
  | update (ctrl data : UInt32)
  | idleSession (now waitsnd : ℤ)
  | deadSession
  /-- anything that concerns neither the sessions nor the UDP socket -/
  | other (e' : Edge)

/-- An event happens. -/
def KcpEdgeEvent.apply (e : Edge) : KcpEdgeEvent → Edge
  | transport op => e.onTransport op.apply
  | releaseTcpSticky => e.onTransport edgeReleaseTcpStickyAfterDisconnect
  | readFailed => e.onTransport tcpReadFailed
  | readTooLong => e.onTransport tcpReadTooLong
  | setup remote channel rand alloc now =>
    e.onTransport fun t => (t.kcpEdgeSetup remote channel rand alloc now).1
  | send len dest channel rand alloc ans now =>
    e.onTransport fun t => (t.kcpEdgeSend len dest channel rand alloc ans now).1
  | input sender buf ans now => e.onTransport fun t => (t.kcpEdgeInput sender buf ans now).1
  | update ctrl data => e.onTransport (EdgeTransport.kcpEdgeUpdate · ctrl data)
  | idleSession now waitsnd =>
    e.handleIdleDataKcpSession (e.transport.snKcpData.isIdle now waitsnd)
  | deadSession => e.handleDeadKcpSession e.transport.snKcpCtrl.isDead e.transport.snKcpData.isDead
  | other e' => e'

/-- The sessions and the UDP socket are the same. -/
structure SameKcp (eee eee' : EdgeTransport) : Prop where
  udpSock : eee'.udpSock = eee.udpSock
  ctrl : eee'.snKcpCtrl = eee.snKcpCtrl
  data : eee'.snKcpData = eee.snKcpData
  ctrlConfirmed : eee'.snKcpCtrlConfirmed = eee.snKcpCtrlConfirmed
  dataConfirmed : eee'.snKcpDataConfirmed = eee.snKcpDataConfirmed

/-- What may happen at any time. -/
def KcpEdgeEvent.Enabled (e : Edge) : KcpEdgeEvent → Prop
  | other e' => SameKcp e.transport e'.transport
  | _ => True

/-- What `edge_init` leaves behind. -/
structure Edge.InitialKcp (e : Edge) : Prop extends e.Initial where
  ctrl : e.transport.snKcpCtrl = .term
  data : e.transport.snKcpData = .term
  ctrlConfirmed : e.transport.snKcpCtrlConfirmed = false
  dataConfirmed : e.transport.snKcpDataConfirmed = false

/-- The runs of an edge, as far as its KCP sessions are concerned. -/
def kcpEdgeMachine : Machine Edge KcpEdgeEvent :=
  ⟨Edge.InitialKcp, KcpEdgeEvent.Enabled, KcpEdgeEvent.apply⟩

theorem Edge.KcpOk.initial {e : Edge} (h : e.InitialKcp) : e.KcpOk := by
  have hctx : ∀ channel, e.transport.kcpCtx channel = .term ∧
      e.transport.kcpConfirmed channel = false := by
    rintro (_ | _)
    · exact ⟨h.ctrl, h.ctrlConfirmed⟩
    · exact ⟨h.data, h.dataConfirmed⟩
  intro channel
  rw [(hctx channel).1, (hctx channel).2]
  exact .term _ _

/-- **Whatever the edge does, its sessions stay as they should be.** -/
theorem Edge.KcpOk.apply {e : Edge} (h : e.KcpOk) {ev : KcpEdgeEvent} (hen : ev.Enabled e) :
    (ev.apply e).KcpOk := by
  cases ev with
  | transport op => exact h.onTransport fun h => h.op op
  | releaseTcpSticky => exact h.onTransport fun h => h.release
  | readFailed =>
    exact h.onTransport fun h => h.disconnectTcp.release.of_rfl rfl rfl rfl rfl rfl
  | readTooLong =>
    exact h.onTransport fun {t} _ =>
      (EdgeTransport.kcpOk_disconnect t).release.of_rfl rfl rfl rfl rfl rfl
  | setup remote channel rand alloc now =>
    exact h.onTransport fun h => h.kcpEdgeSetup remote channel rand alloc now
  | send len dest channel rand alloc ans now =>
    exact h.onTransport fun h => h.kcpEdgeSend len dest channel rand alloc ans now
  | input sender buf ans now => exact h.onTransport fun h => h.kcpEdgeInput sender buf ans now
  | update ctrl data =>
    exact h.onTransport fun h => (h.kcpUpdateCtx .ctrl ctrl).kcpUpdateCtx .data data
  | idleSession now waitsnd => exact h.handleIdleDataKcpSession _
  | deadSession => exact h.handleDeadKcpSession _ _
  | other e' =>
    exact EdgeTransport.KcpOk.of_rfl h hen.udpSock hen.ctrl hen.data hen.ctrlConfirmed
      hen.dataConfirmed

/-! ### The sessions of a supernode -/

/-- A context in one of the tables, with the key that `HASH_ADD` has put it under. -/
structure SnKcpCtx extends EdgeKcpCtx where
  hashKey : Sock
  deriving DecidableEq

/-- The tables of a supernode. -/
structure SnKcp where
  /-- `udp_kcp_ctrl_connections` -/
  ctrl : Table SnKcpCtx
  /-- `udp_kcp_data_connections` -/
  data : Table SnKcpCtx

namespace SnKcp

/-- `n2n_kcp_sn_table`. -/
def table (sss : SnKcp) : KcpChannel → Table SnKcpCtx
  | .ctrl => sss.ctrl
  | .data => sss.data

/-- One of the tables is written. -/
def setTable (sss : SnKcp) (channel : KcpChannel) (table : Table SnKcpCtx) : SnKcp :=
  match channel with
  | .ctrl => { sss with ctrl := table }
  | .data => { sss with data := table }

/-- The library's object has got into some state. -/
def setState (sss : SnKcp) (channel : KcpChannel) (p : ℕ) (state : UInt32) : SnKcp :=
  sss.setTable channel ((sss.table channel).modify p fun ctx =>
    { ctx with toEdgeKcpCtx := ctx.withState state })

/-- `n2n_kcp_other_channel`. -/
def otherChannel : KcpChannel → KcpChannel
  | .ctrl => .data
  | .data => .ctrl

/-- `n2n_kcp_sn_find_ctx`. -/
def findCtx (sss : SnKcp) (remote : Sock) (channel : KcpChannel) : Option (ℕ × SnKcpCtx) :=
  (sss.table channel).find? (·.hashKey == remote)

/-- `n2n_kcp_sn_drop_ctx`. -/
def dropCtx (sss : SnKcp) (p : ℕ) (channel : KcpChannel) : SnKcp :=
  sss.setTable channel ((sss.table channel).del p)

/-- One channel in `n2n_kcp_sn_find_send_ctx`: a dead session is dropped on the way. -/
def findLiveCtx (sss : SnKcp) (remote : Sock) (channel : KcpChannel) :
    SnKcp × Option (ℕ × SnKcpCtx) :=
  match sss.findCtx remote channel with
  | none => (sss, none)
  | some (p, ctx) =>
    if !ctx.active then (sss, none)
    else if ctx.isDead then (sss.dropCtx p channel, none)
    else (sss, some (p, ctx))

/-- `n2n_kcp_sn_find_send_ctx`, with the channel of the session that is found. -/
def findSendCtx (sss : SnKcp) (remote : Sock) (channel : KcpChannel) :
    SnKcp × Option (ℕ × SnKcpCtx × KcpChannel) :=
  match sss.findLiveCtx remote channel with
  | (sss, some (p, ctx)) => (sss, some (p, ctx, channel))
  | (sss, none) =>
    match sss.findLiveCtx remote (otherChannel channel) with
    | (sss, some (p, ctx)) => (sss, some (p, ctx, otherChannel channel))
    | (sss, none) => (sss, none)

/-- `n2n_kcp_sn_send` of `len` bytes on the supernode's UDP socket, and what it returns. -/
def send (sss : SnKcp) (remote : Sock) (len : ℕ) (channel : KcpChannel) (ans : KcpAnswer) :
    SnKcp × ℤ :=
  match sss.findSendCtx remote channel with
  | (sss, none) => (sss, -1)
  | (sss, some (p, ctx, channel)) =>
    if ctx.kcp.isNone || ctx.isDead then (sss, -1)
    else if !ans.ok then (sss, -1)
    else (sss.setState channel p ans.state, len)

/-- Whether the three allocations for a new session succeed. -/
structure Alloc extends KcpAlloc where
  ctx : Bool
  deriving DecidableEq

/-- A new session. -/
def newCtx (remote : Sock) (conv : UInt32) (now : ℤ) : SnKcpCtx :=
  { EdgeKcpCtx.term with
    kcp := some ⟨conv, 0⟩
    remoteSock := remote
    conv := conv
    active := true
    lastSeen := now
    hashKey := remote }

/-- The end of `n2n_kcp_sn_find_or_create`. -/
def createCtx (sss : SnKcp) (remote : Sock) (conv : UInt32) (channel : KcpChannel) (alloc : Alloc)
    (now : ℤ) : SnKcp × Option (ℕ × Bool) :=
  if !alloc.ctx || !alloc.user || !alloc.kcp then (sss, none)
  else
    (sss.setTable channel ((sss.table channel).add (newCtx remote conv now)),
      some ((sss.table channel).next, true))

/-- `n2n_kcp_sn_find_or_create`, with `created`. -/
def findOrCreate (sss : SnKcp) (remote : Sock) (conv : UInt32) (channel : KcpChannel)
    (alloc : Alloc) (now : ℤ) : SnKcp × Option (ℕ × Bool) :=
  match sss.findCtx remote channel with
  | some (p, ctx) =>
    if ctx.isDead || ctx.conv != conv then
      (sss.dropCtx p channel).createCtx remote conv channel alloc now
    else (sss, some (p, false))
  | none => sss.createCtx remote conv channel alloc now

/-- `n2n_kcp_sn_process_input`, with what it returns; `time` is for a new session. -/
def processInput (sss : SnKcp) (remote : Sock) (buf : List UInt8) (alloc : Alloc)
    (ans : KcpAnswer) (now time : ℤ) : SnKcp × ℤ :=
  match (n2nKcpPacketGetConv buf).join with
  | none => (sss, 0)
  | some conv =>
    let channel := n2nKcpChannelFromConv conv
    match sss.findOrCreate remote conv channel alloc time with
    | (sss, none) => (sss, 0)
    | (sss, some (p, created)) =>
      if !ans.ok then (if created then sss.dropCtx p channel else sss, -1)
      else
        let sss := sss.setTable channel ((sss.table channel).modify p fun ctx =>
          { ctx with lastSeen := now })
        (sss.setState channel p ans.state, 1)

/-- One session in `n2n_kcp_sn_update`: it is dropped if the link is dead or nothing has been heard
for long. -/
def updateCtx (now : ℤ) (states : ℕ → UInt32) (channel : KcpChannel) (sss : SnKcp) (p : ℕ) :
    SnKcp :=
  let sss := sss.setState channel p (states p)
  match (sss.table channel).get? p with
  | none => sss
  | some ctx =>
    if ctx.isDead || decide (120 < now - ctx.lastSeen) then sss.dropCtx p channel else sss

/-- `n2n_kcp_sn_update`, with the states that the library leaves the sessions in. -/
def update (sss : SnKcp) (now : ℤ) (ctrl data : ℕ → UInt32) : SnKcp :=
  let sss := (sss.ctrl.entries.map Prod.fst).foldl (updateCtx now ctrl .ctrl) sss
  (sss.data.entries.map Prod.fst).foldl (updateCtx now data .data) sss

/-! ### What the supernode keeps -/

/-- One table: its contexts carry its channel bit, and each is under its own socket, alone. -/
structure TableOk (channel : KcpChannel) (table : Table SnKcpCtx) : Prop where
  conv : ∀ ctx ∈ table, n2nKcpChannelFromConv ctx.conv = channel
  key : ∀ ctx ∈ table, ctx.hashKey = ctx.remoteSock
  distinct : table.DistinctOn (·.hashKey) fun _ => True

/-- **The tables of a supernode.** -/
def Ok (sss : SnKcp) : Prop := ∀ channel, TableOk channel (sss.table channel)

theorem TableOk.empty (channel : KcpChannel) : TableOk channel Table.empty :=
  ⟨fun _ h => absurd h List.not_mem_nil, fun _ h => absurd h List.not_mem_nil, .empty⟩

theorem TableOk.del {channel : KcpChannel} {table : Table SnKcpCtx} (h : TableOk channel table)
    (p : ℕ) : TableOk channel (table.del p) :=
  ⟨fun ctx hctx => h.conv ctx (Table.mem_del hctx), fun ctx hctx => h.key ctx (Table.mem_del hctx),
    h.distinct.del p⟩

/-- A write that leaves the conversation and the socket alone. -/
theorem TableOk.modify {channel : KcpChannel} {table : Table SnKcpCtx} (h : TableOk channel table)
    (p : ℕ) {f : SnKcpCtx → SnKcpCtx} (hconv : ∀ ctx, (f ctx).conv = ctx.conv)
    (hsock : ∀ ctx, (f ctx).remoteSock = ctx.remoteSock)
    (hkey : ∀ ctx, (f ctx).hashKey = ctx.hashKey) : TableOk channel (table.modify p f) where
  conv := by
    intro ctx hctx
    rcases Table.mem_modify hctx with hctx | ⟨old, hold, rfl⟩
    · exact h.conv ctx hctx
    · rw [hconv]
      exact h.conv old (Table.mem_of_get? hold)
  key := by
    intro ctx hctx
    rcases Table.mem_modify hctx with hctx | ⟨old, hold, rfl⟩
    · exact h.key ctx hctx
    · rw [hkey, hsock]
      exact h.key old (Table.mem_of_get? hold)
  distinct := h.distinct.modify p hkey

/-- A new context, under a key that nobody has. -/
theorem TableOk.add {channel : KcpChannel} {table : Table SnKcpCtx} (h : TableOk channel table)
    {remote : Sock} {conv : UInt32} (hconv : n2nKcpChannelFromConv conv = channel)
    (hnew : ∀ ctx ∈ table, ctx.hashKey ≠ remote) (now : ℤ) :
    TableOk channel (table.add (newCtx remote conv now)) where
  conv := by
    intro ctx hctx
    rcases Table.mem_add.mp hctx with hctx | rfl
    · exact h.conv ctx hctx
    · exact hconv
  key := by
    intro ctx hctx
    rcases Table.mem_add.mp hctx with hctx | rfl
    · exact h.key ctx hctx
    · rfl
  distinct := h.distinct.add fun _ => hnew

theorem Ok.setTable {sss : SnKcp} (h : sss.Ok) {channel : KcpChannel} {table : Table SnKcpCtx}
    (htable : TableOk channel table) : (sss.setTable channel table).Ok := by
  intro other
  cases channel with
  | ctrl =>
    cases other with
    | ctrl => exact htable
    | data => exact h .data
  | data =>
    cases other with
    | ctrl => exact h .ctrl
    | data => exact htable

@[simp] theorem table_setTable (sss : SnKcp) (channel : KcpChannel) (table : Table SnKcpCtx) :
    (sss.setTable channel table).table channel = table := by
  cases channel <;> rfl

theorem Ok.setState {sss : SnKcp} (h : sss.Ok) (channel : KcpChannel) (p : ℕ) (state : UInt32) :
    (sss.setState channel p state).Ok :=
  h.setTable ((h channel).modify p (fun _ => rfl) (fun _ => rfl) fun _ => rfl)

theorem Ok.dropCtx {sss : SnKcp} (h : sss.Ok) (p : ℕ) (channel : KcpChannel) :
    (sss.dropCtx p channel).Ok := h.setTable ((h channel).del p)

theorem Ok.findLiveCtx {sss : SnKcp} (h : sss.Ok) (remote : Sock) (channel : KcpChannel) :
    (sss.findLiveCtx remote channel).1.Ok := by
  unfold SnKcp.findLiveCtx
  cases sss.findCtx remote channel with
  | none => exact h
  | some found =>
    dsimp only
    split_ifs
    · exact h
    · exact h.dropCtx found.1 channel
    · exact h

theorem Ok.findSendCtx {sss : SnKcp} (h : sss.Ok) (remote : Sock) (channel : KcpChannel) :
    (sss.findSendCtx remote channel).1.Ok := by
  unfold SnKcp.findSendCtx
  have h₁ := h.findLiveCtx remote channel
  generalize sss.findLiveCtx remote channel = r at h₁ ⊢
  obtain ⟨sss₁, found⟩ := r
  cases found with
  | some found => exact h₁
  | none =>
    have h₂ := h₁.findLiveCtx remote (otherChannel channel)
    dsimp only at h₂ ⊢
    generalize sss₁.findLiveCtx remote (otherChannel channel) = r at h₂ ⊢
    obtain ⟨sss₂, found⟩ := r
    cases found <;> exact h₂

theorem Ok.send {sss : SnKcp} (h : sss.Ok) (remote : Sock) (len : ℕ) (channel : KcpChannel)
    (ans : KcpAnswer) : (sss.send remote len channel ans).1.Ok := by
  unfold SnKcp.send
  have h₁ := h.findSendCtx remote channel
  generalize sss.findSendCtx remote channel = r at h₁ ⊢
  obtain ⟨sss₁, found⟩ := r
  cases found with
  | none => exact h₁
  | some found =>
    dsimp only at h₁ ⊢
    split_ifs
    · exact h₁
    · exact h₁
    · exact h₁.setState _ _ _

/-- A session is created only where there is none for the socket. -/
theorem Ok.createCtx {sss : SnKcp} (h : sss.Ok) {remote : Sock} {conv : UInt32}
    {channel : KcpChannel} (hconv : n2nKcpChannelFromConv conv = channel)
    (hnew : ∀ ctx ∈ sss.table channel, ctx.hashKey ≠ remote) (alloc : Alloc) (now : ℤ) :
    (sss.createCtx remote conv channel alloc now).1.Ok := by
  unfold SnKcp.createCtx
  split_ifs
  · exact h
  · exact h.setTable ((h channel).add hconv hnew now)

theorem findCtx_eq_some {sss : SnKcp} {remote : Sock} {channel : KcpChannel} {found : ℕ × SnKcpCtx}
    (h : sss.findCtx remote channel = some found) :
    (sss.table channel).get? found.1 = some found.2 ∧ found.2.hashKey = remote := by
  obtain ⟨hget, hkey⟩ := Table.find?_eq_some h
  exact ⟨hget, by simpa using hkey⟩

theorem findCtx_eq_none {sss : SnKcp} {remote : Sock} {channel : KcpChannel}
    (h : sss.findCtx remote channel = none) :
    ∀ ctx ∈ sss.table channel, ctx.hashKey ≠ remote := by
  intro ctx hctx
  simpa using Table.find?_eq_none.mp h ctx hctx

theorem Ok.findOrCreate {sss : SnKcp} (h : sss.Ok) (remote : Sock) {conv : UInt32}
    {channel : KcpChannel} (hconv : n2nKcpChannelFromConv conv = channel) (alloc : Alloc)
    (now : ℤ) : (sss.findOrCreate remote conv channel alloc now).1.Ok := by
  unfold SnKcp.findOrCreate
  cases hfound : sss.findCtx remote channel with
  | none => exact h.createCtx hconv (findCtx_eq_none hfound) alloc now
  | some found =>
    dsimp only
    split_ifs
    · -- the old session goes first, and it was the only one under this key
      refine (h.dropCtx found.1 channel).createCtx hconv ?_ alloc now
      obtain ⟨hget, hkey⟩ := findCtx_eq_some hfound
      intro ctx hctx heq
      rw [SnKcp.dropCtx, table_setTable] at hctx
      obtain ⟨q, hq⟩ := Table.mem_iff_get?.mp hctx
      rw [Table.get?_del] at hq
      split_ifs at hq with hqp
      exact hqp ((h channel).distinct q ctx found.1 found.2 hq hget (heq.trans hkey.symm) trivial)
    · exact h

theorem Ok.processInput {sss : SnKcp} (h : sss.Ok) (remote : Sock) (buf : List UInt8)
    (alloc : Alloc) (ans : KcpAnswer) (now time : ℤ) :
    (sss.processInput remote buf alloc ans now time).1.Ok := by
  unfold SnKcp.processInput
  cases (n2nKcpPacketGetConv buf).join with
  | none => exact h
  | some conv =>
    have h₁ := h.findOrCreate remote (rfl : n2nKcpChannelFromConv conv = _) alloc time
    dsimp only at h₁ ⊢
    generalize sss.findOrCreate remote conv (n2nKcpChannelFromConv conv) alloc time = r at h₁ ⊢
    obtain ⟨sss₁, found⟩ := r
    cases found with
    | none => exact h₁
    | some found =>
      dsimp only at h₁ ⊢
      split_ifs
      · exact h₁.dropCtx found.1 _
      · exact h₁
      · refine Ok.setState (h₁.setTable ?_) _ _ _
        exact (h₁ _).modify found.1 (fun _ => rfl) (fun _ => rfl) fun _ => rfl

theorem Ok.updateCtx {sss : SnKcp} (h : sss.Ok) (now : ℤ) (states : ℕ → UInt32)
    (channel : KcpChannel) (p : ℕ) : (SnKcp.updateCtx now states channel sss p).Ok := by
  unfold SnKcp.updateCtx
  have h₁ := h.setState channel p (states p)
  dsimp only
  split
  · exact h₁
  · split_ifs
    · exact h₁.dropCtx p channel
    · exact h₁

theorem Ok.update {sss : SnKcp} (h : sss.Ok) (now : ℤ) (ctrl data : ℕ → UInt32) :
    (sss.update now ctrl data).Ok := by
  have hloop : ∀ (states : ℕ → UInt32) (channel : KcpChannel) (ps : List ℕ) {sss : SnKcp},
      sss.Ok → (ps.foldl (SnKcp.updateCtx now states channel) sss).Ok := by
    intro states channel ps
    induction ps with
    | nil => exact fun h => h
    | cons p ps ih => exact fun h => ih (h.updateCtx now states channel p)
  exact hloop data .data _ (hloop ctrl .ctrl _ h)

end SnKcp

/-! ### Runs of the supernode -/

/-- What happens to the tables of a supernode. -/
inductive KcpSnEvent where
  | send (remote : Sock) (len : ℕ) (channel : KcpChannel) (ans : KcpAnswer)
  | input (remote : Sock) (buf : List UInt8) (alloc : SnKcp.Alloc) (ans : KcpAnswer)
      (now time : ℤ)
  | update (now : ℤ) (ctrl data : ℕ → UInt32)

/-- An event happens. -/
def KcpSnEvent.apply (sss : SnKcp) : KcpSnEvent → SnKcp
  | send remote len channel ans => (sss.send remote len channel ans).1
  | input remote buf alloc ans now time => (sss.processInput remote buf alloc ans now time).1
  | update now ctrl data => sss.update now ctrl data

/-- The runs of a supernode, from empty tables, as far as its KCP sessions are concerned. -/
def kcpSnMachine : Machine SnKcp KcpSnEvent :=
  ⟨fun sss => sss.ctrl = Table.empty ∧ sss.data = Table.empty, fun _ _ => True, KcpSnEvent.apply⟩

theorem SnKcp.Ok.initial {sss : SnKcp} (hctrl : sss.ctrl = Table.empty)
    (hdata : sss.data = Table.empty) : sss.Ok := by
  intro channel
  cases channel with
  | ctrl =>
    rw [show sss.table .ctrl = Table.empty from hctrl]
    exact .empty _
  | data =>
    rw [show sss.table .data = Table.empty from hdata]
    exact .empty _

theorem SnKcp.Ok.apply {sss : SnKcp} (h : sss.Ok) (ev : KcpSnEvent) : (ev.apply sss).Ok := by
  cases ev with
  | send remote len channel ans => exact h.send remote len channel ans
  | input remote buf alloc ans now time => exact h.processInput remote buf alloc ans now time
  | update now ctrl data => exact h.update now ctrl data

/-! ### The sessions in all runs -/

/-- **The KCP sessions in every run.**  On the edge a confirmed session is active, has an object and
has accepted two packets since it was set up; an active one has the UDP socket and a conversation
that is not 0 and whose top bit tells its channel.  On the supernode every session carries the
channel bit of its table and is under its own socket, and no two are under the same. -/
theorem kcpSessions {e : Edge} {sss : SnKcp} (he : kcpEdgeMachine.Reach anyStep e)
    (hs : kcpSnMachine.Reach anyStep sss) (channel : KcpChannel) :
    (e.transport.kcpConfirmed channel = true →
      (e.transport.kcpCtx channel).active = true ∧ (e.transport.kcpCtx channel).kcp.isSome = true ∧
        2 ≤ (e.transport.kcpCtx channel).accepted) ∧
    ((e.transport.kcpCtx channel).active = true →
      0 ≤ e.transport.udpSock ∧ (e.transport.kcpCtx channel).conv ≠ 0 ∧
        n2nKcpChannelFromConv (e.transport.kcpCtx channel).conv = channel) ∧
    (∀ ctx ∈ sss.table channel,
      n2nKcpChannelFromConv ctx.conv = channel ∧ ctx.hashKey = ctx.remoteSock) ∧
    (sss.table channel).DistinctOn (·.hashKey) fun _ => True := by
  have hedge : e.KcpOk := he.invariant (fun _ => .initial) fun _ _ h hen _ => h.apply hen
  have hsn : sss.Ok :=
    hs.invariant (fun _ h => .initial h.1 h.2) fun _ ev h _ _ => h.apply ev
  have hctx := hedge channel
  have htable := hsn channel
  refine ⟨fun hconfirmed => ?_, fun hactive => ?_, fun ctx hmem => ?_, htable.distinct⟩
  · obtain ⟨hactive, haccepted⟩ := hctx.confirmed hconfirmed
    exact ⟨hactive, hctx.kcp hactive, haccepted⟩
  · exact ⟨hctx.udpSock hactive, hctx.conv hactive⟩
  · exact ⟨htable.conv ctx hmem, htable.key ctx hmem⟩

/-- An acknowledgement of the control session with the conversation 7. -/
def kcpAck : List UInt8 := [7, 0, 0, 0, 82] ++ List.replicate 19 0

/-- An edge sets its control session up, and two packets come back. -/
def confirmingRun : List KcpEdgeEvent :=
  let sn : Sock := { Sock.zero with port := 1 }
  [.transport (.connect ⟨3, 4, true⟩), .setup sn .ctrl 7 ⟨true, true⟩ 0,
    .input sn kcpAck ⟨true, 0⟩ 1, .input sn kcpAck ⟨true, 0⟩ 2]

/-- The supernode hears of the session. -/
def hearingRun : List KcpSnEvent :=
  [.input Sock.zero kcpAck ⟨⟨true, true⟩, true⟩ ⟨true, 0⟩ 1 1]

theorem kcpSessions_confirmed :
    2 ≤ ((confirmingRun.foldl KcpEdgeEvent.apply (startedEdge false
        sparedSockets)).transport.kcpCtx .ctrl).accepted ∧
      ((hearingRun.foldl KcpSnEvent.apply ⟨Table.empty, Table.empty⟩).table .ctrl).DistinctOn
        (·.hashKey) fun _ => True := by
  have hstart : kcpEdgeMachine.Reach anyStep (startedEdge false sparedSockets) :=
    .init ⟨startedEdge_initial false sparedSockets_ok, rfl, rfl, rfl, rfl⟩
  have hruns : kcpEdgeMachine.Runs (startedEdge false sparedSockets) confirmingRun :=
    ⟨trivial, trivial, trivial, trivial, trivial⟩
  have hempty : kcpSnMachine.Reach anyStep ⟨Table.empty, Table.empty⟩ := .init ⟨rfl, rfl⟩
  have hhears : kcpSnMachine.Runs ⟨Table.empty, Table.empty⟩ hearingRun := ⟨trivial, trivial⟩
  have h := kcpSessions (hstart.runs hruns) (hempty.runs hhears) .ctrl
  exact ⟨(h.1 (by decide +kernel)).2.2, h.2.2.2⟩

end N2n
