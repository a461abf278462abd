import N2nTun.SnKcpReceive

/-!
# The edge takes messages out of its KCP sessions

The edge has one session for control messages and one for data, and the objects of the library
behind them.  While it processes a message it may send on a session, which sets a new one up if
there is none with the supernode, and it may end its sessions.

## Main definitions

* `EdgeKcpRx` — the sessions and the objects.
* `EdgeKcpRx.accept`, `EdgeKcpRx.recvPending` — `n2n_kcp_edge_input` up to the receipt, and
  `n2n_kcp_edge_recv_pending`.
* `EdgeKcpRx.send` — `n2n_kcp_edge_send`.
* `EdgeKcpRx.handle` — the part of `fetch_and_eventually_process_data` for the UDP socket.
* `edgeKcpRxMachine` — the runs.

## Main results

* `EdgeKcpRx.drains` — the queue of a session after a datagram, in all runs of the edge.
* `kcpDrain` — **supernode and edge leave no message in the queue of a session, if all messages fit
  into their buffers.**
-/

namespace N2n

open Loops Machines

/-- The sockets and sessions of an edge, and for both channels the object of the library. -/
structure EdgeKcpRx (κ : Type) where
  transport : EdgeTransport
  obj : KcpChannel → κ

/-- A datagram on the UDP socket, and the clocks. -/
structure EdgeDatagram where
  sender : Sock
  buf : List UInt8
  now : ℤ
  nowMs : UInt32

/-- What the functions of the edge do to the sessions. -/
inductive EdgeKcpOp where
  | send (payload : List UInt8) (dest : Sock) (channel : KcpChannel) (rand : UInt64)
      (alloc : KcpAlloc) (now : ℤ) (nowMs : UInt32)
  /-- `edge_reset_supernode_kcp_state` -/
  | reset
  /-- the data session is idle or dead -/
  | termData
  /-- `n2n_kcp_edge_update` -/
  | update (nowMs : UInt32)
  /-- everything but the sessions is written -/
  | other (eee' : EdgeTransport)

namespace EdgeKcpRx

variable {κ : Type} (lib : KcpLibrary κ)

/-- An object is written. -/
def setObj (s : EdgeKcpRx κ) (channel : KcpChannel) (k : κ) : EdgeKcpRx κ :=
  { s with obj := fun c => if c = channel then k else s.obj c }

/-- `n2n_kcp_edge_input` up to `ikcp_update`, with what is returned and what is left in
`out_channel`. -/
def accept (s : EdgeKcpRx κ) (d : EdgeDatagram) : EdgeKcpRx κ × ℤ × KcpChannel :=
  let eee := s.transport
  if eee.udpSock < 0 then (s, 0, .ctrl)
  else if !sockEqual d.sender eee.currSnSock then (s, 0, .ctrl)
  else
    match (n2nKcpPacketGetConv d.buf).join with
    | none => (s, 0, .ctrl)
    | some conv =>
      let channel := n2nKcpChannelFromConv conv
      if !eee.kcpSession d.sender conv then (s, -1, channel)
      else
        let (rc, k) := lib.input (s.obj channel) d.buf
        if rc < 0 then (s.setObj channel k, -1, channel)
        else
          let k := lib.update k d.nowMs
          let confirmed := eee.kcpConfirmed channel
          let ctx := EdgeTransport.countAccepted (eee.kcpCtx channel) confirmed
          let confirmed := confirmed || decide (2 ≤ ctx.rxConfirmCount)
          let eee := eee.setKcp channel ({ ctx with lastSeen := d.now }.withState (lib.state k))
            confirmed
          (setObj { s with transport := eee } channel k, 1, channel)

/-- The sessions and what is returned are those of the model without the objects. -/
theorem accept_kcpEdgeInput (s : EdgeKcpRx κ) (d : EdgeDatagram) : ∃ ans : KcpAnswer,
    s.transport.kcpEdgeInput d.sender d.buf ans d.now =
      ((s.accept lib d).1.transport, (s.accept lib d).2.1) := by
  unfold EdgeTransport.kcpEdgeInput EdgeKcpRx.accept
  by_cases hsock : s.transport.udpSock < 0
  · exact ⟨⟨true, 0⟩, by simp [hsock]⟩
  by_cases hsender : (!sockEqual d.sender s.transport.currSnSock) = true
  · refine ⟨⟨true, 0⟩, ?_⟩
    dsimp only
    rw [if_neg hsock, if_pos hsender, if_neg hsock, if_pos hsender]
  simp only [if_neg hsock, if_neg hsender]
  cases (n2nKcpPacketGetConv d.buf).join with
  | none => exact ⟨⟨true, 0⟩, rfl⟩
  | some conv =>
    by_cases hsession : (!s.transport.kcpSession d.sender conv) = true
    · exact ⟨⟨true, 0⟩, by simp only [if_pos hsession]⟩
    simp only [if_neg hsession]
    by_cases hrc : (lib.input (s.obj (n2nKcpChannelFromConv conv)) d.buf).1 < 0
    · refine ⟨⟨false, 0⟩, ?_⟩
      rw [if_pos hrc]
      rfl
    · refine ⟨⟨true, lib.state (lib.update
        (lib.input (s.obj (n2nKcpChannelFromConv conv)) d.buf).2 d.nowMs)⟩, ?_⟩
      rw [if_neg hrc]
      rfl

/-- `n2n_kcp_edge_recv_pending`. -/
def recvPending (outBufSize : ℕ) (channel : KcpChannel) (s : EdgeKcpRx κ) :
    EdgeKcpRx κ × ℤ × List UInt8 :=
  let ctx := s.transport.kcpCtx channel
  if !ctx.active || ctx.kcp.isNone then (s, 0, [])
  else
    let (k, rc, out) := recvPendingCtx lib outBufSize (s.obj channel)
    (s.setObj channel k, rc, out)

/-- `n2n_kcp_edge_setup`, with whether it returns 0: unless the session is in use, there is a new
object. -/
def setup (s : EdgeKcpRx κ) (dest : Sock) (channel : KcpChannel) (rand : UInt64) (alloc : KcpAlloc)
    (now : ℤ) : EdgeKcpRx κ × Bool :=
  let inUse := s.transport.kcpInUse dest channel
  let (eee, ok) := s.transport.kcpEdgeSetup dest channel rand alloc now
  let s := { s with transport := eee }
  (if inUse then s else s.setObj channel (lib.create (eee.kcpCtx channel).conv), ok)

/-- `n2n_kcp_edge_send`. -/
def send (s : EdgeKcpRx κ) (payload : List UInt8) (dest : Sock) (channel : KcpChannel)
    (rand : UInt64) (alloc : KcpAlloc) (now : ℤ) (nowMs : UInt32) : EdgeKcpRx κ :=
  if s.transport.udpSock < 0 then s
  else if !sockEqual dest s.transport.currSnSock then s
  else
    let (s, ok) := s.setup lib dest channel rand alloc now
    let ctx := s.transport.kcpCtx channel
    if !ok then s
    else if ctx.kcp.isNone || ctx.isDead then s
    else
      let (rc, k) := lib.send (s.obj channel) payload
      if rc < 0 then s.setObj channel k
      else
        let k := lib.update k nowMs
        setObj { s with
          transport := s.transport.setKcpCtx channel (ctx.withState (lib.state k)) } channel k

/-- `n2n_kcp_edge_update`. -/
def update (s : EdgeKcpRx κ) (nowMs : UInt32) : EdgeKcpRx κ :=
  let obj channel := lib.flush (lib.update (s.obj channel) nowMs)
  ⟨s.transport.kcpEdgeUpdate (lib.state (obj .ctrl)) (lib.state (obj .data)), obj⟩

/-- One operation. -/
def op (s : EdgeKcpRx κ) : EdgeKcpOp → EdgeKcpRx κ
  | .send payload dest channel rand alloc now nowMs =>
    s.send lib payload dest channel rand alloc now nowMs
  | .reset => { s with transport := edgeResetSupernodeKcpState s.transport }
  | .termData =>
    { s with transport := { s.transport with snKcpData := .term, snKcpDataConfirmed := false } }
  | .update nowMs => s.update lib nowMs
  | .other eee' =>
    { s with
      transport :=
        { eee' with snKcpCtrl := s.transport.snKcpCtrl, snKcpData := s.transport.snKcpData } }

/-- `process_udp` for a message: `ops` tells what it does to the sessions. -/
def processUdp (ops : EdgeKcpRx κ → List UInt8 → List EdgeKcpOp) (s : EdgeKcpRx κ)
    (m : List UInt8) : EdgeKcpRx κ := (ops s m).foldl (op lib) s

/-- What `fetch_and_eventually_process_data` does before it hands the messages over. -/
def markRecovered (channel : KcpChannel) (s : EdgeKcpRx κ) : EdgeKcpRx κ :=
  if s.transport.tcpFallbackActive && channel == .ctrl then
    { s with transport := edgeMarkUdpRecovered s.transport }
  else s

/-- `fetch_and_eventually_process_data` for a datagram on the UDP socket, with at most `passes`
passes of the loop that receives: the state afterwards and what has been handed to `process_udp`. -/
def handle (ops : EdgeKcpRx κ → List UInt8 → List EdgeKcpOp) (passes : ℕ) (s : EdgeKcpRx κ)
    (d : EdgeDatagram) : Option (EdgeKcpRx κ × List (List UInt8)) :=
  let (s, kcpRc, channel) := s.accept lib d
  if kcpRc > 0 then
    let (s, _, out) := s.recvPending lib pktBufSize channel
    loop (receiveStep (processUdp lib ops) (recvPending lib pktBufSize channel)) passes
      ⟨markRecovered channel s, out, []⟩
  else if kcpRc ≠ 0 then some (markRecovered channel s, [])
  else some (processUdp lib ops s d.buf, [d.buf])

/-- The messages that the library completes from a datagram. -/
def completes (messages : κ → List (List UInt8)) (s : EdgeKcpRx κ) (d : EdgeDatagram) :
    List (List UInt8) :=
  match (n2nKcpPacketGetConv d.buf).join with
  | none => []
  | some conv =>
    let k := s.obj (n2nKcpChannelFromConv conv)
    (messages (lib.input k d.buf).2).drop (messages k).length

/-- The messages that wait in a session. -/
def queue (messages : κ → List (List UInt8)) (channel : KcpChannel) (s : EdgeKcpRx κ) :
    List (List UInt8) :=
  if (s.transport.kcpCtx channel).active then messages (s.obj channel) else []

/-! ### Queues under the operations -/

variable {lib} {messages : κ → List (List UInt8)}

/-- A context that is in use has an object. -/
def Good (s : EdgeKcpRx κ) : Prop :=
  ∀ channel, (s.transport.kcpCtx channel).active = true →
    (s.transport.kcpCtx channel).kcp.isSome = true

/-- The queues are left alone, or their sessions are gone. -/
structure Keeps (messages : κ → List (List UInt8)) (s s' : EdgeKcpRx κ) : Prop where
  good : s.Good → s'.Good
  queue : ∀ channel, s'.queue messages channel = s.queue messages channel ∨
    s'.queue messages channel = []

theorem Keeps.refl (s : EdgeKcpRx κ) : Keeps messages s s := ⟨id, fun _ => Or.inl rfl⟩

theorem Keeps.trans {s s₁ s₂ : EdgeKcpRx κ} (h : Keeps messages s s₁)
    (h₁ : Keeps messages s₁ s₂) : Keeps messages s s₂ where
  good := h₁.good ∘ h.good
  queue channel := by
    rcases h₁.queue channel with heq₁ | hnil
    · rcases h.queue channel with heq | hnil
      · exact Or.inl (heq₁.trans heq)
      · exact Or.inr (heq₁.trans hnil)
    · exact Or.inr hnil

/-- A context is written and has the messages it had, or is no longer in use. -/
theorem Keeps.of_ctx {s s' : EdgeKcpRx κ}
    (h : ∀ channel, (s'.transport.kcpCtx channel).active = false ∨
      ((s'.transport.kcpCtx channel).active = (s.transport.kcpCtx channel).active ∧
        (s'.transport.kcpCtx channel).kcp.isSome = (s.transport.kcpCtx channel).kcp.isSome ∧
        messages (s'.obj channel) = messages (s.obj channel))) : Keeps messages s s' where
  good hgood channel hactive := by
    rcases h channel with hno | ⟨ha, hk, -⟩
    · rw [hno] at hactive
      cases hactive
    · rw [hk]
      exact hgood channel (ha ▸ hactive)
  queue channel := by
    unfold EdgeKcpRx.queue
    rcases h channel with hno | ⟨ha, -, hm⟩
    · exact Or.inr (by rw [hno]; rfl)
    · exact Or.inl (by rw [ha, hm])

@[simp] theorem setObj_transport (s : EdgeKcpRx κ) (channel : KcpChannel) (k : κ) :
    (s.setObj channel k).transport = s.transport := rfl

@[simp] theorem setObj_self (s : EdgeKcpRx κ) (channel : KcpChannel) (k : κ) :
    (s.setObj channel k).obj channel = k := if_pos rfl

theorem setObj_other (s : EdgeKcpRx κ) {channel c : KcpChannel} (k : κ) (h : c ≠ channel) :
    (s.setObj channel k).obj c = s.obj c := if_neg h

theorem kcpCtx_setKcp_self (eee : EdgeTransport) (channel : KcpChannel) (ctx : EdgeKcpCtx)
    (confirmed : Bool) : (eee.setKcp channel ctx confirmed).kcpCtx channel = ctx := by
  cases channel <;> rfl

theorem kcpCtx_setKcp_other (eee : EdgeTransport) {channel c : KcpChannel} (h : c ≠ channel)
    (ctx : EdgeKcpCtx) (confirmed : Bool) :
    (eee.setKcp channel ctx confirmed).kcpCtx c = eee.kcpCtx c := by
  cases channel <;> cases c <;> first | rfl | exact absurd rfl h

theorem isSome_withState (ctx : EdgeKcpCtx) (state : UInt32) :
    (ctx.withState state).kcp.isSome = ctx.kcp.isSome := by
  simp [EdgeKcpCtx.withState]

/-- One session gets another state and an object with the messages of the old one. -/
theorem keeps_put (s : EdgeKcpRx κ) (channel : KcpChannel) (ctx : EdgeKcpCtx) (confirmed : Bool)
    (k : κ) (hactive : ctx.active = (s.transport.kcpCtx channel).active)
    (hkcp : ctx.kcp.isSome = (s.transport.kcpCtx channel).kcp.isSome)
    (hk : messages k = messages (s.obj channel)) :
    Keeps messages s
      (setObj { s with transport := s.transport.setKcp channel ctx confirmed } channel k) := by
  refine .of_ctx fun c => Or.inr ?_
  by_cases hc : c = channel
  · subst hc
    rw [setObj_transport, setObj_self, kcpCtx_setKcp_self]
    exact ⟨hactive, hkcp, hk⟩
  · rw [setObj_transport, setObj_other _ k hc, kcpCtx_setKcp_other _ hc]
    exact ⟨rfl, rfl, rfl⟩

/-- The object is written, without a message more or less. -/
theorem keeps_setObj (s : EdgeKcpRx κ) (channel : KcpChannel) (k : κ)
    (hk : messages k = messages (s.obj channel)) : Keeps messages s (s.setObj channel k) := by
  refine .of_ctx fun c => Or.inr ⟨rfl, rfl, ?_⟩
  by_cases hc : c = channel
  · subst hc
    rw [setObj_self, hk]
  · rw [setObj_other s k hc]

/-- A setup makes no session, leaves the one in use, or makes one without messages. -/
theorem keeps_setup (hlib : lib.Queues messages) (s : EdgeKcpRx κ) (dest : Sock)
    (channel : KcpChannel) (rand : UInt64) (alloc : KcpAlloc) (now : ℤ)
    (hsock : ¬ s.transport.udpSock < 0) :
    Keeps messages s (s.setup lib dest channel rand alloc now).1 := by
  unfold EdgeKcpRx.setup EdgeTransport.kcpEdgeSetup EdgeTransport.kcpEdgeSetupWithConv
  rw [if_neg hsock]
  by_cases huse : s.transport.kcpInUse dest channel = true
  · rw [if_pos huse]
    dsimp only
    rw [if_pos huse]
    exact .refl s
  · rw [if_neg huse]
    -- the session is made anew, or not in use afterwards
    have hnew : ∀ (ctx : EdgeKcpCtx) (conv : UInt32), (ctx.active = true → ctx.kcp.isSome = true) →
        Keeps messages s (setObj
          { s with transport := s.transport.setKcp channel ctx false } channel
          (lib.create conv)) := by
      intro ctx conv hctx
      refine ⟨fun hgood c => ?_, fun c => ?_⟩
      · by_cases hc : c = channel
        · subst hc
          rw [setObj_transport, kcpCtx_setKcp_self]
          exact hctx
        · rw [setObj_transport, kcpCtx_setKcp_other _ hc]
          exact hgood c
      · unfold EdgeKcpRx.queue
        by_cases hc : c = channel
        · subst hc
          rw [setObj_self, hlib.create]
          exact Or.inr (ite_self [])
        · rw [setObj_transport, kcpCtx_setKcp_other _ hc, setObj_other _ _ hc]
          exact Or.inl rfl
    split_ifs
    · dsimp only
      rw [if_neg huse]
      refine hnew _ _ ?_
      intro hactive
      cases hactive
    · dsimp only
      rw [if_neg huse]
      refine hnew _ _ ?_
      intro hactive
      cases hactive
    · dsimp only
      rw [if_neg huse]
      refine hnew _ _ ?_
      intro _
      rfl

theorem keeps_send (hlib : lib.Queues messages) (s : EdgeKcpRx κ) (payload : List UInt8)
    (dest : Sock) (channel : KcpChannel) (rand : UInt64) (alloc : KcpAlloc) (now : ℤ)
    (nowMs : UInt32) : Keeps messages s (s.send lib payload dest channel rand alloc now nowMs) := by
  unfold EdgeKcpRx.send
  by_cases hsock : s.transport.udpSock < 0
  · rw [if_pos hsock]
    exact .refl s
  rw [if_neg hsock]
  have hsetup := keeps_setup hlib s dest channel rand alloc now hsock
  generalize s.setup lib dest channel rand alloc now = r at hsetup ⊢
  obtain ⟨s₁, ok⟩ := r
  dsimp only at hsetup ⊢
  split_ifs
  · exact .refl s
  · exact hsetup
  · exact hsetup
  · exact hsetup.trans (keeps_setObj s₁ channel _ (hlib.send _ _))
  · refine hsetup.trans (keeps_put s₁ channel _ _ _ rfl ?_ ?_)
    · exact isSome_withState _ _
    · exact (hlib.update _ _).trans (hlib.send _ _)

theorem keeps_update (hlib : lib.Queues messages) (s : EdgeKcpRx κ) (nowMs : UInt32) :
    Keeps messages s (s.update lib nowMs) := by
  have hone : ∀ (eee : EdgeTransport) (channel c : KcpChannel) (state : UInt32),
      ((eee.kcpUpdateCtx channel state).kcpCtx c).active = (eee.kcpCtx c).active ∧
        ((eee.kcpUpdateCtx channel state).kcpCtx c).kcp.isSome = (eee.kcpCtx c).kcp.isSome := by
    intro eee channel c state
    unfold EdgeTransport.kcpUpdateCtx
    dsimp only
    split_ifs
    · unfold EdgeTransport.setKcpCtx
      by_cases hc : c = channel
      · subst hc
        rw [kcpCtx_setKcp_self]
        exact ⟨rfl, isSome_withState _ _⟩
      · rw [kcpCtx_setKcp_other _ hc]
        exact ⟨rfl, rfl⟩
    · exact ⟨rfl, rfl⟩
  refine .of_ctx fun c => Or.inr ?_
  obtain ⟨hactive₁, hkcp₁⟩ := hone s.transport .ctrl c
    (lib.state (lib.flush (lib.update (s.obj .ctrl) nowMs)))
  obtain ⟨hactive₂, hkcp₂⟩ := hone
    (s.transport.kcpUpdateCtx .ctrl (lib.state (lib.flush (lib.update (s.obj .ctrl) nowMs))))
    .data c (lib.state (lib.flush (lib.update (s.obj .data) nowMs)))
  exact ⟨hactive₂.trans hactive₁, hkcp₂.trans hkcp₁, (hlib.flush _).trans (hlib.update _ _)⟩

/-- **No operation touches a queue but by ending its session.** -/
theorem keeps_op (hlib : lib.Queues messages) (s : EdgeKcpRx κ) (op : EdgeKcpOp) :
    Keeps messages s (s.op lib op) := by
  cases op with
  | send payload dest channel rand alloc now nowMs =>
    exact keeps_send hlib s payload dest channel rand alloc now nowMs
  | reset => exact .of_ctx fun channel => Or.inl (by cases channel <;> rfl)
  | termData =>
    refine .of_ctx fun channel => ?_
    cases channel with
    | ctrl => exact Or.inr ⟨rfl, rfl, rfl⟩
    | data => exact Or.inl rfl
  | update nowMs => exact keeps_update hlib s nowMs
  | other eee' =>
    exact .of_ctx fun channel => Or.inr (by cases channel <;> exact ⟨rfl, rfl, rfl⟩)

theorem keeps_processUdp (hlib : lib.Queues messages)
    (ops : EdgeKcpRx κ → List UInt8 → List EdgeKcpOp) (s : EdgeKcpRx κ) (m : List UInt8) :
    Keeps messages s (processUdp lib ops s m) := by
  unfold EdgeKcpRx.processUdp
  generalize ops s m = xs
  induction xs generalizing s with
  | nil => exact .refl s
  | cons x xs ih => exact (keeps_op hlib s x).trans (ih _)

theorem keeps_markRecovered (channel : KcpChannel) (s : EdgeKcpRx κ) :
    Keeps messages s (markRecovered channel s) := by
  refine .of_ctx fun c => Or.inr ?_
  unfold EdgeKcpRx.markRecovered edgeMarkUdpRecovered
  split_ifs <;> cases c <;> exact ⟨rfl, rfl, rfl⟩

/-! ### The loop of the edge -/

/-- The sessions are good, and the messages that wait in them fit into the buffer. -/
structure Fitting (messages : κ → List (List UInt8)) (s : EdgeKcpRx κ) : Prop where
  good : s.Good
  fit : ∀ channel, ∀ m ∈ s.queue messages channel, Fits pktBufSize m

theorem Keeps.fitting {s s' : EdgeKcpRx κ} (h : Keeps messages s s') (hs : Fitting messages s) :
    Fitting messages s' where
  good := h.good hs.good
  fit channel m hm := by
    rcases h.queue channel with heq | hnil
    · rw [heq] at hm
      exact hs.fit channel m hm
    · rw [hnil] at hm
      cases hm

/-- The receipt from a session that is in use. -/
theorem recvPending_eq {size : ℕ} {channel : KcpChannel} {s : EdgeKcpRx κ} (hgood : s.Good)
    (hactive : (s.transport.kcpCtx channel).active = true) {k : κ} {rc : ℤ} {out : List UInt8}
    (h : recvPendingCtx lib size (s.obj channel) = (k, rc, out)) :
    recvPending lib size channel s = (s.setObj channel k, rc, out) := by
  have hkcp := hgood channel hactive
  unfold EdgeKcpRx.recvPending
  dsimp only
  rw [if_neg (by simp [hactive, Option.isSome_iff_ne_none.mp hkcp]), h]

theorem recvPending_inactive {size : ℕ} {channel : KcpChannel} {s : EdgeKcpRx κ}
    (hactive : (s.transport.kcpCtx channel).active = false) :
    recvPending lib size channel s = (s, 0, []) := by
  unfold EdgeKcpRx.recvPending
  dsimp only
  rw [if_pos (by simp [hactive])]

theorem queue_active {channel : KcpChannel} {s : EdgeKcpRx κ}
    (hactive : (s.transport.kcpCtx channel).active = true) :
    s.queue messages channel = messages (s.obj channel) := by
  rw [EdgeKcpRx.queue, if_pos hactive]

theorem queue_inactive {channel : KcpChannel} {s : EdgeKcpRx κ}
    (hactive : (s.transport.kcpCtx channel).active = false) : s.queue messages channel = [] := by
  rw [EdgeKcpRx.queue, hactive]
  rfl

theorem queue_setObj {channel : KcpChannel} {s : EdgeKcpRx κ}
    (hactive : (s.transport.kcpCtx channel).active = true) (k : κ) :
    (s.setObj channel k).queue messages channel = messages k := by
  rw [queue_active (s := s.setObj channel k) hactive, setObj_self]

/-- An object is written whose messages fit. -/
theorem Fitting.setObj {s : EdgeKcpRx κ} (h : Fitting messages s) {channel : KcpChannel} {k : κ}
    (hk : (s.transport.kcpCtx channel).active = true →
      ∀ m ∈ messages k, Fits pktBufSize m) : Fitting messages (s.setObj channel k) := by
  refine ⟨h.good, fun c m hm => ?_⟩
  cases hactive : (s.transport.kcpCtx c).active with
  | false =>
    rw [queue_inactive (s := s.setObj channel k) hactive] at hm
    cases hm
  | true =>
    rw [queue_active (s := s.setObj channel k) hactive] at hm
    by_cases hc : c = channel
    · subst hc
      rw [setObj_self] at hm
      exact hk hactive m hm
    · rw [setObj_other s k hc] at hm
      exact h.fit c m (by rwa [queue_active hactive])

/-- A session gets another state, and an object whose messages fit. -/
theorem Fitting.put {s : EdgeKcpRx κ} (h : Fitting messages s) {channel : KcpChannel}
    {ctx : EdgeKcpCtx} {confirmed : Bool} {k : κ}
    (hactive : ctx.active = (s.transport.kcpCtx channel).active)
    (hkcp : ctx.kcp.isSome = (s.transport.kcpCtx channel).kcp.isSome)
    (hk : (s.transport.kcpCtx channel).active = true → ∀ m ∈ messages k, Fits pktBufSize m) :
    Fitting messages
      (EdgeKcpRx.setObj { s with transport := s.transport.setKcp channel ctx confirmed }
        channel k) := by
  have hset := h.setObj hk
  refine (Keeps.of_ctx (s := s.setObj channel k) fun c => Or.inr ?_).fitting hset
  by_cases hc : c = channel
  · subst hc
    rw [setObj_transport, setObj_self, kcpCtx_setKcp_self, setObj_self]
    exact ⟨hactive, hkcp, rfl⟩
  · rw [setObj_transport, setObj_other _ k hc, kcpCtx_setKcp_other _ hc, setObj_other _ k hc]
    exact ⟨rfl, rfl, rfl⟩

theorem Fitting.recvPending (hlib : lib.Queues messages) {s : EdgeKcpRx κ}
    (h : Fitting messages s) (channel : KcpChannel) :
    Fitting messages (recvPending lib pktBufSize channel s).1 := by
  cases hactive : (s.transport.kcpCtx channel).active with
  | false =>
    rw [recvPending_inactive hactive]
    exact h
  | true =>
    have hfit := h.fit channel
    rw [queue_active hactive] at hfit
    rcases fits_or_stuck pktBufSize (messages (s.obj channel)) with ⟨m, rest, hq, hm⟩ | hstuck
    · obtain ⟨k, hrecv, hrest⟩ := recvPendingCtx_fits hlib hq hm
      rw [recvPending_eq h.good hactive hrecv]
      refine h.setObj fun _ m' hm' => hfit m' ?_
      rw [hq, ← hrest]
      exact List.mem_cons_of_mem _ hm'
    · rw [recvPending_eq h.good hactive (recvPendingCtx_stuck hlib hstuck)]
      exact h.setObj fun _ => hfit

theorem pending (hlib : lib.Queues messages) (channel : KcpChannel) :
    Pending pktBufSize (EdgeKcpRx.queue messages channel) (Fitting messages)
      (recvPending lib pktBufSize channel) where
  inv _ h := h.recvPending hlib channel
  fits s m rest h hq hm := by
    cases hactive : (s.transport.kcpCtx channel).active with
    | false =>
      rw [queue_inactive hactive] at hq
      cases hq
    | true =>
      rw [queue_active hactive] at hq
      obtain ⟨k, hrecv, hrest⟩ := recvPendingCtx_fits hlib hq hm
      rw [recvPending_eq h.good hactive hrecv]
      exact ⟨rfl, (queue_setObj hactive k).trans hrest⟩
  stuck s h hq := by
    cases hactive : (s.transport.kcpCtx channel).active with
    | false =>
      rw [recvPending_inactive hactive]
      exact ⟨rfl, rfl⟩
    | true =>
      rw [queue_active hactive] at hq
      rw [recvPending_eq h.good hactive (recvPendingCtx_stuck hlib hq)]
      exact ⟨rfl, (queue_setObj hactive _).trans (queue_active hactive).symm⟩

theorem Keeps.handled {f : EdgeKcpRx κ → List UInt8 → EdgeKcpRx κ}
    (h : ∀ s m, Keeps messages s (f s m)) (channel : KcpChannel) :
    Handled (EdgeKcpRx.queue messages channel) (Fitting messages) f where
  inv s m hs := (h s m).fitting hs
  queue s m _ := (h s m).queue channel

/-- What `n2n_kcp_edge_input` does before it receives. -/
theorem Fitting.accept (hlib : lib.Queues messages) {s : EdgeKcpRx κ} (h : Fitting messages s)
    (d : EdgeDatagram) (hnew : ∀ m ∈ s.completes lib messages d, Fits pktBufSize m) :
    Fitting messages (s.accept lib d).1 := by
  unfold EdgeKcpRx.accept
  unfold EdgeKcpRx.completes at hnew
  cases hconv : (n2nKcpPacketGetConv d.buf).join with
  | none =>
    dsimp only
    split_ifs <;> exact h
  | some conv =>
    rw [hconv] at hnew
    dsimp only at hnew ⊢
    -- the messages of the object are those that were there and the new ones
    have hput : (s.transport.kcpCtx (n2nKcpChannelFromConv conv)).active = true →
        ∀ m ∈ messages (lib.input (s.obj (n2nKcpChannelFromConv conv)) d.buf).2,
          Fits pktBufSize m := by
      intro hactive m hm
      have hprefix := hlib.input (s.obj (n2nKcpChannelFromConv conv)) d.buf
      rw [← List.prefix_iff_eq_append.mp hprefix, List.mem_append] at hm
      rcases hm with hm | hm
      · exact h.fit _ m (by rwa [queue_active hactive])
      · exact hnew m hm
    split_ifs
    · exact h
    · exact h
    · exact h
    · exact h.setObj hput
    · refine h.put rfl (isSome_withState _ _) fun hactive => ?_
      rw [hlib.update]
      exact hput hactive

/-- The loop of `fetch_and_eventually_process_data` for a session ends, the messages of the session
have been handed over in their order, or discarded with the session, and none is left in it. -/
def Drains (lib : KcpLibrary κ) (messages : κ → List (List UInt8))
    (ops : EdgeKcpRx κ → List UInt8 → List EdgeKcpOp) (s : EdgeKcpRx κ) (d : EdgeDatagram) : Prop :=
  ∀ s₁ rc channel, s.accept lib d = (s₁, rc, channel) → 0 < rc →
    (∃ passes, (s.handle lib ops passes d).isSome) ∧
      ∀ passes s' handed, s.handle lib ops passes d = some (s', handed) →
        handed <+: s₁.queue messages channel ∧ s'.queue messages channel = []

/-- **A datagram whose messages all fit**: the queue of its session is empty after the loop. -/
theorem Fitting.handle (hlib : lib.Queues messages)
    (ops : EdgeKcpRx κ → List UInt8 → List EdgeKcpOp) {s : EdgeKcpRx κ} (h : Fitting messages s)
    (d : EdgeDatagram) (hnew : ∀ m ∈ s.completes lib messages d, Fits pktBufSize m) :
    Drains lib messages ops s d ∧
      ∀ passes s' handed, s.handle lib ops passes d = some (s', handed) →
        Fitting messages s' := by
  have hfit₁ := h.accept hlib d hnew
  unfold EdgeKcpRx.Drains EdgeKcpRx.handle
  generalize s.accept lib d = r at hfit₁ ⊢
  obtain ⟨s₁, rc, channel⟩ := r
  dsimp only at hfit₁ ⊢
  by_cases hrc : rc > 0
  · simp only [if_pos hrc]
    obtain ⟨s', handed, hends, hfit', hdrained⟩ := receive_ends (pending hlib channel)
      (Keeps.handled (keeps_processUdp hlib ops) channel) (markRecovered channel)
      (Keeps.handled (fun s _ => keeps_markRecovered channel s) channel) hfit₁
    refine ⟨fun s₂ rc₂ channel₂ heq _ => ?_, fun passes s₂ handed₂ hrun => ?_⟩
    · obtain ⟨rfl, hrest⟩ := Prod.mk.inj heq
      obtain ⟨rfl, rfl⟩ := Prod.mk.inj hrest
      refine ⟨?_, fun passes s₂ handed₂ hrun => ?_⟩
      · obtain ⟨passes, hpasses⟩ := hends
        exact ⟨passes, by rw [hpasses]; rfl⟩
      · obtain ⟨rfl, rfl⟩ := Prod.mk.inj (Ends.unique ⟨passes, hrun⟩ hends)
        exact hdrained.all (hfit₁.fit channel)
    · obtain ⟨rfl, rfl⟩ := Prod.mk.inj (Ends.unique ⟨passes, hrun⟩ hends)
      exact hfit'
  · simp only [if_neg hrc]
    refine ⟨fun s₂ rc₂ channel₂ heq hpos => ?_, fun passes s₂ handed₂ hrun => ?_⟩
    · obtain ⟨-, hrest⟩ := Prod.mk.inj heq
      obtain ⟨rfl, -⟩ := Prod.mk.inj hrest
      exact absurd hpos hrc
    · split_ifs at hrun
      · obtain ⟨rfl, -⟩ := Prod.mk.inj (Option.some.inj hrun)
        exact (keeps_markRecovered channel s₁).fitting hfit₁
      · obtain ⟨rfl, -⟩ := Prod.mk.inj (Option.some.inj hrun)
        exact (keeps_processUdp hlib ops s₁ d.buf).fitting hfit₁

end EdgeKcpRx

/-! ### Runs of the edge -/

/-- What happens to the sessions of an edge. -/
inductive EdgeKcpRxEvent where
  /-- a datagram on the UDP socket, and a bound on the passes of the loop that receives -/
  | datagram (d : EdgeDatagram) (passes : ℕ)
  | op (op : EdgeKcpOp)

section

variable {κ : Type} (lib : KcpLibrary κ) (messages : κ → List (List UInt8))
  (ops : EdgeKcpRx κ → List UInt8 → List EdgeKcpOp)

/-- An event happens. -/
def EdgeKcpRxEvent.apply (s : EdgeKcpRx κ) : EdgeKcpRxEvent → EdgeKcpRx κ
  | datagram d passes => ((s.handle lib ops passes d).map Prod.fst).getD s
  | op x => s.op lib x

/-- The bound on the passes is high enough. -/
def EdgeKcpRxEvent.Enabled (s : EdgeKcpRx κ) : EdgeKcpRxEvent → Prop
  | datagram d passes => (s.handle lib ops passes d).isSome
  | op _ => True

/-- The messages that the event completes fit into the buffer. -/
def EdgeKcpRxEvent.Fitting (s : EdgeKcpRx κ) : EdgeKcpRxEvent → Prop
  | datagram d _ => ∀ m ∈ s.completes lib messages d, Fits pktBufSize m
  | op _ => True

/-- The runs of an edge, from two contexts that are not in use. -/
def edgeKcpRxMachine : Machine (EdgeKcpRx κ) EdgeKcpRxEvent :=
  ⟨fun s => s.transport.snKcpCtrl = .term ∧ s.transport.snKcpData = .term,
    EdgeKcpRxEvent.Enabled lib ops, EdgeKcpRxEvent.apply lib ops⟩

variable {lib messages}

theorem EdgeKcpRx.Fitting.initial {s : EdgeKcpRx κ} (hctrl : s.transport.snKcpCtrl = .term)
    (hdata : s.transport.snKcpData = .term) : s.Fitting messages := by
  have hinactive : ∀ channel, (s.transport.kcpCtx channel).active = false := by
    intro channel
    cases channel with
    | ctrl => rw [show s.transport.kcpCtx .ctrl = .term from hctrl]; rfl
    | data => rw [show s.transport.kcpCtx .data = .term from hdata]; rfl
  refine ⟨fun channel hactive => ?_, fun channel m hm => ?_⟩
  · rw [hinactive channel] at hactive
    cases hactive
  · rw [EdgeKcpRx.queue_inactive (hinactive channel)] at hm
    cases hm

theorem EdgeKcpRx.Fitting.apply (hlib : lib.Queues messages) {s : EdgeKcpRx κ}
    (h : s.Fitting messages) (ev : EdgeKcpRxEvent) (hfits : ev.Fitting lib messages s) :
    (ev.apply lib ops s).Fitting messages := by
  cases ev with
  | datagram d passes =>
    show (((s.handle lib ops passes d).map Prod.fst).getD s).Fitting messages
    cases hrun : s.handle lib ops passes d with
    | none => exact h
    | some r => exact (h.handle hlib ops d hfits).2 passes r.1 r.2 hrun
  | op x => exact (EdgeKcpRx.keeps_op hlib s x).fitting h

/-- **In every run in which all messages fit** the next datagram whose messages fit leaves no
message in the queue of its session. -/
theorem EdgeKcpRx.drains (hlib : lib.Queues messages) {s : EdgeKcpRx κ}
    (h : (edgeKcpRxMachine lib ops).Reach (fun s ev => ev.Fitting lib messages s) s)
    (d : EdgeDatagram) (hfits : ∀ m ∈ s.completes lib messages d, Fits pktBufSize m) :
    s.Drains lib messages ops d := by
  have hs : s.Fitting messages :=
    h.invariant (fun _ hinit => .initial hinit.1 hinit.2)
      fun _ ev hs _ hcond => hs.apply ops hlib ev hcond
  exact (hs.handle hlib ops d hfits).1

end

/-! ### Both programs -/

/-- **Supernode and edge drain their KCP sessions.**  In every run in which the messages that the
library completes are not empty and fit into the buffer of 4096 bytes, the loop after a datagram for
a session ends; the messages of the session have been handed to `process_udp` in their order, or
discarded with the session, and none is left. -/
theorem kcpDrain {κ : Type} {lib : KcpLibrary κ} {messages : κ → List (List UInt8)}
    (hlib : lib.Queues messages) :
    (∀ sends s, (snKcpRxMachine lib sends).Reach (fun s ev => ev.Fitting lib messages s) s →
      ∀ d, (∀ m ∈ s.completes lib messages d, Fits snPktbufSize m) →
        s.Drains lib messages sends d) ∧
    (∀ ops s, (edgeKcpRxMachine lib ops).Reach (fun s ev => ev.Fitting lib messages s) s →
      ∀ d, (∀ m ∈ s.completes lib messages d, Fits pktBufSize m) →
        s.Drains lib messages ops d) :=
  ⟨fun sends _ h d hfits => SnKcpRx.drains sends hlib h d hfits,
    fun ops _ h d hfits => EdgeKcpRx.drains ops hlib h d hfits⟩

/-- As much of the library as datagrams of one PUSH each need, where every PUSH is a whole message
and comes in its turn. -/
def pushLibrary : KcpLibrary (List (List UInt8)) where
  create _ := []
  input k buf := (0, if buf.getD 4 0 == 81 then k ++ [buf.drop kcpOverhead] else k)
  send k _ := (0, k)
  update k _ := k
  flush k := k
  state _ := 0
  peeksize
    | [] => -1
    | m :: _ => m.length
  recv k _ :=
    match k with
    | [] => (-1, [], [])
    | m :: rest => (m.length, m, rest)

theorem pushLibrary_queues : pushLibrary.Queues id where
  create _ := rfl
  input k buf := by
    unfold pushLibrary
    dsimp only [id]
    split
    · exact List.prefix_append _ _
    · exact List.prefix_refl _
  send _ _ := rfl
  update _ _ := rfl
  flush _ := rfl
  peeksize_nil k hk := by
    cases hk
    decide
  peeksize_cons k m rest hk := by
    cases hk
    rfl
  recv k m rest hk := by
    cases hk
    exact ⟨rest, rfl, rfl⟩

/-- A PUSH with a message of fewer than 256 bytes, as the datagram of a peer. -/
def pushDatagram (sn : UInt8) (payload : List UInt8) : SnDatagram where
  remote := Sock.zero
  buf := [7, 0, 0, 0, 81, 0, 96, 0, 0, 0, 0, 0, sn, 0, 0, 0, 0, 0, 0, 0,
    UInt8.ofNat payload.length, 0, 0, 0] ++ payload
  alloc := ⟨⟨true, true⟩, true⟩
  now := 1
  time := 1
  nowMs := 1000

/-- A supernode without sessions. -/
def noSessions : SnKcpRx (List (List UInt8)) := ⟨⟨Table.empty, Table.empty⟩, fun _ _ => []⟩

theorem kcpDrain_push :
    noSessions.Drains pushLibrary id (fun _ _ => []) (pushDatagram 0 [97, 98]) :=
  (kcpDrain pushLibrary_queues).1 _ noSessions (.init ⟨rfl, rfl⟩) _ (by decide +kernel)

/-- A message without bytes stays at the head of the queue, and the message behind it with it. -/
theorem not_drains_emptyPush :
    ¬ SnKcpRx.Drains pushLibrary id (fun _ _ => [])
      (SnKcpRxEvent.apply pushLibrary (fun _ _ => []) noSessions (.datagram (pushDatagram 0 []) 1))
      (pushDatagram 1 [97, 98]) := by
  intro h
  have hrun : ((SnKcpRxEvent.apply pushLibrary (fun _ _ => []) noSessions
      (.datagram (pushDatagram 0 []) 1)).handle pushLibrary (fun _ _ => []) 1
        (pushDatagram 1 [97, 98])).map (fun r => (r.1.queue id Sock.zero .ctrl, r.2)) =
      some ([[], [97, 98]], []) := by
    decide +kernel
  obtain ⟨⟨s', handed⟩, hr, heq⟩ := Option.map_eq_some_iff.mp hrun
  have hqueue : s'.queue id Sock.zero .ctrl = [[], [97, 98]] := (Prod.mk.inj heq).1
  have haccept : ((SnKcpRxEvent.apply pushLibrary (fun _ _ => []) noSessions
      (.datagram (pushDatagram 0 []) 1)).accept pushLibrary (pushDatagram 1 [97, 98])).2.2 =
      some (.ctrl, 0) := by
    decide +kernel
  have hempty := ((h _ _ .ctrl 0 (Prod.ext rfl (Prod.ext rfl haccept))).2 1 s' handed hr).2
  change s'.queue id Sock.zero .ctrl = [] at hempty
  rw [hqueue] at hempty
  cases hempty

end N2n
