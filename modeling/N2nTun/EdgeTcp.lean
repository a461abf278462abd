import Mathlib.Logic.Function.Basic
import N2nTun.EdgeTransport
import N2nTun.Reassembly
import N2nTun.Lib.Machine

/-!
# The edge's reading loop

`run_edge_loop` has one packet buffer and one pair of counters.  The TCP stream
of the supernode is reassembled in them, and UDP and multicast datagrams are read
into the same buffer.  Nothing resets the pair when a connection ends in the
middle of a frame, apart from a test made in forced-TCP mode.

The state below carries, besides what the code has, a record of each connection
(numbered by `tcpOpened`) and of the datagrams.

## Main definitions

* `EdgeLoop`, `fetchAndEventuallyProcessData`, `edgeLoopMachine` — the loop, its
  reading function, and its runs.
* `EdgeReassemblyOk` — what is required of every state.
* `EdgeStepOk` — the condition on a step: what must not happen to a partial frame.

## Main results

* `edgeReassemblyOk_of_reach` — **in every run whose steps meet the condition,
  all streams are reassembled correctly.**
-/

namespace N2n

open Bytes Frames Machines

/-! ### The loop -/

/-- What has come in on one connection and what of it was handed to
`process_udp`; `dropped` once the edge has given the stream up for what it
carried. -/
structure StreamLog where
  received : List UInt8
  handed : List (List UInt8)
  dropped : Bool

/-- A record with nothing in it. -/
def StreamLog.empty : StreamLog := ⟨[], [], false⟩

/-- The variables of `run_edge_loop` (`buffer` is `pktbuf`), the edge, and the
records of what was read and handed over. -/
structure EdgeLoop extends Reassembly where
  eee : EdgeTransport
  keepRunning : Bool
  log : ℕ → StreamLog
  datagrams : List (List UInt8)
  handedDatagrams : List (List UInt8)
  handedKcp : List (List UInt8)

/-- What `recvfrom` answers: `-1`, or some bytes and whether `errno` is set. -/
inductive Recv where
  | error
  | data (bread : List UInt8) (errno : Bool)

/-- What `n2n_kcp_edge_input` makes of a datagram that it does not refuse: the
messages it yields, and whether they belong to the control channel. -/
structure KcpInput where
  ctrl : Bool
  out : List (List UInt8)

/-- One call of `fetch_and_eventually_process_data`: the answer of `recvfrom`, that
of `n2n_kcp_edge_input` (`none` for 0), what `process_udp` does to the transports,
and what it leaves in the buffer it decrypts in place. -/
structure Fetch where
  recv : Recv
  kcp : Option KcpInput
  ops : List TransportOp
  left : List UInt8

/-- Whether a read of `sock` goes to the TCP branch. -/
def readsTcp (eee : EdgeTransport) (sock : ℤ) : Bool :=
  !(eee.tcpSock < 0 || sock != eee.tcpSock || sock == eee.udpMulticastSock)

/-- A datagram goes to `process_udp`. -/
def EdgeLoop.handDatagram (s : EdgeLoop) (bread : List UInt8) (f : Fetch) : EdgeLoop :=
  { s with
    handedDatagrams := s.handedDatagrams ++ [slice s.buffer 0 bread.length]
    buffer := overwrite s.buffer 0 f.left
    eee := applyOps s.eee f.ops }

/-- The UDP branch for a datagram `bread`. -/
def EdgeLoop.fetchDatagram (s : EdgeLoop) (sock : ℤ) (bread : List UInt8) (f : Fetch) :
    EdgeLoop :=
  let s := { s with
    buffer := overwrite s.buffer 0 bread
    datagrams := s.datagrams ++ [bread] }
  if bread = [] then s
  else if 0 ≤ s.eee.udpSock && sock == s.eee.udpSock then
    match f.kcp with
    | some k =>
      let eee := if s.eee.tcpFallbackActive && k.ctrl then edgeMarkUdpRecovered s.eee else s.eee
      { s with eee := applyOps eee f.ops, handedKcp := s.handedKcp ++ k.out }
    | none => s.handDatagram bread f
  else s.handDatagram bread f

/-- The record of the current connection becomes `l`. -/
def EdgeLoop.setLog (s : EdgeLoop) (l : StreamLog) : EdgeLoop :=
  { s with log := Function.update s.log s.eee.tcpOpened l }

/-- The TCP branch when `recvfrom` has failed. -/
def EdgeLoop.fetchFailed (s : EdgeLoop) : EdgeLoop :=
  let eee := edgeReleaseTcpStickyAfterDisconnect (supernodeDisconnectTcp s.eee)
  { s with eee := edgeSyncActiveSocket { eee with snWait := 1 } }

/-- The TCP branch for bytes `bread` of the stream. -/
def EdgeLoop.fetchStream (s : EdgeLoop) (bread : List UInt8) (f : Fetch) : EdgeLoop :=
  let l := s.log s.eee.tcpOpened
  let l := { l with received := l.received ++ bread }
  match s.toReassembly.advance pktBufSize bread with
  | (a, .wait) => { s.setLog l with toReassembly := a }
  | (a, .tooLong) =>
    let eee := edgeReleaseTcpStickyAfterDisconnect (supernodeDisconnect s.eee)
    { s.setLog { l with dropped := true } with
      toReassembly := a
      eee := { eee with snWait := 1 } }
  | (a, .packet p) =>
    { s.setLog { l with handed := l.handed ++ [p] } with
      toReassembly := a.reset f.left
      eee := applyOps s.eee f.ops }

/-- `fetch_and_eventually_process_data`, and whether it returned 0. -/
def fetchAndEventuallyProcessData (s : EdgeLoop) (sock : ℤ) (f : Fetch) : EdgeLoop × Bool :=
  if readsTcp s.eee sock then
    match f.recv with
    | .error => (s.fetchFailed, true)
    | .data bread errno =>
      if bread = [] && errno then (s.fetchFailed, true) else (s.fetchStream bread f, true)
  else
    match f.recv with
    | .error => (s, false)
    | .data bread _ => (s.fetchDatagram sock bread f, true)

/-- The test that `run_edge_loop` makes after a read in forced-TCP mode. -/
def EdgeLoop.checkCounters (s : EdgeLoop) : EdgeLoop :=
  if s.eee.connectTcp &&
      (decide (pktBufSize ≤ s.expected.toNat) || decide (pktBufSize ≤ s.position.toNat)) then
    let l := s.log s.eee.tcpOpened
    { s.setLog { l with dropped := l.dropped || decide (0 ≤ s.eee.tcpSock) } with
      eee := { supernodeDisconnect s.eee with snWait := 1 }
      expected := 2
      position := 0 }
  else s

/-- What happens in the loop, as far as its reading side is concerned. -/
inductive EdgeEvent where
  /-- `eee->sock` is readable -/
  | external (f : Fetch)
  /-- the multicast socket is readable -/
  | multicast (f : Fetch)
  /-- packets from the TAP device, timers, the management port -/
  | other (ops : List TransportOp)

/-- One step of the loop. -/
def EdgeLoop.step (s : EdgeLoop) : EdgeEvent → EdgeLoop
  | .external f =>
    match fetchAndEventuallyProcessData s s.eee.sock f with
    | (s', true) => s'.checkCounters
    | (s', false) => { s' with keepRunning := false }
  | .multicast f =>
    match fetchAndEventuallyProcessData s s.eee.udpMulticastSock f with
    | (s', true) => s'
    | (s', false) => { s' with keepRunning := false }
  | .other ops => { s with eee := applyOps s.eee ops }

/-- `recvfrom` returns at most the bytes it was asked for, and `process_udp` stays
in the packet it was given. -/
def EdgeLoop.FetchPossible (s : EdgeLoop) (sock : ℤ) (f : Fetch) : Prop :=
  ∀ bread errno, f.recv = .data bread errno →
    if readsTcp s.eee sock then
      bread.length ≤ s.request ∧
        ∀ a p, s.toReassembly.advance pktBufSize bread = (a, .packet p) → f.left.length = p.length
    else bread.length ≤ pktBufSize ∧ f.left.length = bread.length

/-- The events that are possible in a state. -/
def EdgeLoop.Enabled (s : EdgeLoop) : EdgeEvent → Prop
  | .external f => s.keepRunning ∧ 0 ≤ s.eee.sock ∧ s.FetchPossible s.eee.sock f
  | .multicast f => s.keepRunning ∧ s.FetchPossible s.eee.udpMulticastSock f
  | .other _ => s.keepRunning

/-- The loop as it starts, over any state of the transports. -/
def EdgeLoop.Initial (s : EdgeLoop) : Prop :=
  s.expected = 2 ∧ s.position = 0 ∧ s.buffer.length = tcpBufferSize ∧
    (∀ k, s.log k = .empty) ∧ s.datagrams = [] ∧ s.handedDatagrams = []

/-- The runs of `run_edge_loop`. -/
def edgeLoopMachine : Machine EdgeLoop EdgeEvent :=
  ⟨EdgeLoop.Initial, EdgeLoop.Enabled, EdgeLoop.step⟩

/-! ### What is required -/

/-- The packets handed over are the frames of the stream, each once and in order,
up to what is incomplete; the edge gives a stream up only for a length that is 0
or does not fit. -/
def StreamLog.Ok (l : StreamLog) : Prop :=
  ∃ rest, CutFrames l.received l.handed rest ∧ PendingFrame rest ∧
    (l.dropped → 2 ≤ rest.length ∧ ¬ lengthOk (be16Framing.declared rest))

/-- What is required of every state of the loop. -/
structure EdgeReassemblyOk (s : EdgeLoop) : Prop where
  inBounds : s.position ≤ s.expected ∧ s.expected.toNat ≤ pktBufSize
  streams : ∀ k, (s.log k).Ok
  /-- in particular, complete frames that have come in are handed over -/
  complete : ∀ k ps t, CutFrames (s.log k).received ps t → ps <+: (s.log k).handed
  datagrams : s.handedDatagrams.Sublist s.datagrams

/-! ### The condition on a step -/

/-- The counters are those of a frame boundary. -/
def EdgeLoop.AtBoundary (s : EdgeLoop) : Prop := s.expected = 2 ∧ s.position = 0

/-- On the way to `eee'` no TCP connection is opened, or the last frame was
complete. -/
def EdgeLoop.OpensAtBoundary (s : EdgeLoop) (eee' : EdgeTransport) : Prop :=
  eee'.tcpOpened = s.eee.tcpOpened ∨ s.AtBoundary

/-- A length that the read of `bread` completes is that of an acceptable frame.  In
forced-TCP mode a frame must be shorter than the buffer by one byte more, and a
length that does not fit is dealt with unless it wraps. -/
def EdgeLoop.LengthStepOk (s : EdgeLoop) (bread : List UInt8) : Prop :=
  let header := s.buffer.take s.position.toNat ++ bread
  s.position.toNat < 2 → header.length = 2 →
    (lengthOk (be16Framing.declared header) ∧
      (s.eee.connectTcp → be16Framing.declared header + 2 < pktBufSize)) ∨
    (s.eee.connectTcp ∧ pktBufSize < be16Framing.declared header + 2 ∧
      be16Framing.declared header < 65534)

/-- The condition on a read of `sock`: a datagram is not read while the current
connection has a partial frame in the buffer. -/
def EdgeLoop.FetchOk (s : EdgeLoop) (sock : ℤ) (f : Fetch) : Prop :=
  ∀ bread errno, f.recv = .data bread errno →
    if readsTcp s.eee sock then s.LengthStepOk bread
    else (0 ≤ s.eee.tcpSock → s.position = 0) ∧
      s.OpensAtBoundary (s.fetchDatagram sock bread f).eee

/-- The condition on a step. -/
def EdgeStepOk (s : EdgeLoop) : EdgeEvent → Prop
  | .external f => s.FetchOk s.eee.sock f
  | .multicast f => s.FetchOk s.eee.udpMulticastSock f
  | .other ops => s.OpensAtBoundary (applyOps s.eee ops)

/-! ### The invariant -/

theorem StreamLog.empty_ok : StreamLog.empty.Ok :=
  ⟨[], .nil [], Framing.short_nil.pending lengthOk_lt, by simp [StreamLog.empty]⟩

/-- The loop holds `rest`, the beginning of the next frame of the connection. -/
structure EdgeLoop.Current (s : EdgeLoop) (rest : List UInt8) : Prop where
  cut : CutFrames (s.log s.eee.tcpOpened).received (s.log s.eee.tcpOpened).handed rest
  short : ShortFrame rest
  holds : s.Holds rest
  dropped : (s.log s.eee.tcpOpened).dropped = false

/-- The invariant of the loop.  Once a connection is closed nothing is said about
the partial frame in the buffer. -/
structure EdgeInv (s : EdgeLoop) : Prop where
  inBounds : s.position ≤ s.expected ∧ s.expected.toNat ≤ pktBufSize
  forced : s.eee.connectTcp = true → s.expected.toNat < pktBufSize
  size : s.buffer.length = tcpBufferSize
  streams : ∀ k, (s.log k).Ok
  datagrams : s.handedDatagrams.Sublist s.datagrams
  fresh : ∀ k, s.eee.tcpOpened < k → s.log k = .empty
  current : 0 ≤ s.eee.tcpSock → ∃ rest, s.Current rest

theorem EdgeInv.checkCounters {s : EdgeLoop} (h : EdgeInv s) : s.checkCounters = s := by
  unfold EdgeLoop.checkCounters
  apply if_neg
  intro hc
  rw [Bool.and_eq_true, Bool.or_eq_true, decide_eq_true_eq, decide_eq_true_eq] at hc
  have hlt := h.forced hc.1
  have hle := UInt16.le_iff_toNat_le.mp h.inBounds.1
  omega

/-- What leaves the counters and the streams alone keeps the invariant, if it
respects a partial frame: the buffer changes at a frame boundary only, and so
does the connection. -/
theorem EdgeInv.of_pair_eq {s s' : EdgeLoop} (h : EdgeInv s) (hkept : TcpKept s.eee s'.eee)
    (hopen : s.OpensAtBoundary s'.eee) (hlog : s'.log = s.log)
    (hexp : s'.expected = s.expected) (hpos : s'.position = s.position)
    (hsize : s'.buffer.length = tcpBufferSize)
    (hbuf : 0 ≤ s.eee.tcpSock → s'.buffer = s.buffer ∨ s.position = 0)
    (hdata : s'.handedDatagrams.Sublist s'.datagrams) : EdgeInv s' where
  inBounds := by
    rw [hexp, hpos]
    exact h.inBounds
  forced := by
    intro hc
    rw [hexp]
    exact h.forced (hkept.connectTcp ▸ hc)
  size := hsize
  streams := by
    rw [hlog]
    exact h.streams
  datagrams := hdata
  fresh := by
    intro k hk
    rw [hlog]
    exact h.fresh k (hkept.opened.trans_lt hk)
  current := by
    intro hsock
    by_cases heq : s'.eee.tcpOpened = s.eee.tcpOpened
    · -- the same connection as before
      obtain ⟨rest, hcur⟩ := h.current (hkept.sock heq hsock)
      refine ⟨rest, ?_, hcur.short, ?_, ?_⟩
      · rw [hlog, heq]
        exact hcur.cut
      · have hhold := hcur.holds
        refine ⟨hpos ▸ hhold.position, hexp ▸ hhold.expected, ?_, hsize⟩
        rcases hbuf (hkept.sock heq hsock) with hb | hp
        · rw [hb]
          exact hhold.buffer
        · have hlen := hhold.position
          rw [hp] at hlen
          rw [List.length_eq_zero_iff.mp hlen.symm]
          rfl
      · rw [hlog, heq]
        exact hcur.dropped
    · -- a new one, opened at a frame boundary
      obtain ⟨hexp2, hpos0⟩ := hopen.resolve_left heq
      have hnew : s'.log s'.eee.tcpOpened = .empty := by
        rw [hlog]
        exact h.fresh _ (lt_of_le_of_ne hkept.opened (Ne.symm heq))
      refine ⟨[], ?_, Framing.short_nil, ?_, ?_⟩
      · rw [hnew]
        exact .nil []
      · refine ⟨?_, ?_, rfl, hsize⟩
        · rw [hpos, hpos0]
          rfl
        · rw [hexp, hexp2]
          rfl
      · rw [hnew]
        rfl

/-- The counters at a frame boundary are in bounds. -/
theorem boundary_pair : (0 : UInt16) ≤ 2 ∧ (2 : UInt16).toNat < pktBufSize := by decide

/-! ### Datagrams -/

theorem slice_overwrite_zero {buf p : List UInt8} : slice (overwrite buf 0 p) 0 p.length = p := by
  rw [slice_eq_take_drop]
  · simp [overwrite]
  · simp only [overwrite, List.length_append, List.length_take, List.length_drop]
    omega

/-- **A datagram keeps the invariant** if no frame is pending. -/
theorem EdgeInv.fetchDatagram {s : EdgeLoop} (h : EdgeInv s) {sock : ℤ} {bread : List UInt8}
    {f : Fetch} (hlen : bread.length ≤ pktBufSize) (hleft : f.left.length = bread.length)
    (hpos : 0 ≤ s.eee.tcpSock → s.position = 0)
    (hopen : s.OpensAtBoundary (s.fetchDatagram sock bread f).eee) :
    EdgeInv (s.fetchDatagram sock bread f) := by
  have hsize := h.size
  have hbuf : tcpBufferSize = pktBufSize + 2 := rfl
  have hover : (overwrite s.buffer 0 bread).length = tcpBufferSize := by
    rw [length_overwrite (by omega), hsize]
  have hover' : (overwrite (overwrite s.buffer 0 bread) 0 f.left).length = tcpBufferSize := by
    rw [length_overwrite (by omega), hover]
  have hrecord : s.handedDatagrams.Sublist (s.datagrams ++ [bread]) :=
    h.datagrams.trans (List.sublist_append_left _ _)
  have hand : (s.handedDatagrams ++ [slice (overwrite s.buffer 0 bread) 0 bread.length]).Sublist
      (s.datagrams ++ [bread]) := by
    rw [slice_overwrite_zero]
    exact h.datagrams.append (List.Sublist.refl _)
  have hcond : 0 ≤ s.eee.tcpSock → ∀ buf : List UInt8, buf = s.buffer ∨ s.position = 0 :=
    fun hs _ => Or.inr (hpos hs)
  unfold EdgeLoop.fetchDatagram at hopen ⊢
  simp only at hopen ⊢
  split
  · exact h.of_pair_eq (.refl _) (Or.inl rfl) rfl rfl rfl hover (fun hs => hcond hs _) hrecord
  · next hne =>
    rw [if_neg hne] at hopen
    split
    · next hudp =>
      rw [if_pos hudp] at hopen
      cases hk : f.kcp with
      | some k =>
        rw [hk] at hopen
        refine h.of_pair_eq ?_ hopen rfl rfl rfl hover (fun hs => hcond hs _) hrecord
        have hmark : TcpKept s.eee (if s.eee.tcpFallbackActive && k.ctrl
            then edgeMarkUdpRecovered s.eee else s.eee) :=
          .ite tcpKept_markUdpRecovered (.refl _)
        exact hmark.trans (tcpKept_applyOps f.ops)
      | none =>
        rw [hk] at hopen
        exact h.of_pair_eq (tcpKept_applyOps f.ops) hopen rfl rfl rfl hover'
          (fun hs => hcond hs _) hand
    · next hudp =>
      rw [if_neg hudp] at hopen
      exact h.of_pair_eq (tcpKept_applyOps f.ops) hopen rfl rfl rfl hover'
        (fun hs => hcond hs _) hand

/-! ### The stream -/

/-- **A failed read keeps the invariant**: the connection is closed. -/
theorem EdgeInv.fetchFailed {s : EdgeLoop} (h : EdgeInv s) : EdgeInv s.fetchFailed := by
  have hkept : TcpKept s.eee s.fetchFailed.eee :=
    (tcpKept_disconnectTcp.trans tcpKept_release).trans (.of_eq rfl rfl rfl)
  have hopened : s.fetchFailed.eee.tcpOpened = s.eee.tcpOpened := by
    simp only [EdgeLoop.fetchFailed, edgeReleaseTcpStickyAfterDisconnect]
    split <;> rfl
  exact h.of_pair_eq hkept (Or.inl hopened) rfl rfl rfl h.size (fun _ => Or.inl rfl) h.datagrams

/-- The record of the current connection may grow. -/
theorem EdgeInv.streams_setLog {s : EdgeLoop} (h : EdgeInv s) {l : StreamLog} (hl : l.Ok) :
    ∀ k, ((s.setLog l).log k).Ok := by
  intro k
  by_cases hk : k = s.eee.tcpOpened
  · rw [hk]
    simpa [EdgeLoop.setLog] using hl
  · simpa [EdgeLoop.setLog, Function.update_of_ne hk] using h.streams k

theorem EdgeInv.fresh_setLog {s : EdgeLoop} (h : EdgeInv s) (l : StreamLog) :
    ∀ k, s.eee.tcpOpened < k → (s.setLog l).log k = .empty := by
  intro k hk
  have hne : (s.setLog l).log k = s.log k := Function.update_of_ne hk.ne' _ _
  rw [hne]
  exact h.fresh k hk

@[simp] theorem setLog_eee (s : EdgeLoop) (l : StreamLog) : (s.setLog l).eee = s.eee := rfl

@[simp] theorem setLog_log_current (s : EdgeLoop) (l : StreamLog) :
    (s.setLog l).log s.eee.tcpOpened = l := by
  simp [EdgeLoop.setLog]

/-- The lengths that a step may complete do not wrap, and leave nothing else to
say about the counters than `Reassembly.Holds` does. -/
theorem EdgeLoop.LengthStepOk.header {s : EdgeLoop} {rest bread : List UInt8}
    (h : s.LengthStepOk bread) (hhold : s.Holds rest) (hrest : rest.length < 2)
    (hlen : (rest ++ bread).length = 2) :
    (lengthOk (be16Framing.declared (rest ++ bread)) ∧
      (s.eee.connectTcp → be16Framing.declared (rest ++ bread) + 2 < pktBufSize)) ∨
    (s.eee.connectTcp ∧ pktBufSize < be16Framing.declared (rest ++ bread) + 2 ∧
      be16Framing.declared (rest ++ bread) < 65534) := by
  have hhead : s.buffer.take s.position.toNat ++ bread = rest ++ bread := by
    rw [hhold.position, hhold.buffer]
  have hstep := h
  unfold EdgeLoop.LengthStepOk at hstep
  rw [hhead, hhold.position] at hstep
  exact hstep hrest hlen

/-- A length that does not fit, in forced-TCP mode: the connection is given up and
the counters are reset. -/
theorem EdgeInv.fetchStream_tooLong {s : EdgeLoop} (h : EdgeInv s) {bread : List UInt8} {f : Fetch}
    {a' : Reassembly} (hadv : s.toReassembly.advance pktBufSize bread = (a', .tooLong))
    (hsize : a'.buffer.length = tcpBufferSize) (hexp : pktBufSize ≤ a'.expected.toNat)
    (hforced : s.eee.connectTcp = true)
    (hlog : StreamLog.Ok ⟨(s.log s.eee.tcpOpened).received ++ bread,
      (s.log s.eee.tcpOpened).handed, true⟩) :
    EdgeInv (s.fetchStream bread f).checkCounters := by
  have hrelease : edgeReleaseTcpStickyAfterDisconnect (supernodeDisconnect s.eee) =
      supernodeDisconnect s.eee := by
    unfold edgeReleaseTcpStickyAfterDisconnect
    exact if_pos (by rw [show (supernodeDisconnect s.eee).connectTcp = true from hforced]; rfl)
  have hcheck : (s.fetchStream bread f).checkCounters =
      { s.setLog ⟨(s.log s.eee.tcpOpened).received ++ bread,
          (s.log s.eee.tcpOpened).handed, true⟩ with
        toReassembly := ⟨2, 0, a'.buffer⟩
        eee := { supernodeDisconnect { supernodeDisconnect s.eee with snWait := 1 } with
          snWait := 1 } } := by
    simp only [EdgeLoop.fetchStream, hadv, hrelease]
    unfold EdgeLoop.checkCounters
    rw [if_pos]
    · simp only [EdgeLoop.setLog, supernodeDisconnect, supernodeDisconnectTcp,
        supernodeDisconnectUdp, edgeResetSupernodeKcpState, Function.update_self,
        Function.update_idem, Bool.true_or]
    · have hc : (supernodeDisconnect s.eee).connectTcp = true := hforced
      simp only [hc, decide_eq_true hexp, Bool.true_or, Bool.and_true]
  rw [hcheck]
  refine ⟨⟨boundary_pair.1, boundary_pair.2.le⟩, fun _ => boundary_pair.2, hsize,
      h.streams_setLog hlog, h.datagrams,
    h.fresh_setLog _, ?_⟩
  intro hsock
  have hclosed : (supernodeDisconnectTcp { supernodeDisconnect s.eee with snWait := 1 }).tcpSock
      < 0 := supernodeDisconnectTcp_tcpSock
  exact absurd hsock (not_le.mpr hclosed)

/-- **Bytes of the stream keep the invariant**, with the test in forced-TCP mode
after them. -/
theorem EdgeInv.fetchStream {s : EdgeLoop} (h : EdgeInv s) {bread : List UInt8} {f : Fetch}
    (hsock : 0 ≤ s.eee.tcpSock) (hle : bread.length ≤ s.request)
    (hleft : ∀ a p, s.toReassembly.advance pktBufSize bread = (a, .packet p) →
      f.left.length = p.length)
    (hstep : s.LengthStepOk bread) : EdgeInv (s.fetchStream bread f).checkCounters := by
  obtain ⟨rest, hcur⟩ := h.current hsock
  have hhold := hcur.holds
  have hmax : pktBufSize = 4096 := rfl
  have hsum : (rest ++ bread).length = rest.length + bread.length := List.length_append
  rw [(hhold.request hcur.short).1] at hle
  have hcut := hcur.cut.append bread
  -- a header that is complete is completed now or was acceptable before
  have hheader : 2 ≤ (rest ++ bread).length →
      (lengthOk (be16Framing.declared (rest ++ bread)) ∧
        (s.eee.connectTcp → be16Framing.declared (rest ++ bread) + 2 < pktBufSize)) ∨
      ((rest ++ bread).length = 2 ∧ s.eee.connectTcp ∧
        pktBufSize < be16Framing.declared (rest ++ bread) + 2 ∧
        be16Framing.declared (rest ++ bread) < 65534) := by
    intro hge
    by_cases hrest : rest.length < 2
    · rw [Framing.want, be16Framing_width, if_pos hrest] at hle
      have hlen : (rest ++ bread).length = 2 := by omega
      rcases hstep.header hhold hrest hlen with hok | hbig
      · exact Or.inl hok
      · exact Or.inr ⟨hlen, hbig⟩
    · have hdecl : be16Framing.declared (rest ++ bread) = be16Framing.declared rest :=
        Framing.declared_append (by rw [be16Framing_width]; omega)
      rcases hcur.short with hlt | ⟨hok, -, -⟩
      · exact absurd hlt hrest
      · rw [hdecl]
        refine Or.inl ⟨hok, ?_⟩
        intro hc
        have hforced := h.forced hc
        rw [hhold.expected, if_neg hrest] at hforced
        omega
  have hwrap : 2 ≤ (rest ++ bread).length → be16Framing.declared (rest ++ bread) < 65534 := by
    intro hge
    rcases hheader hge with ⟨hok, -⟩ | ⟨-, -, -, hlt⟩
    · have := hok.2
      omega
    · exact hlt
  rcases hhold.advance hcur.short hle hwrap with ⟨a', hadv, hholds', hs'⟩ |
    ⟨a', hadv, hholds', hlen', hzero⟩ | ⟨a', hadv, hholds', hlen', hbig⟩ |
    ⟨a', p, hadv, hsize', hframe, hok⟩
  · -- more of the frame
    have hinv : EdgeInv (s.fetchStream bread f) := by
      simp only [EdgeLoop.fetchStream, hadv]
      have hreq := hholds'.request hs'
      refine ⟨hreq.2, ?_, hholds'.size,
        h.streams_setLog ⟨rest ++ bread, hcut, hs'.pending lengthOk_lt, ?_⟩,
        h.datagrams, h.fresh_setLog _, fun _ => ⟨rest ++ bread, ?_, hs', hholds', ?_⟩⟩
      · intro hc
        change a'.expected.toNat < pktBufSize
        rw [hholds'.expected]
        by_cases hlt : (rest ++ bread).length < 2
        · rw [if_pos hlt]
          omega
        · rw [if_neg hlt]
          rcases hheader (by omega) with ⟨-, hforced⟩ | ⟨-, -, hbig, -⟩
          · have := hforced hc
            omega
          · rcases hs' with hlt' | ⟨hok, -, -⟩
            · exact absurd hlt' hlt
            · have := hok.2
              omega
      · intro hd
        simp [hcur.dropped] at hd
      · simpa using hcut
      · simpa using hcur.dropped
    rw [hinv.checkCounters]
    exact hinv
  · -- a length of 0 is excluded
    rcases hheader hlen'.ge with ⟨hok, -⟩ | ⟨-, -, hbig, -⟩
    · have := hok.1
      omega
    · omega
  · -- too long: only in forced-TCP mode, where the counters are reset
    have hforced : s.eee.connectTcp = true := by
      rcases hheader hlen'.ge with ⟨hok, -⟩ | ⟨-, hc, -, -⟩
      · have := hok.2
        omega
      · exact hc
    have hbad : ¬ lengthOk (be16Framing.declared (rest ++ bread)) := by
      intro hok
      have := hok.2
      omega
    have hexp : pktBufSize ≤ a'.expected.toNat := by
      rw [hholds'.expected, hlen', if_neg (by decide)]
      omega
    exact h.fetchStream_tooLong hadv hholds'.size hexp hforced
      ⟨rest ++ bread, hcut, Framing.pending_of_not_ok lengthOk_lt hbad, fun _ => ⟨hlen'.ge, hbad⟩⟩
  · -- a packet
    have hinv : EdgeInv (s.fetchStream bread f) := by
      simp only [EdgeLoop.fetchStream, hadv]
      rw [hframe, ← List.append_nil (be16Framing.frame p)] at hcut
      have hcut' := hcut.snoc hok
      have hsize := Reassembly.length_reset_buffer hsize' (hleft a' p hadv) hok
      have hkept : TcpKept s.eee (applyOps s.eee f.ops) := tcpKept_applyOps f.ops
      refine ⟨⟨boundary_pair.1, boundary_pair.2.le⟩, fun _ => boundary_pair.2, hsize,
        h.streams_setLog ⟨[], hcut', Framing.short_nil.pending lengthOk_lt, ?_⟩, h.datagrams,
        fun k hk => h.fresh_setLog _ k (hkept.opened.trans_lt hk), ?_⟩
      · intro hd
        simp [hcur.dropped] at hd
      · intro hsock'
        by_cases heq : (applyOps s.eee f.ops).tcpOpened = s.eee.tcpOpened
        · refine ⟨[], ?_, Framing.short_nil, .nil hsize, ?_⟩
          · simp only [heq, setLog_log_current]
            exact hcut'
          · simp only [heq, setLog_log_current]
            exact hcur.dropped
        · -- `process_udp` has opened a new connection
          have hnew := h.fresh_setLog
            ⟨(s.log s.eee.tcpOpened).received ++ bread, (s.log s.eee.tcpOpened).handed ++ [p],
              (s.log s.eee.tcpOpened).dropped⟩ _ (lt_of_le_of_ne hkept.opened (Ne.symm heq))
          refine ⟨[], ?_, Framing.short_nil, .nil hsize, ?_⟩
          · simp only [hnew]
            exact .nil []
          · simp only [hnew]
            rfl
    rw [hinv.checkCounters]
    exact hinv

/-! ### Whole runs -/

theorem EdgeInv.stop {s : EdgeLoop} (h : EdgeInv s) : EdgeInv { s with keepRunning := false } :=
  ⟨h.inBounds, h.forced, h.size, h.streams, h.datagrams, h.fresh, fun hsock =>
    (h.current hsock).imp fun _ hcur => ⟨hcur.cut, hcur.short, hcur.holds, hcur.dropped⟩⟩

theorem EdgeLoop.Initial.inv {s : EdgeLoop} (h : s.Initial) : EdgeInv s := by
  obtain ⟨hexp, hpos, hsize, hlog, hdata, hhanded⟩ := h
  refine ⟨?_, ?_, hsize, ?_, ?_, fun k _ => hlog k, ?_⟩
  · rw [hexp, hpos]
    exact ⟨boundary_pair.1, boundary_pair.2.le⟩
  · intro _
    rw [hexp]
    exact boundary_pair.2
  · intro k
    rw [hlog k]
    exact StreamLog.empty_ok
  · rw [hdata, hhanded]
  · intro _
    refine ⟨[], ?_, Framing.short_nil, ⟨?_, ?_, rfl, hsize⟩, ?_⟩
    · rw [hlog]
      exact .nil []
    · rw [hpos]
      rfl
    · rw [hexp]
      rfl
    · rw [hlog]
      rfl

/-- A read of a socket that is not the TCP connection. -/
theorem EdgeInv.fetch_udp {s : EdgeLoop} (h : EdgeInv s) {sock : ℤ} {f : Fetch}
    (htcp : readsTcp s.eee sock = false) (hen : s.FetchPossible sock f) (hok : s.FetchOk sock f) :
    EdgeInv (fetchAndEventuallyProcessData s sock f).1 := by
  unfold fetchAndEventuallyProcessData
  rw [if_neg (by simp [htcp])]
  cases hrecv : f.recv with
  | error => exact h
  | data bread errno =>
    have hen' := hen bread errno hrecv
    have hok' := hok bread errno hrecv
    rw [if_neg (by simp [htcp])] at hen' hok'
    exact h.fetchDatagram hen'.1 hen'.2 hok'.1 hok'.2

/-- A read of the TCP connection, with the test after it. -/
theorem EdgeInv.fetch_tcp {s : EdgeLoop} (h : EdgeInv s) {sock : ℤ} {f : Fetch}
    (htcp : readsTcp s.eee sock = true) (hen : s.FetchPossible sock f) (hok : s.FetchOk sock f) :
    ∃ s', fetchAndEventuallyProcessData s sock f = (s', true) ∧ EdgeInv s'.checkCounters := by
  have hfail : EdgeInv s.fetchFailed.checkCounters := by
    rw [h.fetchFailed.checkCounters]
    exact h.fetchFailed
  have hsock : 0 ≤ s.eee.tcpSock := by
    simp only [readsTcp, Bool.not_eq_true', Bool.or_eq_false_iff, decide_eq_false_iff_not] at htcp
    omega
  unfold fetchAndEventuallyProcessData
  rw [if_pos htcp]
  cases hrecv : f.recv with
  | error => exact ⟨_, rfl, hfail⟩
  | data bread errno =>
    have hen' := hen bread errno hrecv
    have hok' := hok bread errno hrecv
    rw [if_pos htcp] at hen' hok'
    by_cases hzero : (decide (bread = []) && errno) = true
    · exact ⟨_, if_pos hzero, hfail⟩
    · exact ⟨_, if_neg hzero, h.fetchStream hsock hen'.1 hen'.2 hok'⟩

/-- **One step keeps the invariant.** -/
theorem EdgeInv.step {s : EdgeLoop} {e : EdgeEvent} (h : EdgeInv s) (hen : s.Enabled e)
    (hok : EdgeStepOk s e) : EdgeInv (s.step e) := by
  cases e with
  | external f =>
    simp only [EdgeLoop.step]
    cases htcp : readsTcp s.eee s.eee.sock with
    | true =>
      obtain ⟨s', hfetch, hinv⟩ := h.fetch_tcp htcp hen.2.2 hok
      rw [hfetch]
      exact hinv
    | false =>
      have hinv := h.fetch_udp htcp hen.2.2 hok
      generalize fetchAndEventuallyProcessData s s.eee.sock f = r at hinv ⊢
      obtain ⟨s', ok⟩ := r
      have hinv' : EdgeInv s' := hinv
      cases ok with
      | true =>
        change EdgeInv s'.checkCounters
        rw [hinv'.checkCounters]
        exact hinv'
      | false => exact hinv'.stop
  | multicast f =>
    have htcp : readsTcp s.eee s.eee.udpMulticastSock = false := by simp [readsTcp]
    have hinv := h.fetch_udp htcp hen.2 hok
    simp only [EdgeLoop.step]
    generalize fetchAndEventuallyProcessData s s.eee.udpMulticastSock f = r at hinv ⊢
    obtain ⟨s', ok⟩ := r
    cases ok with
    | true => exact hinv
    | false => exact hinv.stop
  | other ops =>
    exact h.of_pair_eq (tcpKept_applyOps ops) hok rfl rfl rfl h.size (fun _ => Or.inl rfl)
      h.datagrams

/-- **In every run whose steps respect partial frames, the edge reassembles every
stream correctly**, in every state of the run. -/
theorem edgeReassemblyOk_of_reach {s : EdgeLoop} (h : edgeLoopMachine.Reach EdgeStepOk s) :
    EdgeReassemblyOk s := by
  have hinv : EdgeInv s := h.invariant (fun _ => EdgeLoop.Initial.inv)
    (fun _ _ hinv hen hok => hinv.step hen hok)
  refine ⟨hinv.inBounds, hinv.streams, ?_, hinv.datagrams⟩
  intro k ps t hps
  obtain ⟨rest, hcut, hpend, -⟩ := hinv.streams k
  exact hps.first_frames lengthOk_lt hcut hpend

/-- An edge in TCP fallback: UDP on descriptor 4, TCP on 5, multicast on 6. -/
def fallbackEdge : EdgeTransport where
  connectTcp := false
  allowTcpFallback := true
  currSnSock := Sock.zero
  sock := 5
  udpSock := 4
  tcpSock := 5
  udpMulticastSock := 6
  tcpSnSock := Sock.zero
  tcpSnSockValid := true
  activeSnTransport := .tcp
  tcpFallbackActive := true
  tcpStickyAfterFallback := true
  kcpProbePending := false
  kcpProbeCookie := 0
  lastKcpProbe := 0
  registerFastRetryCount := 0
  tcpRegisterSoftRetryBudget := 2
  registerSuperSoftRetryArmed := false
  registerSuperRequestActive := false
  registerSuperCookie := 0
  registerSuperAuth := Auth.zero
  sendingRegisterSuper := false
  sendingSupernodeControl := false
  lastRegisterReqMs := 0
  snWait := 0
  supAttempts := 1
  snKcpCtrl := .term
  snKcpData := .term
  snKcpCtrlConfirmed := false
  snKcpDataConfirmed := false
  tcpOpened := 1

/-- The loop of `fallbackEdge` as it starts. -/
def fallbackLoop : EdgeLoop :=
  ⟨⟨2, 0, List.replicate tcpBufferSize 0⟩, fallbackEdge, true, fun _ => .empty, [], [], []⟩

theorem fallbackLoop_initial : fallbackLoop.Initial :=
  ⟨rfl, rfl, List.length_replicate, fun _ => rfl, rfl, rfl⟩

/-- A read of `bread` by which `process_udp` does nothing to the transports. -/
def plainFetch (bread left : List UInt8) : Fetch := ⟨.data bread false, none, [], left⟩

/-- Such a read of the TCP connection is possible. -/
theorem plainFetch_possible {s : EdgeLoop} {bread left : List UInt8}
    (htcp : readsTcp s.eee s.eee.sock = true) (hle : bread.length ≤ s.request)
    (hleft : ∀ p, (s.toReassembly.advance pktBufSize bread).2 = .packet p →
      left.length = p.length) : s.FetchPossible s.eee.sock (plainFetch bread left) := by
  intro bread' errno hrecv
  cases hrecv
  rw [if_pos htcp]
  exact ⟨hle, fun a p hadv => hleft p (by rw [hadv])⟩

/-- The state after the length 3 and one byte of the frame. -/
def partialLoop : EdgeLoop :=
  (fallbackLoop.step (.external (plainFetch [0, 3] []))).step (.external (plainFetch [7] []))

/-- One more step of a run. -/
theorem edgeLoop_reach_step {s : EdgeLoop} {cond : EdgeLoop → EdgeEvent → Prop} (e : EdgeEvent)
    (h : edgeLoopMachine.Reach cond s) (hen : s.Enabled e) (hcond : cond s e) :
    edgeLoopMachine.Reach cond (s.step e) :=
  Machine.Reach.step (M := edgeLoopMachine) e h hen hcond

theorem partialLoop_reach : edgeLoopMachine.Reach EdgeStepOk partialLoop := by
  refine edgeLoop_reach_step _ (edgeLoop_reach_step _ (.init fallbackLoop_initial) ?_ ?_) ?_ ?_
  · refine ⟨rfl, by decide, plainFetch_possible (by decide) (by decide) ?_⟩
    intro p hp
    cases hp
  · intro bread errno hrecv
    cases hrecv
    exact fun _ _ => Or.inl ⟨by decide, by decide⟩
  · refine ⟨rfl, by decide, plainFetch_possible (by decide) (by decide) ?_⟩
    intro p hp
    cases hp
  · intro bread errno hrecv
    cases hrecv
    intro hpos
    exact absurd hpos (by decide)

/-- The frame is handed over when the rest of it comes in. -/
theorem edgeReassemblyOk_partialLoop :
    EdgeReassemblyOk (partialLoop.step (.external (plainFetch [8, 9] [0, 0, 0]))) ∧
      ((partialLoop.step (.external (plainFetch [8, 9] [0, 0, 0]))).log 1).handed =
        [[7, 8, 9]] := by
  refine ⟨edgeReassemblyOk_of_reach (edgeLoop_reach_step _ partialLoop_reach ?_ ?_), by decide⟩
  · refine ⟨rfl, by decide, plainFetch_possible (by decide) (by decide) ?_⟩
    intro p hp
    cases hp
    rfl
  · intro bread errno hrecv
    cases hrecv
    intro hpos
    exact absurd hpos (by decide)

/-- A multicast datagram that comes in after `[0, 3, 7]` is written over the byte
`7` of the frame. -/
theorem not_edgeReassemblyOk_multicast :
    ¬ ∀ s, edgeLoopMachine.Reach anyStep s → EdgeReassemblyOk s := by
  intro h
  have h₁ : edgeLoopMachine.Reach anyStep partialLoop :=
    partialLoop_reach.mono fun _ _ _ => trivial
  have h₂ := edgeLoop_reach_step (.multicast (plainFetch [1, 1, 1] [1, 1, 1])) h₁
    ⟨rfl, by
      intro bread errno hrecv
      cases hrecv
      exact ⟨by decide, rfl⟩⟩ trivial
  have h₃ := edgeLoop_reach_step (.external (plainFetch [8, 9] [0, 0, 0])) h₂
    ⟨rfl, by decide, plainFetch_possible (by decide) (by decide) (by
      intro p hp
      cases hp
      rfl)⟩ trivial
  obtain ⟨rest, hcut, -, -⟩ := (h _ h₃).streams 1
  have heq : ([0, 3, 7, 8, 9] : List UInt8) = [0, 3, 1, 8, 9] ++ rest := hcut.eq
  simp at heq

end N2n
