import N2nTun.Reassembly

/-!
# The supernode's reading side of TCP

`run_sn_loop` reads every accepted connection through its own buffer and
counters, closes it on a failed read or an overlong frame, and hands complete
packets to `process_udp`.

## Main definitions

* `TcpConnection`, `TcpConnection.recv` — a connection and what one `recvfrom`
  makes of it.
* `TcpReach` — the states of a connection, with the bytes it has received and
  the packets it has handed to `process_udp`.
* `ReassemblyOk` — what is required of them.

## Main results

* `reassemblyOk_of_noWrap` — **the reassembly is correct on every stream whose
  first ill-formed length is not one of the two that wrap.**
-/

namespace N2n

open Bytes Frames

/-- `n2n_tcp_connection_t`. -/
structure TcpConnection extends Reassembly where
  socketFd : ℤ
  sock : Sock
  inactive : Bool
  deriving DecidableEq

namespace TcpConnection

/-- A connection as `accept` leaves it. -/
def accepted (socketFd : ℤ) (sock : Sock) : TcpConnection :=
  ⟨⟨2, 0, List.replicate tcpBufferSize 0⟩, socketFd, sock, false⟩

/-- What `run_sn_loop` does after a read. -/
inductive Read where
  /-- `close_tcp_connection` -/
  | close
  | wait
  /-- `process_udp` on these bytes -/
  | packet (udpBuf : List UInt8)
  deriving DecidableEq

/-- One read of `run_sn_loop`.  The empty list stands for `bread <= 0`. -/
def recv (conn : TcpConnection) (bread : List UInt8) : TcpConnection × Read :=
  if bread = [] then (conn, .close)
  else
    match conn.toReassembly.advance snPktbufSize bread with
    | (a, .wait) => ({ conn with toReassembly := a }, .wait)
    | (a, .tooLong) => ({ conn with toReassembly := a }, .close)
    | (a, .packet udpBuf) => ({ conn with toReassembly := a }, .packet udpBuf)

/-- The connection after `process_udp` has worked on its buffer. -/
def reset (conn : TcpConnection) (left : List UInt8) : TcpConnection :=
  { conn with toReassembly := conn.toReassembly.reset left }

/-- What `close_tcp_connection` does to the connection itself. -/
def close (conn : TcpConnection) : TcpConnection := { conn with inactive := true }

end TcpConnection

/-- The states an accepted connection goes through: `TcpReach received handed conn`
after `received` has come in, in whatever pieces, and `handed` has gone to
`process_udp`.  The kernel returns at most the bytes it was asked for. -/
inductive TcpReach : List UInt8 → List (List UInt8) → TcpConnection → Prop
  | accept (socketFd : ℤ) (sock : Sock) : TcpReach [] [] (.accepted socketFd sock)
  | wait {received handed conn conn'} (bread : List UInt8) (h : TcpReach received handed conn)
      (hact : conn.inactive = false) (hle : bread.length ≤ conn.request)
      (hrecv : conn.recv bread = (conn', .wait)) : TcpReach (received ++ bread) handed conn'
  | packet {received handed conn conn'} {udpBuf : List UInt8} (bread left : List UInt8)
      (h : TcpReach received handed conn) (hact : conn.inactive = false)
      (hle : bread.length ≤ conn.request) (hrecv : conn.recv bread = (conn', .packet udpBuf))
      (hleft : left.length = udpBuf.length) :
      TcpReach (received ++ bread) (handed ++ [udpBuf]) (conn'.reset left)
  | close {received handed conn conn'} (bread : List UInt8) (h : TcpReach received handed conn)
      (hact : conn.inactive = false) (hle : bread.length ≤ conn.request)
      (hrecv : conn.recv bread = (conn', .close)) :
      TcpReach (received ++ bread) handed conn'.close
  /-- closed from elsewhere: a failed send, a purged peer, a shutdown -/
  | closed {received handed conn} (h : TcpReach received handed conn) :
      TcpReach received handed conn.close

/-- What is required of a connection that has received `received` and handed over
`handed`. -/
structure ReassemblyOk (received : List UInt8) (handed : List (List UInt8))
    (conn : TcpConnection) : Prop where
  /-- the next request does not wrap and stays in the buffer -/
  inBounds : conn.inactive = false →
    conn.position ≤ conn.expected ∧ conn.expected.toNat ≤ snPktbufSize
  /-- nothing has been written past the buffer -/
  buffer : conn.buffer.length = tcpBufferSize
  /-- the packets are the frames of the stream up to the first ill-formed one, on
  which the connection is closed, at the latest by the next read -/
  frames : ∃ rest, CutFrames received handed rest ∧ PendingFrame rest ∧
    (2 ≤ rest.length → ¬ lengthOk (be16Framing.declared rest) → conn.inactive = false →
      ∀ bread, bread.length ≤ conn.request → (conn.recv bread).2 = .close)
  /-- in particular, complete frames at the front of the stream are handed over -/
  complete : ∀ ps t, CutFrames received ps t → ps <+: handed

/-- On the stream `received` no frame that follows well-formed ones declares a
length of 65534 or 65535. -/
def NoWrap (received : List UInt8) : Prop :=
  ∀ ps rest, CutFrames received ps rest → 2 ≤ rest.length →
    be16Framing.declared rest < 65534

theorem NoWrap.of_append {s t : List UInt8} (h : NoWrap (s ++ t)) : NoWrap s := by
  intro ps rest hcut hlen
  have hlt := h ps (rest ++ t) (hcut.append t) (by rw [List.length_append]; omega)
  rwa [Framing.declared_append hlen] at hlt

/-! ### The invariant of a connection -/

theorem snPktbufSize_eq : snPktbufSize = pktBufSize := rfl

/-- The state of a connection relative to its stream: a short rest, a header that
declares 0, or closed. -/
def TcpInv (received : List UInt8) (handed : List (List UInt8)) (conn : TcpConnection) : Prop :=
  conn.buffer.length = tcpBufferSize ∧
    ∃ rest, CutFrames received handed rest ∧ PendingFrame rest ∧
      (conn.inactive = false → conn.Holds rest ∧
        (ShortFrame rest ∨ (rest.length = 2 ∧ be16Framing.declared rest = 0)))

theorem TcpInv.close {received handed conn} (h : TcpInv received handed conn) :
    TcpInv received handed conn.close := by
  obtain ⟨hsize, rest, hcut, hpend, -⟩ := h
  refine ⟨hsize, rest, hcut, hpend, ?_⟩
  intro hact
  simp [TcpConnection.close] at hact

/-- **One read keeps the invariant.** -/
theorem TcpInv.recv {received handed conn} {bread : List UInt8} (h : TcpInv received handed conn)
    (hact : conn.inactive = false) (hle : bread.length ≤ conn.request)
    (hwrap : NoWrap (received ++ bread)) :
    match (conn.recv bread).2 with
    | .wait => TcpInv (received ++ bread) handed (conn.recv bread).1
    | .close => TcpInv (received ++ bread) handed (conn.recv bread).1.close
    | .packet p => ∀ left : List UInt8, left.length = p.length →
        TcpInv (received ++ bread) (handed ++ [p]) ((conn.recv bread).1.reset left) := by
  have hinv := h
  obtain ⟨hsize, rest, hcut, hpend, hstate⟩ := h
  obtain ⟨hholds, hrest⟩ := hstate hact
  have hcut' := hcut.append bread
  by_cases hne : bread = []
  · -- `bread <= 0` closes the connection
    subst hne
    have hrecv : conn.recv [] = (conn, .close) := if_pos rfl
    rw [hrecv, List.append_nil]
    exact hinv.close
  rcases hrest with hs | ⟨hlen, hzero⟩
  · rw [(hholds.request hs).1] at hle
    rcases hholds.advance hs hle (hwrap handed _ hcut') with ⟨a', hadv, hholds', hs'⟩ |
      ⟨a', hadv, hholds', hlen', hzero⟩ | ⟨a', hadv, hholds', hlen', hbig⟩ |
      ⟨a', p, hadv, hsize', hframe, hok⟩
    · have hrecv : conn.recv bread = ({ conn with toReassembly := a' }, .wait) := by
        rw [TcpConnection.recv, if_neg hne, snPktbufSize_eq, hadv]
      rw [hrecv]
      exact ⟨hholds'.size, rest ++ bread, hcut', hs'.pending lengthOk_lt,
        fun _ => ⟨hholds', Or.inl hs'⟩⟩
    · have hrecv : conn.recv bread = ({ conn with toReassembly := a' }, .wait) := by
        rw [TcpConnection.recv, if_neg hne, snPktbufSize_eq, hadv]
      rw [hrecv]
      refine ⟨hholds'.size, rest ++ bread, hcut', ?_, fun _ => ⟨hholds', Or.inr ⟨hlen', hzero⟩⟩⟩
      apply Framing.pending_of_not_ok lengthOk_lt
      rw [hzero]
      decide
    · -- too long: closed
      have hrecv : conn.recv bread = ({ conn with toReassembly := a' }, .close) := by
        rw [TcpConnection.recv, if_neg hne, snPktbufSize_eq, hadv]
      rw [hrecv]
      refine ⟨hholds'.size, rest ++ bread, hcut', ?_, ?_⟩
      · apply Framing.pending_of_not_ok lengthOk_lt
        intro hok
        have := hok.2
        omega
      · intro hact'
        simp [TcpConnection.close] at hact'
    · -- a packet
      have hrecv : conn.recv bread = ({ conn with toReassembly := a' }, .packet p) := by
        rw [TcpConnection.recv, if_neg hne, snPktbufSize_eq, hadv]
      rw [hrecv]
      intro left hleft
      rw [hframe, ← List.append_nil (be16Framing.frame p)] at hcut'
      have hsize'' : (a'.reset left).buffer.length = tcpBufferSize :=
        Reassembly.length_reset_buffer hsize' hleft hok
      exact ⟨hsize'', [], by simpa using hcut'.snoc hok, Framing.short_nil.pending lengthOk_lt,
        fun _ => ⟨.nil hsize'', Or.inl Framing.short_nil⟩⟩
  · -- a header that declares 0: nothing was asked for
    rw [(hholds.request_zero hlen hzero).1] at hle
    exact absurd (List.length_eq_zero_iff.mp (Nat.le_zero.mp hle)) hne

/-- **Every state of a connection satisfies the invariant**, as long as no length
wraps. -/
theorem TcpReach.inv {received handed conn} (h : TcpReach received handed conn)
    (hwrap : NoWrap received) : TcpInv received handed conn := by
  induction h with
  | accept socketFd sock =>
    have hsize : (List.replicate tcpBufferSize (0 : UInt8)).length = tcpBufferSize :=
      List.length_replicate
    exact ⟨hsize, [], .nil [], Framing.short_nil.pending lengthOk_lt,
      fun _ => ⟨.nil hsize, Or.inl Framing.short_nil⟩⟩
  | wait _ _ hact hle hrecv ih =>
    have hstep := (ih hwrap.of_append).recv hact hle hwrap
    rw [hrecv] at hstep
    exact hstep
  | packet _ _ _ hact hle hrecv hleft ih =>
    have hstep := (ih hwrap.of_append).recv hact hle hwrap
    rw [hrecv] at hstep
    exact hstep _ hleft
  | close _ _ hact hle hrecv ih =>
    have hstep := (ih hwrap.of_append).recv hact hle hwrap
    rw [hrecv] at hstep
    exact hstep
  | closed _ ih => exact (ih hwrap).close

/-- **The supernode reassembles correctly every stream on which no length wraps
around the 16-bit counter**, in every state of the connection. -/
theorem reassemblyOk_of_noWrap {received : List UInt8} {handed : List (List UInt8)}
    {conn : TcpConnection} (h : TcpReach received handed conn) (hwrap : NoWrap received) :
    ReassemblyOk received handed conn := by
  obtain ⟨hsize, rest, hcut, hpend, hstate⟩ := h.inv hwrap
  refine ⟨?_, hsize, ⟨rest, hcut, hpend, ?_⟩, fun ps t hps =>
    hps.first_frames lengthOk_lt hcut hpend⟩
  · intro hact
    obtain ⟨hholds, hs | ⟨hlen, hzero⟩⟩ := hstate hact
    · exact (hholds.request hs).2
    · obtain ⟨-, heq, hexp⟩ := hholds.request_zero hlen hzero
      rw [heq, hexp]
      exact ⟨UInt16.le_refl _, by decide⟩
  · intro hlen hbad hact bread hle
    obtain ⟨hholds, (hlt | ⟨hok, -, -⟩) | ⟨hlen', hzero⟩⟩ := hstate hact
    · rw [be16Framing_width] at hlt
      omega
    · exact absurd hok hbad
    · -- the request is for 0 bytes, and `recvfrom` returns 0
      rw [(hholds.request_zero hlen' hzero).1] at hle
      rw [List.length_eq_zero_iff.mp (Nat.le_zero.mp hle)]
      rfl

/-- A frame of three bytes that arrives in three pieces. -/
theorem reassemblyOk_three_pieces :
    ∃ conn, TcpReach [0, 3, 7, 8, 9] [[7, 8, 9]] conn ∧
      ReassemblyOk [0, 3, 7, 8, 9] [[7, 8, 9]] conn := by
  have h₁ : TcpReach [0, 3, 7] [] _ := TcpReach.wait [7] (TcpReach.wait [0, 3]
    (.accept 7 Sock.zero) rfl (by decide) rfl) rfl (by decide) rfl
  have h₂ : TcpReach [0, 3, 7, 8, 9] [[7, 8, 9]] _ :=
    TcpReach.packet [8, 9] [0, 0, 0] h₁ rfl (by decide) rfl rfl
  refine ⟨_, h₂, reassemblyOk_of_noWrap h₂ ?_⟩
  intro ps rest hcut hlen
  have hs : ([0, 3, 7, 8, 9] : List UInt8) = be16Framing.frame [7, 8, 9] ++ [] := rfl
  cases ps with
  | nil =>
    have hrest := hcut.eq
    rw [List.flatMap_nil, List.nil_append] at hrest
    rw [← hrest]
    decide
  | cons p ps =>
    have heq := hcut.eq
    rw [List.flatMap_cons, List.append_assoc, hs] at heq
    have hp := lengthOk_lt _ (hcut.ok p List.mem_cons_self)
    obtain ⟨-, htail⟩ := Framing.frame_append_inj (by decide) hp heq
    rw [(List.append_eq_nil_iff.mp htail.symm).2] at hlen
    simp at hlen

/-- A connection that has received the length 65534: nothing is closed, and the
next request is for `2 ^ 64 - 2` bytes. -/
theorem not_reassemblyOk_wrap :
    ¬ ∀ received handed conn, TcpReach received handed conn →
      ReassemblyOk received handed conn := by
  intro h
  have hrecv : ∃ conn', (TcpConnection.accepted 7 Sock.zero).recv [0xff, 0xfe] = (conn', .wait) ∧
      conn'.inactive = false ∧ conn'.position = 2 ∧ conn'.expected = 0 :=
    ⟨_, rfl, rfl, rfl, rfl⟩
  obtain ⟨conn', hrecv, hact, hpos, hexp⟩ := hrecv
  have hreach := TcpReach.wait _ (.accept 7 Sock.zero) rfl (by decide) hrecv
  have hle := ((h _ _ _ hreach).inBounds hact).1
  rw [hpos, hexp] at hle
  exact absurd hle (by decide)

end N2n
