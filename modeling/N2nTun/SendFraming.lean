import N2nTun.EdgeTcp
import N2nTun.Lib.Machine
import N2nTun.SnSend

/-!
# Frames on the sending side

Both programs put a packet on a TCP connection by two calls of `sendto`, one for the
length and one for the packet.  An error of either closes the connection.  A call that
takes only some of the bytes is not noticed: the connection stays in use with a part of
a frame on it.

## Main definitions

* `snSendMachine` — sends, closes and accepts of a supernode.
* `edgeSendtoFd`, `edgeSendtoSock`, `edgeSendMachine` — the same for an edge.
* `SnFramingOk`, `EdgeFramingOk` — what is required of the bytes on a connection.

## Main results

* `framingOk_of_reach` — **in every run without such a call the connections in use
  carry whole frames, and on the others at most the last frame is incomplete.**
-/

namespace N2n

open Bytes Frames Machines

/-- A length that fits into the prepended word. -/
def fitsLength (n : ℕ) : Prop := n < be16Framing.bound

instance (n : ℕ) : Decidable (fitsLength n) := inferInstanceAs (Decidable (n < _))

/-- A stream of whole frames. -/
abbrev WholeFrames (s : List UInt8) : Prop := be16Framing.Whole fitsLength s

/-- A stream of whole frames and possibly a beginning of one more. -/
abbrev StoppedFrames (s : List UInt8) : Prop := be16Framing.Stopped fitsLength s

/-- The two writes of one packet. -/
theorem frame_eq (p : List UInt8) :
    be16Framing.frame p = bytes16 (UInt16.ofNat p.length) ++ p := rfl

/-! ### Results of `sendto` -/

namespace SendResult

/-- All of `p` was taken, or the call counts as failed. -/
def Complete (r : SendResult) (p : List UInt8) : Prop := r.failed p = true ∨ r.sent p = p.length

theorem written_of_sent_le {r : SendResult} {p : List UInt8} (h : r.sent p ≤ 0) :
    r.written p = [] := by
  unfold sent at h
  unfold written
  cases htaken : r.taken with
  | none => rfl
  | some n =>
    rw [htaken] at h
    rcases Nat.eq_zero_or_pos n with rfl | hn
    · rfl
    · have hlen : p.length = 0 := by
        change ((min n p.length : ℕ) : ℤ) ≤ 0 at h
        omega
      rw [List.length_eq_zero_iff.mp hlen, List.take_nil]

theorem written_of_failed {r : SendResult} {p : List UInt8} (h : r.failed p = true) :
    r.written p = [] := by
  simp only [failed, Bool.and_eq_true, decide_eq_true_eq] at h
  exact written_of_sent_le h.1

theorem written_of_sent {r : SendResult} {p : List UInt8} (h : r.sent p = p.length) :
    r.written p = p := by
  unfold sent at h
  unfold written
  cases htaken : r.taken with
  | none =>
    rw [htaken] at h
    change (-1 : ℤ) = p.length at h
    omega
  | some n =>
    rw [htaken] at h
    change ((min n p.length : ℕ) : ℤ) = p.length at h
    exact List.take_of_length_le (by simp; omega)

end SendResult

/-! ### The supernode -/

/-- What happens to the connections of a supernode. -/
inductive SnSendEvent where
  /-- `sendto_sock`, with the answers of the kernel -/
  | send (env : Env) (target : Target) (fd : ℤ) (socket : Sock) (pkt : Pkt)
      (policy : TransportPolicy)
  /-- `close_tcp_connection` from elsewhere -/
  | close (fd : ℤ)
  | accept (fd : ℤ) (sock : Sock)

/-- One step. -/
def snSendStep (w : World) : SnSendEvent → World
  | .send env target fd socket pkt policy =>
    (World.sendtoSock { w with env := env } target fd socket pkt policy).1
  | .close fd => w.setSss fun sss => closeTcpConnection sss (sss.findConn fd)
  | .accept fd sock => w.acceptConnection fd sock

/-- `accept` returns a descriptor that is not in use. -/
def SnSendEnabled (w : World) : SnSendEvent → Prop
  | .accept fd _ => w.sss.isTcp fd = true ∧ w.sss.isOpen fd = false
  | _ => True

/-- The runs, from a supernode without connections. -/
def snSendMachine : Machine World SnSendEvent where
  init w := w.sss.tcpConnections.entries = [] ∧ ∀ fd, w.written fd = []
  enabled := SnSendEnabled
  step := snSendStep

/-- What is required of the bytes on the connections. -/
structure SnFramingOk (w : World) : Prop where
  inUse : ∀ fd, w.sss.isOpen fd = true → WholeFrames (w.written fd)
  closed : ∀ fd, StoppedFrames (w.written fd)

/-- The condition on a step: the packet has fewer than `2 ^ 16` bytes, and no call of
`sendto` takes only some of its bytes or only some of the two bytes before it. -/
def SnSendOk (_ : World) : SnSendEvent → Prop
  | .send env _ _ _ pkt _ =>
    fitsLength pkt.bytes.length ∧
      ∀ i, (env.sends.get i).Complete (bytes16 (UInt16.ofNat pkt.bytes.length)) ∧
        (env.sends.get i).Complete pkt.bytes
  | _ => True

namespace Sn

theorem isOpen_iff {sss : Sn} {fd : ℤ} :
    sss.isOpen fd = true ↔
      ∃ e ∈ sss.tcpConnections.entries, e.2.socketFd = fd ∧ e.2.inactive = false := by
  simp [isOpen, Table.values]

/-- The descriptors in the table are distinct. -/
def UniqueFds (sss : Sn) : Prop :=
  ∀ e ∈ sss.tcpConnections.entries, ∀ e' ∈ sss.tcpConnections.entries,
    e.2.socketFd = e'.2.socketFd → e = e'

theorem removePeerByFd_conns (sss : Sn) (fd : ℤ) :
    (sss.removePeerByFd fd).tcpConnections = sss.tcpConnections := by
  unfold removePeerByFd
  split <;> rfl

end Sn

/-- Closing the connection on `fd` closes this one and no other. -/
theorem closeTcpConnection_isOpen {sss : Sn} (hu : sss.UniqueFds) (fd fd' : ℤ) :
    (closeTcpConnection sss (sss.findConn fd)).isOpen fd' = true ↔
      sss.isOpen fd' = true ∧ fd' ≠ fd := by
  cases hfind : sss.findConn fd with
  | none =>
    have hno := Table.find?_eq_none.mp hfind
    refine ⟨fun h => ⟨h, ?_⟩, fun h => h.1⟩
    rintro rfl
    obtain ⟨e, he, hfd, -⟩ := Sn.isOpen_iff.mp h
    have := hno e.2 (Table.mem_def.mpr ⟨e.1, he⟩)
    simp [hfd] at this
  | some c =>
    obtain ⟨hget, hkey⟩ := Table.find?_eq_some hfind
    have hmem := Table.get?_eq_some.mp hget
    have hkey : c.2.socketFd = fd := by simpa using hkey
    rw [Sn.isOpen_iff, Sn.isOpen_iff]
    simp only [closeTcpConnection, Sn.removePeerByFd_conns, Table.modify, List.mem_map]
    constructor
    · rintro ⟨_, ⟨e, he, rfl⟩, hfd, hact⟩
      unfold Table.updateAt at hfd hact
      split_ifs at hfd hact with hp
      · exact absurd hact (by simp [TcpConnection.close])
      · refine ⟨⟨e, he, hfd, hact⟩, ?_⟩
        rintro rfl
        exact hp (by rw [hu e he c hmem (hfd.trans hkey.symm)])
    · rintro ⟨⟨e, he, hfd, hact⟩, hne⟩
      refine ⟨_, ⟨e, he, rfl⟩, ?_⟩
      have hp : e.1 ≠ c.1 := by
        intro hp
        have heq : e = c := List.inj_on_of_nodup_map sss.tcpConnections.nodup he hmem hp
        exact hne (by rw [← hfd, heq, hkey])
      rw [Table.updateAt, if_neg hp]
      exact ⟨hfd, hact⟩

theorem closeTcpConnection_uniqueFds {sss : Sn} (hu : sss.UniqueFds)
    (conn : Option (ℕ × TcpConnection)) : (closeTcpConnection sss conn).UniqueFds := by
  cases conn with
  | none => exact hu
  | some c =>
    have hfst : ∀ e, (Table.updateAt c.1 TcpConnection.close e).2.socketFd = e.2.socketFd := by
      intro e
      unfold Table.updateAt
      split_ifs <;> rfl
    intro e he e' he' heq
    simp only [closeTcpConnection, Sn.removePeerByFd_conns, Table.modify, List.mem_map] at he he'
    obtain ⟨a, ha, rfl⟩ := he
    obtain ⟨a', ha', rfl⟩ := he'
    rw [hfst, hfst] at heq
    rw [hu a ha a' ha' heq]

/-- The invariant of the runs. -/
structure SnSendInv (w : World) : Prop extends SnFramingOk w where
  unique : w.sss.UniqueFds

/-- The bytes on `fd` become `out`, while the supernode stays as it is. -/
theorem SnSendInv.write {w w' : World} (h : SnSendInv w) {fd : ℤ} {out : List UInt8}
    (hsss : w'.sss = w.sss) (hout : w'.written = Function.update w.written fd out)
    (hwhole : WholeFrames out) : SnSendInv w' := by
  have hat : ∀ fd', WholeFrames (w.written fd') → WholeFrames (w'.written fd') := by
    intro fd' hfd'
    rw [hout, Function.update_apply]
    split_ifs
    · exact hwhole
    · exact hfd'
  refine ⟨⟨?_, ?_⟩, hsss ▸ h.unique⟩
  · intro fd' hopen
    exact hat fd' (h.inUse fd' (hsss ▸ hopen))
  · intro fd'
    rw [hout, Function.update_apply]
    split_ifs
    · exact Or.inl hwhole
    · exact h.closed fd'

/-- The connection on `fd` is closed, with `out` on it. -/
theorem SnSendInv.close {w w' : World} (h : SnSendInv w) {fd : ℤ} {out : List UInt8}
    (hsss : w'.sss = closeTcpConnection w.sss (w.sss.findConn fd))
    (hout : w'.written = Function.update w.written fd out) (hstop : StoppedFrames out) :
    SnSendInv w' := by
  refine ⟨⟨?_, ?_⟩, ?_⟩
  · intro fd' hopen
    rw [hsss, closeTcpConnection_isOpen h.unique] at hopen
    rw [hout, Function.update_apply, if_neg hopen.2]
    exact h.inUse fd' hopen.1
  · intro fd'
    rw [hout, Function.update_apply]
    split_ifs
    · exact hstop
    · exact h.closed fd'
  · rw [hsss]
    exact closeTcpConnection_uniqueFds h.unique _

/-- A call of `sendto_fd` on a TCP descriptor either fails, writes nothing and closes the
connection, or writes all of its bytes to an open one. -/
theorem sendtoFd_tcp {w : World} {fd : ℤ} {socket : Sock} {p : List UInt8}
    {policy : TransportPolicy} (hfd : w.sss.isTcp fd = true)
    (hcomplete : w.env.sends.head.Complete p) {w' : World} {sent : ℤ}
    (h : w.sendtoFd fd socket p policy = (w', sent)) :
    w'.env.sends = w.env.sends.tail ∧
      ((sent = -1 ∧ w'.sss = closeTcpConnection w.sss (w.sss.findConn fd) ∧
          w'.written = Function.update w.written fd (w.written fd)) ∨
        (w.sss.isOpen fd = true ∧ sent = p.length ∧ w'.sss = w.sss ∧
          w'.written = Function.update w.written fd (w.written fd ++ p))) := by
  have hne : fd ≠ w.sss.sock := by
    simp only [Sn.isTcp, Bool.and_eq_true, bne_iff_ne] at hfd
    exact hfd.2
  rw [World.sendtoFd, if_neg (fun hc => hne hc.1)] at h
  unfold World.sendtoFdRaw World.sendto at h
  simp only [hfd, Bool.true_and, if_true, Bool.and_true] at h
  cases hopen : w.sss.isOpen fd with
  | false =>
    -- the kernel does not know the descriptor
    simp only [hopen, Bool.not_false, if_true] at h
    have hfail : (⟨none, true⟩ : SendResult).failed p = true := by
      simp [SendResult.failed, SendResult.sent]
    rw [if_pos hfail] at h
    cases h
    refine ⟨rfl, Or.inl ⟨rfl, rfl, ?_⟩⟩
    simp [SendResult.written, World.setSss]
  | true =>
    simp only [hopen, Bool.not_true, Bool.false_eq_true, if_false] at h
    by_cases hfail : w.env.sends.head.failed p = true
    · rw [if_pos hfail] at h
      cases h
      refine ⟨rfl, Or.inl ⟨rfl, rfl, ?_⟩⟩
      simp [SendResult.written_of_failed hfail, World.setSss]
    · have hsent := hcomplete.resolve_left hfail
      rw [if_neg hfail] at h
      cases h
      refine ⟨rfl, Or.inr ⟨rfl, hsent, rfl, ?_⟩⟩
      simp [SendResult.written_of_sent hsent]

/-- A call of `sendto_fd` on another descriptor leaves the connections alone. -/
theorem sendtoFd_udp {w : World} {fd : ℤ} {socket : Sock} {p : List UInt8}
    {policy : TransportPolicy} (hfd : w.sss.isTcp fd = false) :
    (w.sendtoFd fd socket p policy).1.sss = w.sss ∧
      (w.sendtoFd fd socket p policy).1.written = w.written := by
  have hraw : ∀ w₁ : World, w₁.sss = w.sss → w₁.written = w.written →
      (w₁.sendtoFdRaw fd p).1.sss = w.sss ∧ (w₁.sendtoFdRaw fd p).1.written = w.written := by
    intro w₁ hsss hwritten
    unfold World.sendtoFdRaw World.sendto
    simp [hsss, hwritten, hfd]
  unfold World.sendtoFd
  split_ifs with hkcp
  · have hkept : (w.kcpSnSend p.length).1.sss = w.sss ∧
        (w.kcpSnSend p.length).1.written = w.written := ⟨rfl, rfl⟩
    generalize w.kcpSnSend p.length = r at hkept ⊢
    obtain ⟨w₁, kcpSent⟩ := r
    dsimp only
    split_ifs
    · exact hkept
    · exact hraw w₁ hkept.1 hkept.2
  · exact hraw w rfl rfl

/-- The two calls keep the invariant if neither takes only some of the bytes. -/
theorem SnSendInv.sendFrame {w : World} (h : SnSendInv w) (fd : ℤ) (socket : Sock)
    (p : List UInt8) (policy : TransportPolicy) (hfits : fitsLength p.length)
    (hcomplete : ∀ i, (w.env.sends.get i).Complete (bytes16 (UInt16.ofNat p.length)) ∧
      (w.env.sends.get i).Complete p) :
    SnSendInv (w.sendFrame fd socket p policy).1 := by
  unfold World.sendFrame
  cases hfd : w.sss.isTcp fd with
  | false =>
    rw [if_neg Bool.false_ne_true]
    obtain ⟨hsss, hwritten⟩ := @sendtoFd_udp w fd socket p policy hfd
    refine ⟨⟨?_, ?_⟩, ?_⟩
    · rw [hsss, hwritten]
      exact h.inUse
    · rw [hwritten]
      exact h.closed
    · rw [hsss]
      exact h.unique
  | true =>
    rw [if_pos rfl]
    generalize hw₁ : w.sendtoFd fd socket (bytes16 (UInt16.ofNat p.length)) policy = r
    obtain ⟨w₁, sent⟩ := r
    obtain ⟨henv, ⟨rfl, hsss, hout⟩ | ⟨hopen, rfl, hsss, hout⟩⟩ :=
      sendtoFd_tcp hfd (hcomplete 0).1 hw₁
    · -- the length could not be sent
      exact h.close hsss hout (h.closed fd)
    · have hpos : ¬ (((bytes16 (UInt16.ofNat p.length)).length : ℤ) ≤ 0) := by simp
      dsimp only
      rw [if_neg hpos]
      generalize hw₂ : w₁.sendtoFd fd socket p policy = r
      obtain ⟨w₂, sent₂⟩ := r
      have hfd₁ : w₁.sss.isTcp fd = true := by rw [hsss]; exact hfd
      have hhead : w₁.env.sends.head.Complete p := by
        rw [henv]
        exact (hcomplete 1).2
      have hwhole : WholeFrames (w.written fd) := h.inUse fd hopen
      obtain ⟨-, ⟨rfl, hsss₂, hout₂⟩ | ⟨-, rfl, hsss₂, hout₂⟩⟩ := sendtoFd_tcp hfd₁ hhead hw₂
      · -- only the length is on the connection, which has been closed
        rw [hsss] at hsss₂
        rw [hout, Function.update_self, Function.update_idem] at hout₂
        exact h.close hsss₂ hout₂ (hwhole.hdr hfits)
      · rw [hout, Function.update_self, Function.update_idem, List.append_assoc,
          ← frame_eq] at hout₂
        exact h.write (hsss₂.trans hsss) hout₂ (hwhole.frame hfits)

/-- `accept` keeps the invariant. -/
theorem SnSendInv.accept {w : World} (h : SnSendInv w) {fd : ℤ} (sock : Sock)
    (hnew : w.sss.isOpen fd = false) : SnSendInv (w.acceptConnection fd sock) := by
  have hentries : (w.acceptConnection fd sock).sss.tcpConnections.entries =
      (w.sss.tcpConnections.entries.filter (!·.2.inactive)) ++
        [(w.sss.tcpConnections.next, .accepted fd sock)] := rfl
  -- an entry that has stayed belongs to an open connection
  have hstay : ∀ e ∈ w.sss.tcpConnections.entries.filter (!·.2.inactive),
      e ∈ w.sss.tcpConnections.entries ∧ w.sss.isOpen e.2.socketFd = true := by
    intro e he
    obtain ⟨hmem, hact⟩ := List.mem_filter.mp he
    exact ⟨hmem, Sn.isOpen_iff.mpr ⟨e, hmem, rfl, by simpa using hact⟩⟩
  refine ⟨⟨?_, ?_⟩, ?_⟩
  · intro fd' hopen
    change WholeFrames (Function.update w.written fd [] fd')
    rw [Function.update_apply]
    split_ifs with heq
    · exact Framing.whole_nil
    · obtain ⟨e, he, hfd, -⟩ := Sn.isOpen_iff.mp hopen
      rw [hentries, List.mem_append, List.mem_singleton] at he
      rcases he with he | rfl
      · exact h.inUse fd' (hfd ▸ (hstay e he).2)
      · exact absurd hfd.symm heq
  · intro fd'
    change StoppedFrames (Function.update w.written fd [] fd')
    rw [Function.update_apply]
    split_ifs
    · exact Or.inl Framing.whole_nil
    · exact h.closed fd'
  · intro e he e' he' heq
    rw [hentries, List.mem_append, List.mem_singleton] at he he'
    rcases he with he | rfl <;> rcases he' with he' | rfl
    · exact h.unique e (hstay e he).1 e' (hstay e' he').1 heq
    · have hopen := (hstay e he).2
      rw [heq] at hopen
      exact absurd (hnew.symm.trans hopen) (by decide)
    · have hopen := (hstay e' he').2
      rw [← heq] at hopen
      exact absurd (hnew.symm.trans hopen) (by decide)
    · rfl

theorem SnSendInv.step {w : World} {e : SnSendEvent} (h : SnSendInv w) (hen : SnSendEnabled w e)
    (hok : SnSendOk w e) : SnSendInv (snSendStep w e) := by
  cases e with
  | send env target fd socket pkt policy =>
    have hemit : SnSendInv (World.emit { w with env := env } ⟨target, socket, fd, pkt⟩) :=
      ⟨⟨h.inUse, h.closed⟩, h.unique⟩
    exact hemit.sendFrame fd socket pkt.bytes policy hok.1 hok.2
  | close fd =>
    have hout : w.written = Function.update w.written fd (w.written fd) := by simp
    exact h.close rfl hout (h.closed fd)
  | accept fd sock => exact h.accept sock hen.2

theorem SnSendInv.init {w : World} (h : snSendMachine.init w) : SnSendInv w := by
  obtain ⟨hconns, hout⟩ := h
  refine ⟨⟨?_, ?_⟩, ?_⟩
  · intro fd _
    rw [hout]
    exact Framing.whole_nil
  · intro fd
    rw [hout]
    exact Or.inl Framing.whole_nil
  · intro e he
    rw [hconns] at he
    cases he

/-! ### The edge -/

/-- The transports of an edge, and what has been written to the connection with a
number. -/
structure EdgeOut where
  eee : EdgeTransport
  written : ℕ → List UInt8

/-- The answers of the system to one call of `sendto_fd`: whether `select` finds the
socket ready, the result of `sendto`, and what a failure asks for. -/
structure EdgeSendAnswer where
  ready : Bool
  result : SendResult
  os : SocketResults
  nowMs : UInt32

/-- `edge_tcp_fallback_is_establishing`. -/
def edgeTcpFallbackIsEstablishing (eee : EdgeTransport) : Bool :=
  eee.tcpFallbackActive && edgeTransportUsesTcp eee && eee.snWait != 0

/-- The bytes that reach the TCP connection of the edge. -/
def EdgeOut.write (s : EdgeOut) (p : List UInt8) : EdgeOut :=
  if edgeTransportUsesTcp s.eee && s.eee.sock == s.eee.tcpSock && 0 ≤ s.eee.tcpSock then
    { s with
      written := Function.update s.written s.eee.tcpOpened (s.written s.eee.tcpOpened ++ p) }
  else s

/-- `sendto_fd` of the edge.  Only over TCP is there a wait for the socket; what KCP does
over UDP does not concern the connection. -/
def edgeSendtoFd (s : EdgeOut) (buf : List UInt8) (a : EdgeSendAnswer) : EdgeOut × ℤ :=
  if edgeTransportUsesTcp s.eee && !a.ready then
    ({ s with eee := sendtoFdErrOut s.eee a.os a.nowMs }, -1)
  else
    let s := s.write (a.result.written buf)
    if a.result.sent buf ≠ -1 then (s, a.result.sent buf)
    else ({ s with eee := sendtoFdErrOut s.eee a.os a.nowMs }, -1)

/-- `sendto_sock` of the edge, with the answers to its two calls of `sendto_fd`. -/
def edgeSendtoSock (s : EdgeOut) (buf : List UInt8) (dest : Sock) (a₁ a₂ : EdgeSendAnswer) :
    EdgeOut :=
  if dest.family = 0 then s
  else if s.eee.sock < 0 then s
  else if edgeTcpFallbackIsEstablishing s.eee && !s.eee.sendingSupernodeControl then s
  else if edgeTransportUsesTcp s.eee then
    let (s, sent) := edgeSendtoFd s (bytes16 (UInt16.ofNat buf.length)) a₁
    if sent ≤ 0 then s else (edgeSendtoFd s buf a₂).1
  else (edgeSendtoFd s buf a₂).1

/-- What happens to the connection of an edge. -/
inductive EdgeSendEvent where
  | send (buf : List UInt8) (dest : Sock) (a₁ a₂ : EdgeSendAnswer)
  /-- connects, disconnects and the other changes of the transports -/
  | other (op : TransportOp)

/-- One step. -/
def edgeSendStep (s : EdgeOut) : EdgeSendEvent → EdgeOut
  | .send buf dest a₁ a₂ => edgeSendtoSock s buf dest a₁ a₂
  | .other op => { s with eee := op.apply s.eee }

/-- The runs, from any state of the transports. -/
def edgeSendMachine : Machine EdgeOut EdgeSendEvent where
  init s := ∀ k, s.written k = []
  enabled _ _ := True
  step := edgeSendStep

/-- The connection with the number `k` is the one in use. -/
def EdgeOut.InUse (s : EdgeOut) (k : ℕ) : Prop := k = s.eee.tcpOpened ∧ 0 ≤ s.eee.tcpSock

/-- What is required of the bytes on the connections. -/
structure EdgeFramingOk (s : EdgeOut) : Prop where
  inUse : ∀ k, s.InUse k → WholeFrames (s.written k)
  closed : ∀ k, StoppedFrames (s.written k)

/-- The condition on a step: the packet has fewer than `2 ^ 16` bytes, the call for its
length takes all, nothing or fails, and the call for the packet takes all or fails. -/
def EdgeSendOk (_ : EdgeOut) : EdgeSendEvent → Prop
  | .send buf _ a₁ a₂ =>
    fitsLength buf.length ∧
      (a₁.result.sent (bytes16 (UInt16.ofNat buf.length)) ≤ 0 ∨
        a₁.result.sent (bytes16 (UInt16.ofNat buf.length)) = 2) ∧
      (a₂.result.sent buf = -1 ∨ a₂.result.sent buf = buf.length)
  | .other _ => True

/-- The invariant of the runs: nothing has been written to connections that are still to
come. -/
structure EdgeSendInv (s : EdgeOut) : Prop extends EdgeFramingOk s where
  fresh : ∀ k, s.eee.tcpOpened < k → s.written k = []

/-- Changes of the transports keep the invariant. -/
theorem EdgeSendInv.kept {s : EdgeOut} (h : EdgeSendInv s) {eee : EdgeTransport}
    (hkept : TcpKept s.eee eee) : EdgeSendInv { s with eee := eee } := by
  refine ⟨⟨?_, h.closed⟩, ?_⟩
  · rintro k ⟨rfl, hsock⟩
    rcases hkept.opened.eq_or_lt with heq | hlt
    · exact h.inUse _ ⟨heq.symm, hkept.sock heq.symm hsock⟩
    · -- a new connection
      change WholeFrames (s.written eee.tcpOpened)
      rw [h.fresh _ hlt]
      exact Framing.whole_nil
  · intro k hk
    exact h.fresh k (hkept.opened.trans_lt hk)

/-- The connection is given up with `out` on it. -/
theorem EdgeSendInv.stop {s s' : EdgeOut} (h : EdgeSendInv s) {out : List UInt8}
    (hkept : TcpKept (supernodeDisconnectTcp s.eee) s'.eee)
    (hout : s'.written = Function.update s.written s.eee.tcpOpened out)
    (hstop : StoppedFrames out) : EdgeSendInv s' := by
  have hopened : s.eee.tcpOpened ≤ s'.eee.tcpOpened := hkept.opened
  refine ⟨⟨?_, ?_⟩, ?_⟩
  · rintro k ⟨rfl, hsock⟩
    have hlt : s.eee.tcpOpened < s'.eee.tcpOpened := by
      rcases hopened.eq_or_lt with heq | hlt
      · have hclosed := hkept.sock heq.symm hsock
        exact absurd hclosed (by have := @supernodeDisconnectTcp_tcpSock s.eee; omega)
      · exact hlt
    rw [hout, Function.update_of_ne hlt.ne', h.fresh _ hlt]
    exact Framing.whole_nil
  · intro k
    rw [hout, Function.update_apply]
    split_ifs
    · exact hstop
    · exact h.closed k
  · intro k hk
    rw [hout, Function.update_of_ne (by omega)]
    exact h.fresh k (by omega)

/-- The frame of a packet is on the connection. -/
theorem EdgeSendInv.write {s : EdgeOut} (h : EdgeSendInv s) {out : List UInt8}
    (hwhole : WholeFrames out) :
    EdgeSendInv { s with written := Function.update s.written s.eee.tcpOpened out } := by
  refine ⟨⟨?_, ?_⟩, ?_⟩
  · rintro k ⟨rfl, -⟩
    change WholeFrames (Function.update s.written s.eee.tcpOpened out s.eee.tcpOpened)
    rw [Function.update_self]
    exact hwhole
  · intro k
    change StoppedFrames (Function.update s.written s.eee.tcpOpened out k)
    rw [Function.update_apply]
    split_ifs
    · exact Or.inl hwhole
    · exact h.closed k
  · intro k hk
    change Function.update s.written s.eee.tcpOpened out k = []
    rw [Function.update_of_ne (by change s.eee.tcpOpened < k at hk; omega)]
    exact h.fresh k hk

/-- The current connection is the one that is written to. -/
def EdgeOut.Writes (s : EdgeOut) : Prop :=
  (edgeTransportUsesTcp s.eee && s.eee.sock == s.eee.tcpSock && 0 ≤ s.eee.tcpSock) = true

instance (s : EdgeOut) : Decidable s.Writes := by
  unfold EdgeOut.Writes
  infer_instance

theorem EdgeOut.Writes.inUse {s : EdgeOut} (h : s.Writes) : s.InUse s.eee.tcpOpened := by
  simp only [EdgeOut.Writes, Bool.and_eq_true, decide_eq_true_eq] at h
  exact ⟨rfl, h.2⟩

theorem EdgeOut.Writes.write {s : EdgeOut} (h : s.Writes) (p : List UInt8) :
    s.write p =
      { s with
        written := Function.update s.written s.eee.tcpOpened (s.written s.eee.tcpOpened ++ p) } :=
  if_pos h

theorem EdgeOut.write_eq_self {s : EdgeOut} {p : List UInt8} (h : s.Writes → p = []) :
    s.write p = s := by
  unfold EdgeOut.write
  split_ifs with hw
  · rw [h hw]
    simp
  · rfl

/-- `sendto_fd` over TCP: it fails, writes nothing and gives the connection up, or it
writes the bytes that the kernel takes. -/
theorem edgeSendtoFd_cases {s s' : EdgeOut} {p : List UInt8} {a : EdgeSendAnswer} {sent : ℤ}
    (h : edgeSendtoFd s p a = (s', sent)) :
    (sent = -1 ∧ s' = { s with eee := sendtoFdErrOut s.eee a.os a.nowMs }) ∨
      (sent = a.result.sent p ∧ sent ≠ -1 ∧ s' = s.write (a.result.written p)) := by
  unfold edgeSendtoFd at h
  split_ifs at h with hready hsent
  · cases h
    exact Or.inl ⟨rfl, rfl⟩
  · cases h
    exact Or.inr ⟨rfl, hsent, rfl⟩
  · cases h
    have hnone : a.result.written p = [] :=
      SendResult.written_of_sent_le (by rw [not_not.mp hsent]; decide)
    rw [EdgeOut.write_eq_self fun _ => hnone]
    exact Or.inl ⟨rfl, rfl⟩

/-- Where nothing reaches the connection, the invariant is kept. -/
theorem EdgeSendInv.sendtoFd_away {s : EdgeOut} (h : EdgeSendInv s) (hw : ¬ s.Writes)
    (p : List UInt8) (a : EdgeSendAnswer) : EdgeSendInv (edgeSendtoFd s p a).1 := by
  generalize hr : edgeSendtoFd s p a = r
  obtain ⟨s', sent⟩ := r
  obtain ⟨-, rfl⟩ | ⟨-, -, rfl⟩ := edgeSendtoFd_cases hr
  · exact h.kept (tcpKept_sendtoFdErrOut a.os a.nowMs)
  · rw [EdgeOut.write_eq_self fun hw' => absurd hw' hw]
    exact h

/-- The two calls of `sendto_sock` over TCP. -/
theorem EdgeSendInv.sendFrame {s : EdgeOut} (h : EdgeSendInv s) {buf : List UInt8}
    {a₁ a₂ : EdgeSendAnswer} (htcp : edgeTransportUsesTcp s.eee = true)
    (hfits : fitsLength buf.length)
    (h₁ : a₁.result.sent (bytes16 (UInt16.ofNat buf.length)) ≤ 0 ∨
      a₁.result.sent (bytes16 (UInt16.ofNat buf.length)) = 2)
    (h₂ : a₂.result.sent buf = -1 ∨ a₂.result.sent buf = buf.length) {s₁ : EdgeOut} {sent : ℤ}
    (hr : edgeSendtoFd s (bytes16 (UInt16.ofNat buf.length)) a₁ = (s₁, sent)) :
    EdgeSendInv (if sent ≤ 0 then s₁ else (edgeSendtoFd s₁ buf a₂).1) := by
  obtain ⟨rfl, rfl⟩ | ⟨hsent, -, rfl⟩ := edgeSendtoFd_cases hr
  · rw [if_pos (by decide)]
    exact h.kept (tcpKept_sendtoFdErrOut a₁.os a₁.nowMs)
  rcases h₁ with hle | htwo
  · -- not a byte of the length has been taken
    rw [if_pos (hsent.trans_le hle),
      EdgeOut.write_eq_self fun _ => SendResult.written_of_sent_le hle]
    exact h
  rw [if_neg (by omega), SendResult.written_of_sent htwo]
  by_cases hw : s.Writes
  · have hwhole := h.inUse _ hw.inUse
    rw [hw.write]
    generalize hr₂ : edgeSendtoFd _ buf a₂ = r₂
    obtain ⟨s₂, sent₂⟩ := r₂
    obtain ⟨-, rfl⟩ | ⟨hsent₂, hne, rfl⟩ := edgeSendtoFd_cases hr₂
    · -- the connection is given up with the length on it
      exact h.stop (tcpKept_errOut_of_closed htcp a₂.os a₂.nowMs) rfl (hwhole.hdr hfits)
    · have hall := h₂.resolve_left (hsent₂ ▸ hne)
      have hw₁ : (s.write (bytes16 (UInt16.ofNat buf.length))).Writes := by
        rw [hw.write]
        exact hw
      rw [hw.write] at hw₁
      rw [SendResult.written_of_sent hall, hw₁.write]
      dsimp only
      rw [Function.update_self, Function.update_idem, List.append_assoc, ← frame_eq]
      exact h.write (hwhole.frame hfits)
  · rw [EdgeOut.write_eq_self fun hw' => absurd hw' hw]
    exact h.sendtoFd_away hw buf a₂

theorem EdgeSendInv.step {s : EdgeOut} {e : EdgeSendEvent} (h : EdgeSendInv s)
    (hok : EdgeSendOk s e) : EdgeSendInv (edgeSendStep s e) := by
  cases e with
  | other op => exact h.kept (tcpKept_apply op)
  | send buf dest a₁ a₂ =>
    obtain ⟨hfits, h₁, h₂⟩ := hok
    change EdgeSendInv (edgeSendtoSock s buf dest a₁ a₂)
    unfold edgeSendtoSock
    split_ifs with hfam hsock hestab htcp
    · exact h
    · exact h
    · exact h
    · generalize hr : edgeSendtoFd s (bytes16 (UInt16.ofNat buf.length)) a₁ = r
      obtain ⟨s₁, sent⟩ := r
      exact h.sendFrame htcp hfits h₁ h₂ hr
    · refine h.sendtoFd_away ?_ buf a₂
      intro hw
      simp only [EdgeOut.Writes, Bool.and_eq_true] at hw
      exact htcp hw.1.1

theorem EdgeSendInv.init {s : EdgeOut} (h : edgeSendMachine.init s) : EdgeSendInv s := by
  refine ⟨⟨?_, ?_⟩, fun k _ => h k⟩
  · intro k _
    rw [h k]
    exact Framing.whole_nil
  · intro k
    rw [h k]
    exact Or.inl Framing.whole_nil

/-! ### The result -/

/-- **In every run in which no call of `sendto` takes only some of the bytes, the
connections in use carry whole frames, and the others whole frames and at most a
beginning of one more**, for the supernode and for the edge. -/
theorem framingOk_of_reach (w : World) (s : EdgeOut) :
    (snSendMachine.Reach SnSendOk w → SnFramingOk w) ∧
      (edgeSendMachine.Reach EdgeSendOk s → EdgeFramingOk s) := by
  constructor
  · intro h
    have hinv : SnSendInv w :=
      h.invariant (fun _ hinit => .init hinit) fun _ _ hinv hen hok => hinv.step hen hok
    exact hinv.toSnFramingOk
  · intro h
    have hinv : EdgeSendInv s :=
      h.invariant (fun _ hinit => .init hinit) fun _ _ hinv _ hok => hinv.step hok
    exact hinv.toEdgeFramingOk

/-- A packet of three bytes to the connection on descriptor 5. -/
def sendThree (env : Env) : SnSendEvent :=
  .send env .sender 5 (hostSock 1 5000) (.ofPlain [1, 2, 3]) .default

/-- A connection on descriptor 5. -/
theorem accept_reach {cond : World → SnSendEvent → Prop}
    (hcond : cond (.start idleSn) (.accept 5 (hostSock 1 5000))) :
    snSendMachine.Reach cond ((World.start idleSn).acceptConnection 5 (hostSock 1 5000)) := by
  have hinit : snSendMachine.init (.start idleSn) := ⟨rfl, fun _ => rfl⟩
  have hen : SnSendEnabled (.start idleSn) (.accept 5 (hostSock 1 5000)) := ⟨by decide, by decide⟩
  exact .step (M := snSendMachine) (.accept 5 (hostSock 1 5000)) (.init hinit) hen hcond

/-- An answer of the system to a send that succeeds. -/
def readyAnswer : EdgeSendAnswer := ⟨true, ⟨some 65536, false⟩, ⟨-1, -1, false⟩, 0⟩

/-- The same packet from an edge that has fallen back to TCP. -/
def edgeSendThree : EdgeSendEvent := .send [1, 2, 3] (hostSock 9 7654) readyAnswer readyAnswer

theorem framingOk_threeBytes :
    SnFramingOk (snSendStep ((World.start idleSn).acceptConnection 5 (hostSock 1 5000))
        (sendThree quietEnv)) ∧
      EdgeFramingOk (edgeSendStep ⟨fallbackEdge, fun _ => []⟩ edgeSendThree) := by
  have hsn : snSendMachine.Reach SnSendOk (snSendStep
      ((World.start idleSn).acceptConnection 5 (hostSock 1 5000)) (sendThree quietEnv)) := by
    refine .step (M := snSendMachine) (sendThree quietEnv) (accept_reach trivial) trivial ⟨?_, ?_⟩
    · decide
    · intro i
      exact ⟨Or.inr rfl, Or.inr rfl⟩
  have hedge : edgeSendMachine.Reach EdgeSendOk
      (edgeSendStep ⟨fallbackEdge, fun _ => []⟩ edgeSendThree) := by
    have hinit : edgeSendMachine.init ⟨fallbackEdge, fun _ => []⟩ := fun _ => rfl
    refine .step (M := edgeSendMachine) edgeSendThree (.init hinit) trivial ⟨?_, ?_, ?_⟩
    · decide
    · exact Or.inr rfl
    · exact Or.inr rfl
  exact ⟨(framingOk_of_reach _ ⟨fallbackEdge, fun _ => []⟩).1 hsn,
    (framingOk_of_reach (.start idleSn) _).2 hedge⟩

/-- The kernel takes the length and then one of the three bytes. -/
def shortEnv : Env :=
  { quietEnv with sends := Stream'.cons ⟨some 2, false⟩ (Stream'.const ⟨some 1, false⟩) }

/-- The connection stays in use with a part of a frame on it. -/
theorem not_framingOk_shortWrite :
    ∃ w, snSendMachine.Reach anyStep w ∧ ¬ SnFramingOk w := by
  refine ⟨_, .step (sendThree shortEnv) (accept_reach trivial) trivial trivial, ?_⟩
  intro h
  have hout : WholeFrames [0, 3, 1] := h.inUse 5 (by decide)
  refine Framing.Short.not_whole (fun _ hn => hn) (Or.inr ⟨?_, ?_, ?_⟩) (by decide) hout
  · decide
  · decide
  · decide

end N2n
