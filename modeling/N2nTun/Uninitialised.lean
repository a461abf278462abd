import N2nTun.Uninitialised.Ack
import N2nTun.Uninitialised.Query
import N2nTun.Uninitialised.Registration

/-!
# Automatic variables that are not set

The supernode's `process_udp` is run twice on the same datagram, with other contents of its
stack.  Three kinds of messages make a difference: a QUERY_PEER that is answered from a `pi` with
unset fields, a REGISTER_SUPER whose answer counts an entry that was not written to
`payload_buf`, and a REGISTER_SUPER_ACK that is learned from although its list has not arrived
or its sockets, whose type is not set, are looked at.

## Main definitions

* `World.IgnoresStack` — the outcome is the same on every stack.
* `World.ReadsUnset` — a message of one of these kinds.

## Main results

* `ignoresStack_iff` — **the outcome depends on the stack only through these messages**, and
  does for the first two kinds.
-/

namespace N2n

open Bytes

namespace World

/-- The outcome of `process_udp` is the same on every stack.  (The variable `success` belongs to
`assign_one_ip_addr`.) -/
def IgnoresStack (w : World) (rx : Rx) : Prop :=
  ∀ s : Stack, s.success = rx.stack.success →
    (w.processUdp rx).SameOutcome (w.processUdp (rx.withStack s))

/-- The message is dealt with by a branch that reads bytes which have not been set. -/
def ReadsUnset (w : World) (rx : Rx) (d : Dispatch) : Prop :=
  d.cmn.pc = msgTypeRegisterSuper ∧ w.RegistrationOverflows rx d ∨
    d.cmn.pc = msgTypeQueryPeer ∧ w.AnswersUnset d ∨
    d.cmn.pc = msgTypeRegisterSuperAck ∧ ∃ comm, d.comm = some comm ∧ w.LearnsUnset rx d comm

theorem SameOutcome.refl (w : World) : w.SameOutcome w := ⟨rfl, rfl, rfl⟩

/-- The `switch` for messages that need a community. -/
theorem dispatch_comm {w : World} {r : Rx} {d : Dispatch} {comm : ℕ} (hcomm : d.comm = some comm)
    (hreg : d.cmn.pc ≠ msgTypeRegisterSuper) (hquery : d.cmn.pc ≠ msgTypeQueryPeer) :
    w.dispatch r d =
      if d.cmn.pc = msgTypePacket then w.handlePacket r d comm
      else if d.cmn.pc = msgTypeRegister then w.handleRegister r d comm
      else if d.cmn.pc = msgTypeUnregisterSuper then w.handleUnregisterSuper d comm
      else if d.cmn.pc = msgTypeRegisterSuperAck then w.handleRegisterSuperAck r d comm
      else if d.cmn.pc = msgTypeRegisterSuperNak then w.handleRegisterSuperNak d comm
      else if d.cmn.pc = msgTypePeerInfo then w.handlePeerInfo r d comm
      else w := by
  unfold dispatch
  rw [if_neg hreg, if_neg hquery, hcomm]

theorem dispatch_none {w : World} {r : Rx} {d : Dispatch} (hcomm : d.comm = none)
    (hreg : d.cmn.pc ≠ msgTypeRegisterSuper) (hquery : d.cmn.pc ≠ msgTypeQueryPeer) :
    w.dispatch r d = w := by
  unfold dispatch
  rw [if_neg hreg, if_neg hquery, hcomm]

/-- No other branch depends on the stack. -/
theorem dispatch_withStack {w : World} {rx : Rx} {d : Dispatch} {t : UInt64}
    (ht : t = d.stamp ∨ w.IsPlain d) (hno : ¬ w.ReadsUnset rx d) {s : Stack}
    (hs : s.success = rx.stack.success) :
    ∃ a, w.dispatch (rx.withStack s) { d with stamp := t } = (w.dispatch rx d).noting a := by
  have hof : ∀ {w w' : World}, w' = w → ∃ a, w' = w.noting a := fun {w _} h => ⟨w.accepted, h⟩
  by_cases hreg : d.cmn.pc = msgTypeRegisterSuper
  · unfold dispatch
    rw [if_pos hreg, if_pos hreg]
    exact handleRegisterSuper_withStack ht (fun h => hno (Or.inl ⟨hreg, h⟩)) hs
  by_cases hquery : d.cmn.pc = msgTypeQueryPeer
  · unfold dispatch
    rw [if_neg hreg, if_neg hreg, if_pos hquery, if_pos hquery]
    exact hof (handleQueryPeer_withStack rx ht (fun h => hno (Or.inr (Or.inl ⟨hquery, h⟩))) s)
  rcases Option.eq_none_or_eq_some d.comm with hcomm | ⟨comm, hcomm⟩
  · have hs := dispatch_none (w := w) (r := rx.withStack s) (d := { d with stamp := t }) hcomm
      hreg hquery
    rw [hs, dispatch_none hcomm hreg hquery]
    exact hof rfl
  · have hplain := ht.imp_right fun h => h comm hcomm
    have hack : d.cmn.pc = msgTypeRegisterSuperAck → ¬ w.LearnsUnset rx d comm := fun hpc h =>
      hno (Or.inr (Or.inr ⟨hpc, comm, hcomm, h⟩))
    have hs := dispatch_comm (w := w) (r := rx.withStack s) (d := { d with stamp := t }) hcomm
      hreg hquery
    rw [hs, dispatch_comm hcomm hreg hquery]
    refine hof ?_
    split_ifs with h₁ h₂ h₃ h₄ h₅ h₆
    · exact handlePacket_withStack hplain rx s
    · exact handleRegister_withStack hplain rx s
    · exact handleUnregisterSuper_restamp hplain
    · exact handleRegisterSuperAck_withStack hplain (hack h₄) s
    · exact handleRegisterSuperNak_restamp hplain
    · exact handlePeerInfo_withStack hplain rx s
    · rfl

/-- Unset bytes in an answer are seen. -/
theorem dispatch_unset {w : World} {rx : Rx} {d : Dispatch} (h : w.ReadsUnset rx d)
    (hack : d.cmn.pc ≠ msgTypeRegisterSuperAck) :
    ∃ s : Stack, s.success = rx.stack.success ∧ ∀ t, t = d.stamp ∨ w.IsPlain d →
      ¬ (w.dispatch rx d).SameOutcome (w.dispatch (rx.withStack s) { d with stamp := t }) := by
  rcases h with ⟨hpc, h⟩ | ⟨hpc, h⟩ | ⟨hpc, -⟩
  · refine ⟨Stack.refilled rx.stack, rfl, fun t ht => ?_⟩
    unfold dispatch
    dsimp only
    rw [if_pos hpc, if_pos hpc]
    exact handleRegisterSuper_unset ht h
  · obtain ⟨pi, hpi⟩ := handleQueryPeer_unset rx h
    refine ⟨{ rx.stack with pi := pi }, rfl, fun t ht => ?_⟩
    have hreg : d.cmn.pc ≠ msgTypeRegisterSuper := by
      rw [hpc]
      decide
    unfold dispatch
    dsimp only
    rw [if_neg hreg, if_neg hreg, if_pos hpc, if_pos hpc]
    exact hpi t ht
  · exact absurd hpc hack

theorem processUdp_some {w : World} {r : Rx} {d : Dispatch} (h : w.dispatched r = some d) :
    w.processUdp r = (w.opened r).dispatch r d := by
  simp [processUdp, h]

theorem processUdp_none {w : World} {r : Rx} (h : w.dispatched r = none) :
    w.processUdp r = w.opened r := by
  simp [processUdp, h]

end World

/-- **The outcome depends on the stack only through messages that are dealt with by a branch that
reads unset bytes**, and for a REGISTER_SUPER or a QUERY_PEER of this kind it does. -/
theorem ignoresStack_iff (w : World) (rx : Rx) :
    ((∀ d, w.dispatched rx = some d → ¬ (w.opened rx).ReadsUnset rx d) → w.IgnoresStack rx) ∧
      (w.IgnoresStack rx → ∀ d, w.dispatched rx = some d →
        d.cmn.pc ≠ msgTypeRegisterSuperAck → ¬ (w.opened rx).ReadsUnset rx d) := by
  constructor
  · intro hno s hs
    rcases w.dispatched_withStack rx s with heq | ⟨d, hd, hd', hplain⟩
    · -- the same message is dispatched, or none
      rcases Option.eq_none_or_eq_some (w.dispatched rx) with hd | ⟨d, hd⟩
      · rw [World.processUdp_none hd, World.processUdp_none (heq.trans hd), w.opened_withStack]
        exact .refl _
      · rw [World.processUdp_some hd, World.processUdp_some (heq.trans hd), w.opened_withStack]
        obtain ⟨a, ha⟩ := World.dispatch_withStack (t := d.stamp) (Or.inl rfl) (hno d hd) hs
        exact .of_noting ha
    · -- the header is plain, and the stamp is read from the stack
      rw [World.processUdp_some hd, World.processUdp_some hd', w.opened_withStack]
      obtain ⟨a, ha⟩ := World.dispatch_withStack (Or.inr hplain) (hno d hd) hs
      exact .of_noting ha
  · intro hsame d hd hack hreads
    obtain ⟨s, hs, hdiff⟩ := World.dispatch_unset hreads hack
    have h := hsame s hs
    rw [World.processUdp_some hd] at h
    rcases w.dispatched_withStack rx s with heq | ⟨d', hd₀, hd', hplain⟩
    · rw [World.processUdp_some (heq.trans hd), w.opened_withStack] at h
      exact hdiff d.stamp (Or.inl rfl) h
    · obtain rfl : d = d' := Option.some.inj (hd.symm.trans hd₀)
      rw [World.processUdp_some hd', w.opened_withStack] at h
      exact hdiff s.stamp (Or.inr hplain) h

theorem length_pingMac : ([2, 0, 0, 0, 0, 1] : List UInt8).length = 6 :=
  rfl

/-- A PING that arrives at a supernode. -/
def pingRx : Rx where
  sender := hostSock 1 7654
  socketFd := 3
  udpBuf := (Msg.queryPeer ⟨0, ⟨[2, 0, 0, 0, 0, 1], length_pingMac⟩, nullMac⟩).datagram []
    ⟨2, msgTypeQueryPeer, 0, List.Vector.replicate 20 0⟩ []
  now := 100
  stack := ⟨0, false, [], [], Sock.zero,
    ⟨0, nullMac, nullMac, Sock.zero, Sock.zero, 0, List.Vector.replicate 20 0, 0⟩⟩

/-- The PONG shows what is on the stack behind the text of the version. -/
theorem not_ignoresStack : ¬ ∀ (w : World) (rx : Rx), w.IgnoresStack rx := by
  intro h
  have hsame := (h (World.start idleSn) pingRx
    { pingRx.stack with pi := { pingRx.stack.pi with version := List.Vector.replicate 20 1 } }
    rfl).emitted
  revert hsame
  decide +kernel

end N2n
