import N2nTun.SnHandlers

/-!
# What is noted has no effect

The history in a `World` holds the stamps that were accepted for each MAC.  The supernode has
no such notes; no function of the model may look at them.  For the answer to a registration
this is proved here, function by function: with other notes it does the same.

## Main definitions

* `World.noting` — the same world with other notes.

## Main results

* `World.noting_finishRegistration` — **the answer to a registration does not depend on the
  notes.**
-/

namespace N2n

open Bytes

namespace World

/-- The same world with other notes on accepted stamps. -/
def noting (a : ℕ → Mac → List UInt64) (w : World) : World := { w with accepted := a }

variable (a : ℕ → Mac → List UInt64) (w : World)

theorem noting_sss : (w.noting a).sss = w.sss := rfl

theorem noting_setSss (f : Sn → Sn) : (w.noting a).setSss f = (w.setSss f).noting a := rfl

theorem noting_noteKeyTime (keyTime : UInt32) :
    (w.noting a).noteKeyTime keyTime = (w.noteKeyTime keyTime).noting a := rfl

theorem noting_rand : (w.noting a).rand = w.rand.map (noting a) id := rfl

theorem noting_encryptHeader (ctx iv : Option SpeckContext) (pkt : Pkt) (headerLen : ℕ) :
    (w.noting a).encryptHeader ctx iv pkt headerLen =
      (w.encryptHeader ctx iv pkt headerLen).map (noting a) id := by
  cases ctx with
  | none => rfl
  | some ctx => cases iv <;> rfl

theorem noting_sealStatic (comm : ℕ) (plain : List UInt8) :
    (w.noting a).sealStatic comm plain = (w.sealStatic comm plain).map (noting a) id := by
  unfold sealStatic
  rw [noting_sss]
  cases w.sss.communities.get? comm with
  | none => rfl
  | some c =>
    dsimp only
    rw [noting_encryptHeader, apply_ite (Prod.map _ _)]
    rfl

theorem noting_sendtoFdRaw (fd : ℤ) (pktbuf : List UInt8) :
    (w.noting a).sendtoFdRaw fd pktbuf = (w.sendtoFdRaw fd pktbuf).map (noting a) id := by
  unfold sendtoFdRaw
  rw [apply_ite (Prod.map _ _)]
  rfl

theorem noting_kcpSnSend (n : ℕ) :
    (w.noting a).kcpSnSend n = (w.kcpSnSend n).map (noting a) id := rfl

theorem noting_sendtoFd (fd : ℤ) (socket : Sock) (pktbuf : List UInt8) (policy : TransportPolicy) :
    (w.noting a).sendtoFd fd socket pktbuf policy =
      (w.sendtoFd fd socket pktbuf policy).map (noting a) id := by
  unfold sendtoFd
  rw [noting_sss, noting_kcpSnSend, noting_sendtoFdRaw]
  rcases w.kcpSnSend pktbuf.length with ⟨w₁, kcpSent⟩
  dsimp only [Prod.map, id]
  rw [noting_sendtoFdRaw]
  split_ifs <;> rfl

theorem noting_sendFrame (fd : ℤ) (socket : Sock) (pktbuf : List UInt8)
    (policy : TransportPolicy) :
    (w.noting a).sendFrame fd socket pktbuf policy =
      (w.sendFrame fd socket pktbuf policy).map (noting a) id := by
  unfold sendFrame
  rw [noting_sss, noting_sendtoFd, noting_sendtoFd]
  rcases w.sendtoFd fd socket (bytes16 (UInt16.ofNat pktbuf.length)) policy with ⟨w₁, sent⟩
  dsimp only [Prod.map, id]
  rw [noting_sendtoFd]
  split_ifs <;> rfl

theorem noting_sendtoSock (target : Target) (fd : ℤ) (socket : Sock) (pkt : Pkt)
    (policy : TransportPolicy) :
    (w.noting a).sendtoSock target fd socket pkt policy =
      (w.sendtoSock target fd socket pkt policy).map (noting a) id :=
  noting_sendFrame a (w.emit ⟨target, socket, fd, pkt⟩) fd socket pkt.bytes policy

theorem noting_sendtoPeer (comm : ℕ) (peer : PeerInfo) (pkt : Pkt) (drop : Bool)
    (policy : TransportPolicy) :
    (w.noting a).sendtoPeer comm peer pkt drop policy =
      (w.sendtoPeer comm peer pkt drop policy).map (noting a) id := by
  unfold sendtoPeer
  rw [noting_sss, noting_sendtoSock]
  split_ifs <;> rfl

/-- A loop whose body does not look at the notes. -/
theorem noting_foldl {α : Type} {body : World → α → World}
    (hbody : ∀ w x, body (noting a w) x = noting a (body w x)) (xs : List α) (w : World) :
    xs.foldl body (w.noting a) = (xs.foldl body w).noting a := by
  induction xs generalizing w with
  | nil => rfl
  | cons x xs ih => rw [List.foldl_cons, hbody, ih, List.foldl_cons]

theorem noting_forEdges (comm : ℕ) {body : World → ℕ → PeerInfo → World}
    (hbody : ∀ w p e, body (noting a w) p e = noting a (body w p e)) :
    (w.noting a).forEdges comm body = (w.forEdges comm body).noting a := by
  refine noting_foldl a (fun w p => ?_) _ w
  rw [noting_sss]
  cases (w.sss.edges comm).get? p with
  | none => rfl
  | some e => exact hbody w p e

theorem noting_forComms {body : World → ℕ → Community → World}
    (hbody : ∀ w p c, body (noting a w) p c = noting a (body w p c)) :
    (w.noting a).forComms body = (w.forComms body).noting a := by
  refine noting_foldl a (fun w p => ?_) _ w
  rw [noting_sss]
  cases w.sss.communities.get? p with
  | none => rfl
  | some c => exact hbody w p c

theorem noting_tryBroadcast (comm : Option ℕ) (cmn : Common) (srcMac : Mac) (fromSupernode : Bool)
    (pkt : Pkt) (now : ℤ) :
    (w.noting a).tryBroadcast comm cmn srcMac fromSupernode pkt now =
      (w.tryBroadcast comm cmn srcMac fromSupernode pkt now).noting a := by
  have hsend : ∀ (w : World) (c : Prop) [Decidable c] (comm : ℕ) (e : PeerInfo) (drop : Bool)
      (policy : TransportPolicy),
      (if c then ((w.noting a).sendtoPeer comm e pkt drop policy).1 else w.noting a) =
        (if c then (w.sendtoPeer comm e pkt drop policy).1 else w).noting a := by
    intro w c _ comm e drop policy
    rw [noting_sendtoPeer]
    split_ifs <;> rfl
  unfold tryBroadcast
  dsimp only
  rw [noting_sss, noting_forEdges a w _ (fun w _ e => hsend w _ _ e _ _), ← apply_ite (noting a)]
  cases comm with
  | none => rfl
  | some comm => exact noting_forEdges a _ _ (fun w _ e => hsend w _ _ e _ _)

theorem noting_sealHashed (comm : ℕ) (plain : List UInt8) (user : Option SnUser) :
    (w.noting a).sealHashed comm plain user =
      (w.sealHashed comm plain user).map (noting a) id := by
  unfold sealHashed
  rw [noting_sealStatic]
  rcases w.sealStatic comm plain with ⟨w₁, pkt⟩
  dsimp only [Prod.map, id]
  rw [noting_sss]
  split
  · split_ifs <;> rfl
  · rfl

theorem noting_sealNak (comm : ℕ) (plain hashBuf : List UInt8) :
    (w.noting a).sealNak comm plain hashBuf =
      (w.sealNak comm plain hashBuf).map (noting a) id := by
  unfold sealNak
  rw [noting_sealStatic]
  rcases w.sealStatic comm plain with ⟨w₁, pkt⟩
  dsimp only [Prod.map, id]
  rw [noting_sss]
  split
  · split_ifs <;> rfl
  · rfl

theorem noting_replySock (rx : Rx) (pkt : Pkt) :
    (w.noting a).replySock rx pkt = (w.replySock rx pkt).noting a := by
  unfold replySock
  rw [noting_sendtoSock]
  rfl

/-- A packet with an encrypted header to one peer. -/
theorem noting_sealTo (ctx iv : Option SpeckContext) (pkt : Pkt) (n comm : ℕ) (peer : PeerInfo) :
    ((((w.noting a).encryptHeader ctx iv pkt n).1.sendtoPeer comm peer
      ((w.noting a).encryptHeader ctx iv pkt n).2 false .default).1) =
      (((w.encryptHeader ctx iv pkt n).1.sendtoPeer comm peer
        (w.encryptHeader ctx iv pkt n).2 false .default).1).noting a := by
  rw [noting_encryptHeader]
  dsimp only [Prod.map, id]
  rw [noting_sendtoPeer]
  rfl

theorem noting_sendReRegisterSuper :
    (w.noting a).sendReRegisterSuper = w.sendReRegisterSuper.noting a := by
  refine noting_forComms a w fun w comm c => ?_
  dsimp only
  split_ifs
  · rfl
  · exact noting_forEdges a w comm fun w _ e => noting_sealTo a w _ _ _ _ comm e
  · rfl

theorem noting_reRegister (fed p : ℕ) (peer : PeerInfo) :
    reRegister fed (w.noting a) p peer = (reRegister fed w p peer).noting a := by
  unfold reRegister
  rw [noting_sss]
  cases w.sss.communities.get? fed with
  | none => rfl
  | some c =>
    rw [noting_rand]
    rcases w.rand with ⟨w₁, cookie⟩
    dsimp only [Prod.map, id]
    rw [noting_setSss]
    generalize w₁.setSss _ = w₂
    rw [noting_sss]
    exact noting_sealTo a w₂ _ _ _ _ fed peer

theorem noting_newKeyTime (keyTime : UInt32) :
    (w.noting a).newKeyTime keyTime = (w.newKeyTime keyTime).noting a := by
  unfold newKeyTime
  dsimp only
  rw [noting_sendReRegisterSuper, noting_noteKeyTime, noting_setSss, noting_setSss]
  exact noting_forEdges a _ _ fun w p e => noting_reRegister a w _ p e

theorem noting_takeKeyTime (keyTime : UInt32) :
    (w.noting a).takeKeyTime keyTime = (w.takeKeyTime keyTime).noting a := by
  unfold takeKeyTime
  rw [noting_sss, noting_newKeyTime, noting_noteKeyTime]
  split_ifs <;> rfl

/-! The answers to a registration. -/

theorem noting_nakRegistration (rx : Rx) (d : Dispatch) (comm : ℕ) (reg : RegisterSuper)
    (hashBuf : List UInt8) :
    (w.noting a).nakRegistration rx d comm reg hashBuf =
      (w.nakRegistration rx d comm reg hashBuf).noting a := by
  unfold nakRegistration
  dsimp only
  rw [noting_sealNak]
  exact noting_replySock a _ rx _

theorem noting_forwardRegistration (rx : Rx) (d : Dispatch) (comm : ℕ) (reg : RegisterSuper)
    (user : Option SnUser) :
    (w.noting a).forwardRegistration rx d comm reg user =
      (w.forwardRegistration rx d comm reg user).noting a := by
  unfold forwardRegistration
  dsimp only
  split_ifs
  · rfl
  · rw [noting_sealHashed]
    exact noting_tryBroadcast a _ _ _ _ _ _ _

theorem noting_keyTimeHandling (c : Community) (keyTime : UInt32) :
    (w.noting a).keyTimeHandling c keyTime =
      (w.keyTimeHandling c keyTime).map (noting a) id := by
  unfold keyTimeHandling
  rw [noting_takeKeyTime]
  split_ifs <;> rfl

theorem noting_ackRegistration (rx : Rx) (d : Dispatch) (comm : ℕ) (c : Community)
    (reg : RegisterSuper) (user : Option SnUser) (ack : RegisterSuperAck)
    (payloadBuf : List UInt8) :
    (w.noting a).ackRegistration rx d comm c reg user ack payloadBuf =
      (w.ackRegistration rx d comm c reg user ack payloadBuf).noting a := by
  unfold ackRegistration
  dsimp only
  rw [noting_forwardRegistration, noting_keyTimeHandling]
  rcases (w.forwardRegistration rx d comm reg user).keyTimeHandling c reg.keyTime with
    ⟨w₁, keyTime⟩
  dsimp only [Prod.map, id]
  rw [noting_sealHashed]
  exact noting_replySock a _ rx _

theorem noting_dropPeer (comm p : ℕ) (socketFd : ℤ) :
    (w.noting a).dropPeer comm p socketFd = (w.dropPeer comm p socketFd).noting a := by
  unfold dropPeer
  rw [noting_sss]
  split_ifs <;> rfl

theorem noting_associateEdge (rx : Rx) (comm : ℕ) (reg : RegisterSuper) :
    (w.noting a).associateEdge rx comm reg = (w.associateEdge rx comm reg).noting a := by
  have hassoc : (w.noting a).updateNodeSupernodeAssociation comm reg.edgeMac rx.sender rx.now =
      (w.updateNodeSupernodeAssociation comm reg.edgeMac rx.sender rx.now).noting a := rfl
  unfold associateEdge
  dsimp only
  rw [hassoc, noting_sss]
  split
  · exact noting_dropPeer a _ comm _ _
  · rfl

theorem noting_finishRegistration (rx : Rx) (d : Dispatch) (comm : ℕ) (c : Community)
    (reg : RegisterSuper) (hash : List UInt8 × Option SnUser) (ret : UpdateEdgeRet)
    (ack : RegisterSuperAck) (payloadBuf : List UInt8) :
    (w.noting a).finishRegistration rx d comm c reg hash ret ack payloadBuf =
      (w.finishRegistration rx d comm c reg hash ret ack payloadBuf).noting a := by
  unfold finishRegistration
  rw [noting_nakRegistration, noting_ackRegistration, noting_associateEdge]
  split_ifs <;> rfl

end World

end N2n
