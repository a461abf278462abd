import N2nTun.SnHandlers

/-!
# Another stack

The same datagram is received with other contents of the stack.  The first stage of
`process_udp` takes the same decisions; only the stamp of a packet with a plain header is left
unset.  It is checked for communities with encrypted headers alone, so that most handlers do the
same for any stamp.

## Main definitions

* `Rx.withStack` — the same call on another stack.
* `World.IsPlain` — the stamp of a message is not looked at.

## Main results

* `World.dispatched_withStack` — **what is dispatched on another stack.**
* `World.handlePacket_withStack`, … — handlers that do not depend on the stack.
-/

namespace N2n

open Bytes

/-! ### The first stage -/

/-- The same call on another stack. -/
def Rx.withStack (rx : Rx) (s : Stack) : Rx := { rx with stack := s }

/-- The stamp that is passed in comes out again only if the trial fails. -/
theorem packetHeaderDecrypt_stamp (p : List UInt8) (n : UInt16) (name : List UInt8)
    (ctx iv : SpeckContext) (stamp stamp' : UInt64) :
    packetHeaderDecrypt p n name ctx iv stamp' = packetHeaderDecrypt p n name ctx iv stamp ∨
      (packetHeaderDecrypt p n name ctx iv stamp').ok = false ∧
        (packetHeaderDecrypt p n name ctx iv stamp).ok = false ∧
        (packetHeaderDecrypt p n name ctx iv stamp').packet =
          (packetHeaderDecrypt p n name ctx iv stamp).packet := by
  unfold packetHeaderDecrypt
  dsimp only
  split_ifs
  · exact Or.inl rfl
  · exact Or.inl rfl
  · exact Or.inr ⟨rfl, rfl, rfl⟩

/-- The loop over the communities does not depend on the stamp. -/
theorem decryptTrial_stamp (n : ℕ) (comms : List (ℕ × Community)) (udpBuf : List UInt8)
    (stamp stamp' : UInt64) (hashBuf : List UInt8) :
    decryptTrial n comms udpBuf stamp' hashBuf = decryptTrial n comms udpBuf stamp hashBuf := by
  induction comms generalizing udpBuf stamp stamp' hashBuf with
  | nil => rfl
  | cons e comms ih =>
    obtain ⟨p, comm⟩ := e
    rw [decryptTrial, decryptTrial]
    split_ifs with hnone
    · exact ih _ _ _ _
    · split
      · rename_i ctx iv hctx hiv
        dsimp only
        rcases packetHeaderDecrypt_stamp udpBuf (UInt16.ofNat n) comm.community.toList ctx iv stamp
          stamp' with h | ⟨hno', hno, hpacket⟩
        · rw [h]
        · -- the first trial fails, and the second one starts from another stamp
          rw [hno', hno, hpacket]
          simp only [Bool.false_eq_true, if_false]
          generalize (packetHeaderDecrypt udpBuf _ _ ctx iv stamp').stamp = s'
          generalize (packetHeaderDecrypt udpBuf _ _ ctx iv stamp).stamp = s
          generalize (packetHeaderDecrypt udpBuf _ _ ctx iv stamp).packet = udpBuf'
          split
          · rename_i ctx' iv' hctx' hiv'
            rcases packetHeaderDecrypt_stamp udpBuf' (UInt16.ofNat (n - regSupHashCheckLen))
              comm.community.toList ctx' iv' s s' with h | ⟨hno', hno, hpacket⟩
            · rw [h]
            · rw [hno', hno, hpacket]
              simp only [Bool.false_eq_true, if_false]
              exact ih _ _ _ _
          · rfl
      · rfl

/-- What `openHeader` gives on two stacks: the same, or a plain packet, whose stamp has not been
set, of a community without encrypted headers. -/
theorem Sn.openHeader_withStack (sss : Sn) (rx : Rx) (s : Stack) :
    (sss.openHeader (rx.withStack s)).1 = (sss.openHeader rx).1 ∧
      ((sss.openHeader (rx.withStack s)).2 = (sss.openHeader rx).2 ∨
        ∃ o : Opened, (sss.openHeader rx).2 = .accepted o ∧
          (sss.openHeader (rx.withStack s)).2 = .accepted { o with stamp := s.stamp } ∧
          ∀ p, o.comm = some p →
            ((sss.openHeader rx).1.communities.get? p).map (·.headerEncryption) ≠
              some .enabled) := by
  unfold Sn.openHeader Rx.withStack
  dsimp only
  by_cases hshort : rx.udpBuf.length < 24
  · simp [hshort]
  simp only [if_neg hshort]
  by_cases hplain : looksPlain rx.udpBuf = true
  · simp only [if_pos hplain]
    cases hfind : sss.communities.find? (·.hasName (cstr (rx.udpBuf.drop 4))) with
    | none => exact ⟨rfl, Or.inr ⟨_, rfl, rfl, fun p hp => by cases hp⟩⟩
    | some e =>
      obtain ⟨p, comm⟩ := e
      have hget : sss.communities.get? p = some comm :=
        (Table.find?_eq_some hfind).1
      dsimp only
      cases henc : comm.headerEncryption with
      | enabled => exact ⟨rfl, Or.inl rfl⟩
      | unknown =>
        refine ⟨rfl, Or.inr ⟨_, rfl, rfl, ?_⟩⟩
        rintro q ⟨⟩
        have hlocked := Table.get?_modify_self (f := Community.lockPlain) hget
        simp [Sn.modifyComm, hlocked, Community.lockPlain]
      | none =>
        refine ⟨rfl, Or.inr ⟨_, rfl, rfl, ?_⟩⟩
        rintro q ⟨⟩
        simp [hget, henc]
  · simp only [if_neg hplain]
    rw [decryptTrial_stamp _ _ _ rx.stack.stamp]
    exact ⟨rfl, Or.inl rfl⟩

/-- The stamp has no part in the checks before the dispatch. -/
theorem Sn.toDispatch_stamp (sss : Sn) (sender : Sock) (o : Opened) (t : UInt64) :
    sss.toDispatch sender { o with stamp := t } =
      (sss.toDispatch sender o).map fun d => { d with stamp := t } := by
  unfold Sn.toDispatch
  dsimp only
  split_ifs <;> rfl

namespace World

/-- The headers of the community of a message are not encrypted. -/
def IsPlain (w : World) (d : Dispatch) : Prop := ∀ p, d.comm = some p → w.isEnabled p = false

theorem opened_withStack (w : World) (rx : Rx) (s : Stack) :
    w.opened (rx.withStack s) = w.opened rx := by
  unfold opened
  rw [(w.sss.openHeader_withStack rx s).1]

/-- On another stack the same message is dispatched, but the stamp of a plain one. -/
theorem dispatched_withStack (w : World) (rx : Rx) (s : Stack) :
    w.dispatched (rx.withStack s) = w.dispatched rx ∨
      ∃ d, w.dispatched rx = some d ∧
        w.dispatched (rx.withStack s) = some { d with stamp := s.stamp } ∧
        (w.opened rx).IsPlain d := by
  have hopen := w.sss.openHeader_withStack rx s
  unfold dispatched
  rw [opened_withStack]
  rcases hopen.2 with h | ⟨o, ho, ho', hplain⟩
  · rw [h]
    exact Or.inl rfl
  · rw [ho, ho']
    show (w.opened rx).sss.toDispatch rx.sender { o with stamp := s.stamp } =
      (w.opened rx).sss.toDispatch rx.sender o ∨ ∃ d, (w.opened rx).sss.toDispatch rx.sender o =
        some d ∧ (w.opened rx).sss.toDispatch rx.sender { o with stamp := s.stamp } =
          some { d with stamp := s.stamp } ∧ (w.opened rx).IsPlain d
    rw [Sn.toDispatch_stamp]
    cases hd : (w.opened rx).sss.toDispatch rx.sender o with
    | none => exact Or.inl rfl
    | some d =>
      refine Or.inr ⟨d, rfl, rfl, fun p hp => ?_⟩
      rw [(Sn.toDispatch_eq_some hd).comm] at hp
      have hno := hplain p hp
      have hcomms : (w.opened rx).sss.communities = (w.sss.openHeader rx).1.communities := rfl
      unfold isEnabled
      rw [hcomms]
      cases hget : (w.sss.openHeader rx).1.communities.get? p with
      | none => rfl
      | some c =>
        rw [hget] at hno
        simpa using hno

/-! ### Handlers that do not look at the stack -/

variable {w : World} {d : Dispatch} {comm : ℕ} {t : UInt64}

theorem checkStamp_restamp (ht : t = d.stamp ∨ w.isEnabled comm = false) (mac : Mac)
    (allowJitter : Bool) :
    w.checkStamp comm { d with stamp := t } mac allowJitter =
      w.checkStamp comm d mac allowJitter := by
  rcases ht with rfl | hplain
  · rfl
  · simp [checkStamp, hplain]

theorem checkFresh_restamp (ht : t = d.stamp ∨ w.isEnabled comm = false) (mac : Mac) :
    w.checkFresh comm { d with stamp := t } mac = w.checkFresh comm d mac := by
  rcases ht with rfl | hplain
  · rfl
  · have hcheck : ∀ d : Dispatch, w.checkStamp comm d mac false = (w, true) := by
      intro d
      simp [checkStamp, hplain]
    simp [checkFresh, hcheck, hplain]

theorem handlePacket_withStack (ht : t = d.stamp ∨ w.isEnabled comm = false) (rx : Rx)
    (s : Stack) :
    w.handlePacket (rx.withStack s) { d with stamp := t } comm = w.handlePacket rx d comm := by
  unfold handlePacket
  dsimp only
  rw [checkStamp_restamp ht]
  rfl

theorem handleRegister_withStack (ht : t = d.stamp ∨ w.isEnabled comm = false) (rx : Rx)
    (s : Stack) :
    w.handleRegister (rx.withStack s) { d with stamp := t } comm = w.handleRegister rx d comm := by
  unfold handleRegister
  dsimp only
  rw [checkFresh_restamp ht]
  rfl

theorem handleUnregisterSuper_restamp (ht : t = d.stamp ∨ w.isEnabled comm = false) :
    w.handleUnregisterSuper { d with stamp := t } comm = w.handleUnregisterSuper d comm := by
  unfold handleUnregisterSuper
  dsimp only
  rw [checkFresh_restamp ht]
  rfl

theorem handleRegisterSuperNak_restamp (ht : t = d.stamp ∨ w.isEnabled comm = false) :
    w.handleRegisterSuperNak { d with stamp := t } comm = w.handleRegisterSuperNak d comm := by
  unfold handleRegisterSuperNak
  dsimp only
  rw [checkStamp_restamp ht]

theorem handlePeerInfo_withStack (ht : t = d.stamp ∨ w.isEnabled comm = false) (rx : Rx)
    (s : Stack) :
    w.handlePeerInfo (rx.withStack s) { d with stamp := t } comm = w.handlePeerInfo rx d comm := by
  unfold handlePeerInfo
  dsimp only
  rw [checkStamp_restamp ht]
  rfl

end World

end N2n
