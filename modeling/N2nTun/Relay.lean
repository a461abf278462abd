import N2nTun.HeaderRoundTrip
import N2nTun.SnMachine

/-!
# Relaying

What a supernode sends for a message of some community, and to whom.  A copy that leaves
the community says that it comes from a supernode, and a message that says so stays in the
community.

## Main definitions

* `World.emissions` — the calls of `sendto_sock` in `process_udp`.
* `Dispatch.Regular` — a message of a community other than the federation.
* `Relayed` — a message on its way from supernode to supernode.

## Main results

* `World.emissions_spec` — what is sent, over all message types.
* `one_hop` — **a message is relayed between supernodes at most once.**
* `copy_ttl_iff` — **the TTL of a copy.**
-/

namespace N2n

open Bytes

/-! ### The received header -/

/-- The loop over the communities keeps the length of the packet. -/
theorem decryptTrial_length {udpSize : ℕ} {comms : List (ℕ × Community)} {udpBuf : List UInt8}
    {stamp : UInt64} {hashBuf : List UInt8} {o : Opened} (hlen : 24 ≤ udpBuf.length)
    (h : decryptTrial udpSize comms udpBuf stamp hashBuf = .accepted o) :
    o.udpBuf.length = udpBuf.length := by
  induction comms generalizing udpBuf stamp hashBuf with
  | nil => exact absurd h (by simp [decryptTrial])
  | cons e comms ih =>
    obtain ⟨p, comm⟩ := e
    have hname : comm.community.toList.length = communitySize := comm.community.2
    rw [decryptTrial] at h
    split_ifs at h with hnone
    · exact ih hlen h
    · split at h
      · rename_i ctx iv _ _
        have hdyn := packetHeaderDecrypt_length hlen hname (UInt16.ofNat udpSize) ctx iv stamp
        dsimp only at h
        split_ifs at h with hd
        · cases h
          exact hdyn
        · split at h
          · rename_i ctx' iv' _ _
            have hstatic := packetHeaderDecrypt_length (hdyn ▸ hlen) hname
              (UInt16.ofNat (udpSize - regSupHashCheckLen)) ctx' iv' (packetHeaderDecrypt udpBuf
                (UInt16.ofNat udpSize) comm.community.toList ctx iv stamp).stamp
            split_ifs at h with hd'
            · cases h
              exact hstatic.trans hdyn
            · exact (ih (by omega) h).trans (hstatic.trans hdyn)
          · cases h
      · cases h

theorem Sn.openHeader_length {sss : Sn} {rx : Rx} {o : Opened}
    (h : (sss.openHeader rx).2 = .accepted o) : 24 ≤ o.udpBuf.length := by
  unfold Sn.openHeader at h
  dsimp only at h
  split_ifs at h with hshort hplain
  · have hlen : 24 ≤ rx.udpBuf.length := not_lt.mp hshort
    split at h
    · cases h
      exact hlen
    · split at h <;> cases h <;> exact hlen
  · have hlen : 24 ≤ rx.udpBuf.length := not_lt.mp hshort
    split at h
    · rename_i htrial
      cases h
      rw [decryptTrial_length hlen htrial]
      exact hlen
    · rename_i hno
      exact absurd h (hno o)

/-- A common part that is there is read from the first bytes. -/
theorem decodeCommon_header {out : Common} {base : List UInt8} (h : 24 ≤ base.length)
    (hret : 0 ≤ (decodeCommon out base ⟨base.length, 0⟩).ret) :
    (decodeCommon out base ⟨base.length, 0⟩).out.ttl = ttlOf base ∧
      (decodeCommon out base ⟨base.length, 0⟩).out.flags = be16At base 2 &&& flagsBitsMask ∧
      (decodeCommon out base ⟨base.length, 0⟩).out.community = sliceVec base 4 20 := by
  have hver : decodeUint8 0 base ⟨base.length, 0⟩ = ⟨1, base.getD 0 0, ⟨base.length - 1, 1⟩⟩ :=
    decodeField_of_le (by dsimp only; omega) _ _
  have httl : decodeUint8 out.ttl base ⟨base.length - 1, 1⟩ =
      ⟨1, base.getD 1 0, ⟨base.length - 1 - 1, 2⟩⟩ := decodeField_of_le (by dsimp only; omega) _ _
  have hflags : decodeUint16 out.flags base ⟨base.length - 1 - 1, 2⟩ =
      ⟨2, be16At base 2, ⟨base.length - 1 - 1 - 2, 4⟩⟩ :=
    decodeField_of_le (by dsimp only; omega) _ _
  have hname : (decodeVec out.community base ⟨base.length - 1 - 1 - 2, 4⟩).out =
      sliceVec base 4 20 :=
    congrArg Decoded.out (decodeField_of_le (by dsimp only; omega) _ _)
  unfold decodeCommon at hret ⊢
  dsimp only at hret ⊢
  rw [hver] at hret ⊢
  split_ifs at hret ⊢
  · exact absurd hret (show ¬ (0 : ℤ) ≤ -1 by decide)
  · dsimp only
    rw [httl, hflags]
    exact ⟨rfl, rfl, hname⟩

/-- What is dispatched has the TTL less one and the flags of the received header. -/
theorem World.dispatched_header {w : World} {rx : Rx} {d : Dispatch}
    (h : w.dispatched rx = some d) :
    1 ≤ ttlOf d.udpBuf ∧ d.cmn.ttl = ttlOf d.udpBuf - 1 ∧
      (IsFlagged d.udpBuf ↔ d.isFromSn = true) := by
  unfold World.dispatched at h
  split at h
  · rename_i o hopen
    have hadm := Sn.toDispatch_eq_some h
    obtain ⟨httl, hflags, -⟩ := decodeCommon_header (Sn.openHeader_length hopen) hadm.decoded
    rw [isFromSn_eq, bne_iff_ne, hadm.cmn, hadm.udpBuf, IsFlagged]
    refine ⟨httl ▸ hadm.ttl, congrArg (· - 1) httl, ?_⟩
    have hbits : flagsBitsMask &&& flagsFromSupernode = flagsFromSupernode := by decide
    rw [show o.common.out.flags = be16At o.udpBuf 2 &&& flagsBitsMask from hflags,
      UInt16.and_assoc, hbits]
  · cases h

/-! ### What is sent -/

variable {P : Emission → Prop} {U : World → World → Prop}

/-- An act sends nothing, or one packet. -/
theorem Act.emitted {w w' : World} (h : Act P U w w') :
    w'.emitted = w.emitted ∨
      (∃ e, P e ∧ w'.emitted = w.emitted ++ [e] ∧ ∀ p, e.target = .entry p →
        ∃ scan ∈ w.sss.edges p, e.dest = fillSockaddr scan.sock) ∨
      U w w' := by
  cases h with
  | emit e hP hdest => exact Or.inr (Or.inl ⟨e, hP, rfl, hdest⟩)
  | update hU _ _ => exact Or.inr (Or.inr hU)
  | _ => exact Or.inl rfl

/-- The edges of `sss'` outside the federation have sockets that edges of `sss` had. -/
def Sn.SocksFrom (sss sss' : Sn) : Prop :=
  ∀ p, p ≠ sss.federation → ∀ e' ∈ sss'.edges p, ∃ e ∈ sss.edges p, e'.sock = e.sock

/-- An edge is in the table of its community. -/
theorem Sn.mem_edges {sss : Sn} {p : ℕ} {e : PeerInfo} (h : e ∈ sss.edges p) :
    ∃ c, sss.communities.get? p = some c ∧ e ∈ c.edges := by
  cases hget : sss.communities.get? p with
  | none =>
    rw [Sn.edges, hget] at h
    cases h
  | some c =>
    rw [Sn.edges_of_get? hget] at h
    exact ⟨c, rfl, h⟩

namespace Sn.SocksFrom

variable {sss sss₁ sss₂ : Sn}

theorem refl (sss : Sn) : sss.SocksFrom sss := fun _ _ e he => ⟨e, he, rfl⟩

theorem trans (h : sss.SocksFrom sss₁) (hfed : sss₁.federation = sss.federation)
    (h' : sss₁.SocksFrom sss₂) : sss.SocksFrom sss₂ := by
  intro p hp e₂ he₂
  obtain ⟨e₁, he₁, hsock₁⟩ := h' p (hfed ▸ hp) e₂ he₂
  obtain ⟨e, he, hsock⟩ := h p hp e₁ he₁
  exact ⟨e, he, hsock₁.trans hsock⟩

theorem of_shrinks (h : sss.Shrinks sss₁) : sss.SocksFrom sss₁ := by
  intro p _ e he
  obtain ⟨c, hget, hmem⟩ := Sn.mem_edges he
  obtain ⟨q, hq⟩ := Table.mem_iff_get?.mp hmem
  rcases h.comms p c hget with ⟨c₀, hget₀, -, hsub⟩ | ⟨-, name, rfl⟩
  · rw [Sn.edges_of_get? hget₀]
    exact ⟨e, Table.mem_of_get? (hsub q e hq), rfl⟩
  · cases hq

/-- A write to the entries of one community that keeps their sockets. -/
theorem modifyEdges (sss : Sn) (comm : ℕ) {f : Table PeerInfo → Table PeerInfo}
    (hf : comm = sss.federation ∨ ∀ t, ∀ e' ∈ f t, ∃ e ∈ t, e'.sock = e.sock) :
    sss.SocksFrom (sss.modifyEdges comm f) := by
  intro p hp e he
  obtain ⟨c, hget, hmem⟩ := Sn.mem_edges he
  obtain ⟨c₀, hget₀, -, hc⟩ := Sn.modifyEdges_get? hget
  rw [Sn.edges_of_get? hget₀]
  rcases hc with ⟨rfl, rfl⟩ | ⟨-, rfl⟩
  · rcases hf with hfed | hf
    · exact absurd hfed hp
    · exact hf c₀.edges e hmem
  · exact ⟨e, hmem, rfl⟩

end Sn.SocksFrom


/-- What is known of a packet that the supernode `sss` sends for the message `d`. -/
structure Emits (sss : Sn) (d : Dispatch) (e : Emission) : Prop where
  /-- it is a copy or an answer, or it is there because of a new key time -/
  sent : RelayOk sss.federation d e ∨ d.Federated sss ∧
    (d.cmn.pc = msgTypeRegisterSuper ∨ d.cmn.pc = msgTypeRegisterSuperAck) ∧
    ttlOf e.pkt.plain = defaultTtl
  /-- the edges it goes to were there before -/
  dest : d.cmn.pc ≠ msgTypeRegisterSuper → ∀ p, p ≠ sss.federation → e.target = .entry p →
    ∃ scan ∈ sss.edges p, e.dest = fillSockaddr scan.sock

/-- What has been sent since `w`, and where the edges come from. -/
structure Emitting (w : World) (d : Dispatch) (v : World) : Prop where
  federation : v.sss.federation = w.sss.federation
  socks : d.cmn.pc ≠ msgTypeRegisterSuper → w.sss.SocksFrom v.sss
  emitted : ∃ new, v.emitted = w.emitted ++ new ∧ ∀ e ∈ new, Emits w.sss d e

/-- The emissions of a message are found one after the other. -/
theorem Emitting.act {w v v' : World} {d : Dispatch} (h : Emitting w d v)
    (hP : ∀ e, P e → RelayOk w.sss.federation d e ∨ d.Federated w.sss ∧
      (d.cmn.pc = msgTypeRegisterSuper ∨ d.cmn.pc = msgTypeRegisterSuperAck) ∧
      ttlOf e.pkt.plain = defaultTtl)
    (hU : U v v' → d.cmn.pc = msgTypeRegisterSuper ∧ v'.emitted = v.emitted)
    (hact : Act P U v v') : Emitting w d v' where
  federation := hact.federation_eq.trans h.federation
  socks := by
    intro hpc
    refine (h.socks hpc).trans h.federation ?_
    rcases hact.shrinks with hs | ⟨f, -, rfl⟩ | hupdate
    · exact .of_shrinks hs
    · exact .modifyEdges v.sss _ (Or.inl rfl)
    · exact absurd (hU hupdate).1 hpc
  emitted := by
    obtain ⟨new, hnew, hall⟩ := h.emitted
    rcases hact.emitted with hsame | ⟨e, he, happ, hdest⟩ | hupdate
    · exact ⟨new, hsame.trans hnew, hall⟩
    · refine ⟨new ++ [e], by rw [happ, hnew, List.append_assoc], ?_⟩
      intro e' he'
      rcases List.mem_append.mp he' with hold | hsingle
      · exact hall e' hold
      · obtain rfl := List.mem_singleton.mp hsingle
        refine ⟨hP e' he, fun hpc p hp htarget => ?_⟩
        obtain ⟨scan, hscan, hsock⟩ := hdest p htarget
        obtain ⟨old, hmem, heq⟩ := h.socks hpc p hp scan hscan
        exact ⟨old, hmem, by rw [hsock, fillSockaddr, fillSockaddr, heq]⟩
    · exact ⟨new, (hU hupdate).2.trans hnew, hall⟩

theorem World.updateEdgeAt_emitted (w : World) (rx : Rx) (d : Dispatch) (comm : ℕ) (c : Community)
    (reg : RegisterSuper) : (w.updateEdgeAt rx d comm c reg).1.emitted = w.emitted := by
  unfold World.updateEdgeAt
  dsimp only
  split_ifs <;> rfl

theorem Checked.emitted_eq {w w₁ : World} {d : Dispatch} (h : Checked w d w₁) :
    w₁.emitted = w.emitted := by
  have hstamp : ∀ comm mac jitter, (w.checkStamp comm d mac jitter).1.emitted = w.emitted := by
    intro comm mac jitter
    unfold World.checkStamp
    split_ifs
    · unfold World.findEdgeTimeStampAndVerify
      dsimp only
      split <;> rfl
    · rfl
  cases h with
  | none => rfl
  | stamp comm mac jitter _ => exact hstamp comm mac jitter
  | fresh comm mac _ _ =>
    rw [← hstamp comm mac false]
    unfold World.checkFresh
    split
    · rename_i heq
      rw [heq]
      split_ifs <;> rfl
    · rename_i heq
      rw [heq]

theorem Checked.socksFrom {w w₁ : World} {d : Dispatch} (h : Checked w d w₁) :
    w.sss.SocksFrom w₁.sss := by
  rcases h.cases with heq | ⟨p, q, stamp, heq⟩
  · rw [heq]
    exact .refl w.sss
  · rw [heq]
    refine .modifyEdges w.sss p (Or.inr fun t e' he' => ?_)
    rcases Table.mem_modify he' with hold | ⟨e, he, rfl⟩
    · exact ⟨e', hold, rfl⟩
    · exact ⟨e, Table.mem_of_get? he, rfl⟩

/-- A message has sent what it should when it has been dispatched. -/
theorem World.dispatch_emitting (w : World) (rx : Rx) (d : Dispatch) :
    Emitting w d (w.dispatch rx d) := by
  have hU : d.cmn.pc = msgTypeRegisterSuper → ∀ v v', Updates w.sss rx d v v' →
      d.cmn.pc = msgTypeRegisterSuper ∧ v'.emitted = v.emitted := by
    rintro hpc v v' ⟨-, c, -, -, -, rfl⟩
    exact ⟨hpc, v.updateEdgeAt_emitted rx d _ c _⟩
  obtain ⟨w₁, hcheck, hacts⟩ := w.dispatch_acts rx d
    (P := fun e => RelayOk w.sss.federation d e ∨ d.Federated w.sss ∧
      (d.cmn.pc = msgTypeRegisterSuper ∨ d.cmn.pc = msgTypeRegisterSuperAck) ∧
      ttlOf e.pkt.plain = defaultTtl)
    (fun e he => Or.inl he) (fun hfed hpc e he => Or.inr ⟨hfed, hpc, he⟩) hU
  refine hacts.invariant (I := Emitting w d)
    (fun _ _ hv hact => hv.act (fun _ h => h) (fun h => h) hact) ?_
  exact ⟨hcheck.federation_eq, fun _ => hcheck.socksFrom, [], by simp [hcheck.emitted_eq],
    by simp⟩

theorem Sn.openHeader_edges_eq (sss : Sn) (rx : Rx) (p : ℕ) :
    (sss.openHeader rx).1.edges p = sss.edges p := by
  have hsame : ∀ r (f : Community → Community), (∀ c, (f c).edges = c.edges) →
      (sss.modifyComm r f).edges p = sss.edges p := by
    intro r f hf
    unfold Sn.edges Sn.modifyComm
    dsimp only
    rw [Table.get?_modify]
    split_ifs
    · cases sss.communities.get? p with
      | none => rfl
      | some c => exact hf c
    · rfl
  rcases sss.openHeader_cases rx with heq | ⟨r, c, -, ⟨-, heq⟩ | heq⟩
  · rw [heq]
  · rw [heq]
    exact hsame r _ fun _ => rfl
  · rw [heq]
    exact hsame r _ fun _ => rfl

/-- The first stage does not turn a community into the federation. -/
theorem Dispatch.Federated.of_openHeader {sss : Sn} {rx : Rx} {d : Dispatch}
    (h : d.Federated (sss.openHeader rx).1) : d.Federated sss := by
  obtain ⟨p, c, hp, hget, hc⟩ := h
  rcases (sss.openHeader_edges rx).comms p c hget with ⟨c₀, hget₀, hflag, -⟩ | ⟨-, name, rfl⟩
  · exact ⟨p, c₀, hp, hget₀, hflag ▸ hc⟩
  · cases hc

namespace World

/-- The calls of `sendto_sock` in `process_udp`. -/
def emissions (w : World) (rx : Rx) : List Emission :=
  (w.processUdp rx).emitted.drop w.emitted.length

/-- **What is sent is sent for a message**, as `Emits` says. -/
theorem emissions_spec {w : World} {rx : Rx} {e : Emission} (he : e ∈ w.emissions rx) :
    ∃ d, w.dispatched rx = some d ∧ Emits w.sss d e := by
  unfold emissions processUdp at he
  cases hd : w.dispatched rx with
  | none =>
    rw [hd] at he
    simp [opened] at he
  | some d =>
    rw [hd] at he
    obtain ⟨-, -, new, hnew, hall⟩ := (w.opened rx).dispatch_emitting rx d
    have hsame : (w.opened rx).emitted = w.emitted := rfl
    dsimp only at he
    rw [hnew, hsame, List.drop_left] at he
    obtain ⟨hsent, hdest⟩ := hall e he
    have hfed : (w.opened rx).sss.federation = w.sss.federation :=
      w.sss.openHeader_federation rx
    refine ⟨d, rfl, ?_, fun hpc p hp htarget => ?_⟩
    · rw [hfed] at hsent
      exact hsent.imp id fun h => ⟨h.1.of_openHeader, h.2⟩
    · obtain ⟨scan, hscan, hsock⟩ := hdest hpc p (hfed ▸ hp) htarget
      exact ⟨scan, w.sss.openHeader_edges_eq rx p ▸ hscan, hsock⟩

end World

/-! ### At most one hop -/

/-- The message is of a community other than the federation. -/
def Dispatch.Regular (d : Dispatch) (sss : Sn) : Prop :=
  d.comm ≠ some sss.federation ∧ ¬ d.Federated sss

/-- The packet goes to an entry of the table of edges of the message's own community. -/
def Dispatch.ToOwnEdge (d : Dispatch) (sss : Sn) (e : Emission) : Prop :=
  ∃ p, d.comm = some p ∧ e.target = .entry p ∧
    ∃ scan ∈ sss.edges p, e.dest = fillSockaddr scan.sock

/-- The packet goes to an entry of the federation or to the socket of an association. -/
def Emission.ToSupernode (e : Emission) (sss : Sn) : Prop :=
  e.target = .entry sss.federation ∨ ∃ p, e.target = .assoc p

/-- What is sent for a message of a community, in one state. -/
structure RelaysOnce (sss : Sn) (d : Dispatch) (e : Emission) : Prop where
  /-- copies for other supernodes say where they come from -/
  flagged : e.ToSupernode sss → IsFlagged e.pkt.plain
  /-- a message from a supernode stays with the edges, or is answered -/
  stays : IsFlagged d.udpBuf → d.ToOwnEdge sss e ∨ e.target = .sender
  /-- what is neither flagged nor an answer stays with the edges -/
  own : ¬ IsFlagged e.pkt.plain → d.ToOwnEdge sss e

theorem World.relaysOnce {w : World} {rx : Rx} {d : Dispatch} {e : Emission}
    (hd : w.dispatched rx = some d) (hreg : d.Regular w.sss) (he : e ∈ w.emissions rx) :
    RelaysOnce w.sss d e := by
  obtain ⟨d', hd', hsent, hdest⟩ := w.emissions_spec he
  obtain rfl := Option.some.inj (hd.symm.trans hd')
  have hok : RelayOk w.sss.federation d e := hsent.resolve_right fun h => hreg.2 h.1
  have hown : d.Own e → d.ToOwnEdge w.sss e := by
    rintro ⟨p, hp, htarget⟩
    have hne : p ≠ w.sss.federation := by
      rintro rfl
      exact hreg.1 hp
    refine ⟨p, hp, htarget, hdest (fun hpc => hne ?_) p hne htarget⟩
    exact hok.registration hpc p htarget
  refine ⟨fun hsn => hok.flagged ?_, fun hflag => ?_, fun hno => ?_⟩
  · rintro ⟨p, hp, htarget⟩
    rcases hsn with hfed | ⟨q, hassoc⟩
    · rw [htarget] at hfed
      cases hfed
      exact hreg.1 hp
    · rw [htarget] at hassoc
      cases hassoc
  · exact (hok.oneHop ((World.dispatched_header hd).2.2.mp hflag)).imp hown id
  · by_contra hno'
    exact hno (hok.flagged fun h => hno' (hown h))

section Network

-- the sockets of supernodes
variable (isSn : Sock → Prop)

/-- The edges in the tables of a supernode, outside the federation, have sockets of edges. -/
def EdgesOnly (w : World) : Prop :=
  ∀ p, p ≠ w.sss.federation → ∀ scan ∈ w.sss.edges p, ¬ isSn (fillSockaddr scan.sock)

/-- The supernode in the state `w` passes the message `d`, which came in as `rx`, on to
another supernode as `e`. -/
structure Hop (w : World) (rx : Rx) (d : Dispatch) (e : Emission) : Prop where
  dispatched : w.dispatched rx = some d
  regular : d.Regular w.sss
  emitted : e ∈ w.emissions rx
  copy : e.target ≠ .sender
  toSn : isSn e.dest

/-- A message has been relayed `n` times between supernodes of a network, the last time as
`e`.  At every hop the supernode may be in any state of the network; the message that it
dispatches is the one that was sent. -/
inductive Relayed (net : World → Prop) : ℕ → Emission → Prop
  | first {w : World} {rx : Rx} {d : Dispatch} {e : Emission} (hw : net w)
      (hop : Hop isSn w rx d e) : Relayed net 1 e
  | next {n : ℕ} {e₀ : Emission} (h : Relayed net n e₀) {w : World} {rx : Rx} {d : Dispatch}
      {e : Emission} (hw : net w) (hsame : d.udpBuf = e₀.pkt.plain)
      (hop : Hop isSn w rx d e) : Relayed net (n + 1) e

variable {isSn}

/-- What goes to another supernode carries the flag. -/
theorem Hop.flagged {w : World} {rx : Rx} {d : Dispatch} {e : Emission} (hop : Hop isSn w rx d e)
    (hw : EdgesOnly isSn w) : IsFlagged e.pkt.plain := by
  by_contra hno
  obtain ⟨p, hp, -, scan, hscan, hdest⟩ :=
    (World.relaysOnce hop.dispatched hop.regular hop.emitted).own hno
  refine hw p ?_ scan hscan (hdest ▸ hop.toSn)
  rintro rfl
  exact hop.regular.1 hp

theorem Relayed.flagged {net : World → Prop} (hnet : ∀ w, net w → EdgesOnly isSn w) {n : ℕ}
    {e : Emission} (h : Relayed isSn net n e) : IsFlagged e.pkt.plain := by
  cases h with
  | first hw hop => exact hop.flagged (hnet _ hw)
  | next _ hw _ hop => exact hop.flagged (hnet _ hw)

end Network

/-- An entry for the host 192.0.2.`b` that has just been seen. -/
def hostPeer (b : UInt8) : PeerInfo :=
  { PeerInfo.zero with
    macAddr := hostMac b
    sock := hostSock b 7654
    socketFd := 3
    lastSeen := 100
    hashKey := hostMac b }

/-- A supernode that knows an edge of the community "net" and another supernode. -/
def relaySn : Sn :=
  (netSn.modifyEdges 0 (·.add (hostPeer 9))).modifyEdges 1 (·.add (hostPeer 1))

/-- The PACKET with the flags `flags` from the host 2 to the MAC `dst`, which arrives from the
host `sender`. -/
def packetRx (sender : UInt8) (flags : UInt16) (dst : Mac) : Rx where
  sender := hostSock sender 7654
  socketFd := 3
  udpBuf := (Msg.packet ⟨hostMac 2, dst, .zero, 1, 0⟩).datagram (List.replicate 256 0)
    ⟨2, msgTypePacket, flags, netName⟩ [1, 2, 3]
  now := 100
  stack := zeroStack

/-- The types of the messages that a supernode passes on. -/
def forwardedTypes : List UInt8 :=
  [msgTypePacket, msgTypeRegister, msgTypeRegisterSuper, msgTypeRegisterSuperNak,
    msgTypeQueryPeer, msgTypePeerInfo]

/-- Copies of the message get the TTL less one.  A registration gets a new header, with the
default TTL; a PACKET or REGISTER that comes from a supernode is passed on as it is. -/
def Dispatch.Decremented (d : Dispatch) : Prop :=
  if d.cmn.pc = msgTypeRegisterSuper then ttlOf d.udpBuf = defaultTtl + 1
  else ¬ ((d.cmn.pc = msgTypePacket ∨ d.cmn.pc = msgTypeRegister) ∧ IsFlagged d.udpBuf)

/-- What is sent on has the TTL of a copy. -/
theorem Emits.ttl {sss : Sn} {d : Dispatch} {e : Emission} (h : Emits sss d e)
    (hpc : d.cmn.pc ∈ forwardedTypes) (htarget : e.target ≠ .sender) :
    ttlOf e.pkt.plain = d.copyTtl := by
  rcases h.sent with hok | ⟨-, hreg | hack, httl⟩
  · exact hok.ttl htarget
  · rw [httl, Dispatch.copyTtl, if_pos hreg]
  · rw [hack] at hpc
    exact absurd hpc (by decide)

theorem sub_one_ne_self (t : UInt8) : t ≠ t - 1 := by grind

/-- **The TTL of a copy.**  Every message that is processed has a TTL of at least 1, and a copy
has the TTL less one exactly if the message is one whose header is encoded anew from the
received one. -/
theorem copy_ttl_iff {w : World} {rx : Rx} {d : Dispatch} (hd : w.dispatched rx = some d)
    (hpc : d.cmn.pc ∈ forwardedTypes) :
    1 ≤ ttlOf d.udpBuf ∧ ∀ e ∈ w.emissions rx, e.target ≠ .sender →
      (ttlOf e.pkt.plain = ttlOf d.udpBuf - 1 ↔ d.Decremented) := by
  obtain ⟨hone, httl, hflag⟩ := World.dispatched_header hd
  refine ⟨hone, fun e he htarget => ?_⟩
  obtain ⟨d', hd', hemits⟩ := World.emissions_spec he
  obtain rfl := Option.some.inj (hd.symm.trans hd')
  rw [hemits.ttl hpc htarget, Dispatch.copyTtl, Dispatch.Decremented, hflag]
  split_ifs with hreg hsn
  · constructor <;> intro h <;> grind
  · exact iff_of_false (sub_one_ne_self _) (not_not.mpr hsn)
  · exact iff_of_true httl hsn

/-- A PACKET of an edge to the edge 1 has its TTL decremented. -/
theorem copy_ttl_iff_edge :
    ∃ d, (World.start relaySn).dispatched (packetRx 2 0 (hostMac 1)) = some d ∧
      ∃ e ∈ (World.start relaySn).emissions (packetRx 2 0 (hostMac 1)),
        ttlOf e.pkt.plain = ttlOf d.udpBuf - 1 := by
  have hsent : ∃ e ∈ (World.start relaySn).emissions (packetRx 2 0 (hostMac 1)),
      e.target ≠ .sender := by decide +kernel
  have htype : ((World.start relaySn).dispatched (packetRx 2 0 (hostMac 1))).map
      (fun d => (d.cmn.pc, be16At d.udpBuf 2 &&& flagsFromSupernode)) =
      some (msgTypePacket, 0) := by decide +kernel
  obtain ⟨e, he, htarget⟩ := hsent
  obtain ⟨d, hd, -⟩ := World.emissions_spec he
  rw [hd, Option.map_some, Option.some.injEq, Prod.mk.injEq] at htype
  refine ⟨d, hd, e, he, ((copy_ttl_iff hd ?_).2 e he htarget).mpr ?_⟩
  · rw [htype.1]
    decide
  · rw [Dispatch.Decremented, htype.1, if_neg (by decide)]
    exact fun h => h.2 htype.2

/-- A PACKET that another supernode has passed on to the edge 1 keeps its TTL. -/
theorem not_copy_ttl_fromSn :
    ¬ ∀ (w : World) (rx : Rx) (d : Dispatch), w.dispatched rx = some d →
      d.cmn.pc ∈ forwardedTypes → 1 ≤ ttlOf d.udpBuf ∧
        ∀ e ∈ w.emissions rx, e.target ≠ .sender → ttlOf e.pkt.plain = ttlOf d.udpBuf - 1 := by
  intro h
  let rx := packetRx 9 flagsFromSupernode (hostMac 1)
  have hsent : ∃ e ∈ (World.start relaySn).emissions rx,
      e.target ≠ .sender ∧ ttlOf e.pkt.plain = 2 := by decide +kernel
  have htype : ((World.start relaySn).dispatched rx).map
      (fun d => (d.cmn.pc, ttlOf d.udpBuf)) = some (msgTypePacket, 2) := by decide +kernel
  obtain ⟨e, he, htarget, httl⟩ := hsent
  obtain ⟨d, hd, -⟩ := World.emissions_spec he
  rw [hd, Option.map_some, Option.some.injEq, Prod.mk.injEq] at htype
  have hcopy := (h _ rx d hd (by rw [htype.1]; decide)).2 e he htarget
  rw [httl, htype.2] at hcopy
  exact absurd hcopy (by decide)

end N2n
