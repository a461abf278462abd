import N2nTun.SnActs
import N2nTun.Uninitialised.Outcome
import N2nTun.Uninitialised.Stack

/-!
# The list of supernodes in a REGISTER_SUPER_ACK

The list is copied to `dec_tmpbuf`, unless the message is too short, and the socket of each
supernode to `payload_sock`, whose type is never set.  Neither matters as long as the list has
arrived and all supernodes in it are known by their MAC, since then their sockets are not looked
at.

## Main definitions

* `ListKnown` — the list is complete, and all in it are known.
* `World.LearnsUnset` — something is learned from bytes that have not been set.

## Main results

* `World.handleRegisterSuperAck_withStack` — **without this the stack does not matter.**
-/

namespace N2n

open Bytes

/-- The MAC in an entry of the list. -/
def listMac (dec : List UInt8) (i : ℕ) : Mac :=
  sliceVec (slice dec (i * regSuperAckPayloadEntrySize) regSuperAckPayloadEntrySize) 20 6

/-- All `numSn` entries of the list have arrived, and their MACs are those of supernodes in the
table. -/
def ListKnown (snList : Table PeerInfo) (dec : List UInt8) (numSn : ℕ) : Prop :=
  dec.length = numSn * regSuperAckPayloadEntrySize ∧ ∀ i < numSn,
    isNullMac (listMac dec i) = false ∧ (snList.find? (·.hasMac (listMac dec i))).isSome = true

/-- The list of a decoded REGISTER_SUPER_ACK: what has arrived, and behind it what was there. -/
theorem decodeRegisterSuperAck_copyTo (base : List UInt8) (c : Cursor) (tmpbuf : List UInt8) :
    (decodeRegisterSuperAck base c tmpbuf).out = ((decodeRegisterSuperAck base c []).out.1,
      copyTo tmpbuf (decodeRegisterSuperAck base c []).out.2) := by
  unfold decodeRegisterSuperAck
  dsimp only
  generalize decodeCookie 0 base c = cookie
  generalize decodeMac nullMac base cookie.cur = srcMac
  generalize decodeDevAddr base srcMac.cur = devAddr
  generalize decodeUint16 0 base devAddr.cur = lifetime
  generalize decodeSock Sock.zero base lifetime.cur = sock
  generalize decodeAuth base sock.cur = auth
  generalize decodeUint8 0 base auth.cur = numSn
  have hbuf : ∀ n, (decodeBuf tmpbuf n base numSn.cur).cur = (decodeBuf [] n base numSn.cur).cur ∧
      (decodeBuf tmpbuf n base numSn.cur).out =
        copyTo tmpbuf (decodeBuf [] n base numSn.cur).out := by
    intro n
    unfold decodeBuf decodeField
    split_ifs
    · exact ⟨rfl, rfl⟩
    · refine ⟨rfl, ?_⟩
      simp [copyTo]
  rw [(hbuf _).1, (hbuf _).2]

/-- An entry of a complete list is the same on every stack. -/
theorem slice_copyTo_entry {dec : List UInt8} {numSn i : ℕ}
    (hlen : dec.length = numSn * regSuperAckPayloadEntrySize) (hi : i < numSn)
    (tmpbuf : List UInt8) :
    slice (copyTo tmpbuf dec) (i * regSuperAckPayloadEntrySize) regSuperAckPayloadEntrySize =
      slice dec (i * regSuperAckPayloadEntrySize) regSuperAckPayloadEntrySize := by
  refine slice_congr fun k _ hk => ?_
  have hend : (i + 1) * regSuperAckPayloadEntrySize ≤ numSn * regSuperAckPayloadEntrySize :=
    Nat.mul_le_mul_right _ hi
  have hin : k < dec.length := by
    rw [Nat.add_mul, Nat.one_mul] at hend
    omega
  rw [copyTo, List.getD_eq_getElem?_getD, List.getElem?_append_left hin,
    ← List.getD_eq_getElem?_getD]

/-- A MAC is known exactly if some entry has it. -/
theorem find?_hasMac_isSome {t : Table PeerInfo} {mac : Mac} :
    (t.find? (·.hasMac mac)).isSome = true ↔ ∃ a ∈ t, a.hasMac mac = true := by
  rw [← not_iff_not, Bool.not_eq_true, Option.isSome_eq_false_iff, Option.isNone_iff_eq_none,
    Table.find?_eq_none]
  simp

/-- A supernode keeps its MAC when something else is written. -/
theorem find?_hasMac_modify {t : Table PeerInfo} {mac : Mac} {p : ℕ} {f : PeerInfo → PeerInfo}
    (hf : ∀ a, (f a).macAddr = a.macAddr) (h : (t.find? (·.hasMac mac)).isSome = true) :
    ((t.modify p f).find? (·.hasMac mac)).isSome = true := by
  rw [find?_hasMac_isSome] at h ⊢
  obtain ⟨a, ha, hmac⟩ := h
  obtain ⟨q, hq⟩ := Table.mem_iff_get?.mp ha
  by_cases hqp : q = p
  · subst hqp
    refine ⟨f a, Table.mem_of_get? (Table.get?_modify_self hq), ?_⟩
    rw [PeerInfo.hasMac, hf]
    exact hmac
  · exact ⟨a, Table.mem_of_get? ((Table.get?_modify_other hqp f).trans hq), hmac⟩

namespace World

/-- The entry of a known supernode is found by its MAC; its socket is not looked at. -/
theorem addSn_known {w : World} {mac : Mac} (hmac : isNullMac mac = false) {p : ℕ} {e : PeerInfo}
    (hfind : (w.sss.edges w.sss.federation).find? (·.hasMac mac) = some (p, e)) (sock : Sock)
    (skipAdd : SkipAdd) (hskip : skipAdd ≠ .added) :
    w.addSn sock mac skipAdd = (w, some p, skipAdd) := by
  have hlist : addSnToListByMacOrSock (w.sss.edges w.sss.federation) sock mac skipAdd
      (initialTimeStamp w.timeStamp.2) = (w.sss.edges w.sss.federation, some p, skipAdd) := by
    simp [addSnToListByMacOrSock, hmac, hfind]
  have hsame : w.setSss (fun sss => sss.modifyEdges sss.federation fun _ =>
      w.sss.edges w.sss.federation) = w := by
    unfold setSss Sn.modifyEdges Sn.modifyComm
    cases hget : w.sss.communities.get? w.sss.federation with
    | none => simp [Sn.edges, hget, Table.find?, Table.empty] at hfind
    | some c =>
      dsimp only
      have hsame : ∀ f : Community → Community, f c = c →
          w.sss.communities.modify w.sss.federation f = w.sss.communities := fun f hf =>
        (Table.modify_eq_self_iff hget).mpr hf
      rw [hsame]
      rw [Sn.edges_of_get? hget]
  unfold addSn
  dsimp only
  rw [hlist]
  dsimp only
  rw [if_neg hskip, hsame]

/-- A supernode that is known by its MAC is only given the socket of UDP. -/
theorem learnSn_known {w : World} {dec : List UInt8} {i : ℕ}
    (hmac : isNullMac (listMac dec i) = false) {p : ℕ} {e : PeerInfo}
    (hfind : (w.sss.edges w.sss.federation).find? (·.hasMac (listMac dec i)) = some (p, e))
    (payloadSock : Sock) (now : ℤ) :
    (learnSn payloadSock dec now w i).1 =
      w.modifySn p fun e => { e with socketFd := w.sss.sock } := by
  unfold learnSn
  dsimp only
  rw [show sliceVec (slice dec (i * regSuperAckPayloadEntrySize) regSuperAckPayloadEntrySize) 20 6 =
    listMac dec i from rfl, addSn_known hmac hfind _ .add (by decide)]
  rfl

/-- All supernodes of a list are known. -/
def KnowsAll (w : World) (dec : List UInt8) (numSn : ℕ) : Prop :=
  ∀ i < numSn, isNullMac (listMac dec i) = false ∧
    ((w.sss.edges w.sss.federation).find? (·.hasMac (listMac dec i))).isSome = true

/-- They still are when one of them has been dealt with, and what was done does not depend on
the sockets or on bytes behind the list. -/
theorem learnSn_withStack {w : World} {dec dec' : List UInt8} {numSn i : ℕ}
    (hknown : w.KnowsAll dec numSn) (hi : i < numSn)
    (hentry : slice dec' (i * regSuperAckPayloadEntrySize) regSuperAckPayloadEntrySize =
      slice dec (i * regSuperAckPayloadEntrySize) regSuperAckPayloadEntrySize)
    (sock sock' : Sock) (now : ℤ) :
    (learnSn sock' dec' now w i).1 = (learnSn sock dec now w i).1 ∧
      (learnSn sock dec now w i).1.KnowsAll dec numSn := by
  obtain ⟨hmac, hsome⟩ := hknown i hi
  obtain ⟨⟨p, e⟩, hfind⟩ := Option.isSome_iff_exists.mp hsome
  have hmac' : listMac dec' i = listMac dec i := by
    unfold listMac
    rw [hentry]
  rw [learnSn_known hmac hfind, learnSn_known (hmac' ▸ hmac) (hmac' ▸ hfind)]
  refine ⟨rfl, fun j hj => ⟨(hknown j hj).1, ?_⟩⟩
  have hedges : (w.modifySn p fun e => { e with socketFd := w.sss.sock }).sss.edges
      (w.modifySn p fun e => { e with socketFd := w.sss.sock }).sss.federation =
        (w.sss.edges w.sss.federation).modify p fun e => { e with socketFd := w.sss.sock } :=
    Sn.edges_modifyEdges_get? w.sss w.sss.federation (·.modify p _) rfl
  rw [hedges]
  exact find?_hasMac_modify (fun _ => rfl) (hknown j hj).2

/-- **Learning known supernodes does not depend on the stack.** -/
theorem learnSns_withStack {w : World} {r : Rx} {dec : List UInt8} {numSn : ℕ}
    (hlen : dec.length = numSn * regSuperAckPayloadEntrySize) (hknown : w.KnowsAll dec numSn)
    (s : Stack) :
    w.learnSns (r.withStack s) (copyTo s.decTmpbuf dec) numSn =
      w.learnSns r (copyTo r.stack.decTmpbuf dec) numSn := by
  have hfold : ∀ (is : List ℕ), (∀ i ∈ is, i < numSn) → ∀ (w : World), w.KnowsAll dec numSn →
      ∀ tmpbuf sock sock', (is.foldl (fun v i => learnSn v.2 (copyTo tmpbuf dec) r.now v.1 i)
        (w, sock')).1 = (is.foldl (fun v i => learnSn v.2 dec r.now v.1 i) (w, sock)).1 := by
    intro is
    induction is with
    | nil => intro _ w _ tmpbuf sock sock'; rfl
    | cons i is ih =>
      intro hlt w hknown tmpbuf sock sock'
      have hi : i < numSn := hlt i List.mem_cons_self
      obtain ⟨heq, hnext⟩ := learnSn_withStack hknown hi (slice_copyTo_entry hlen hi tmpbuf) sock
        sock' r.now
      rw [List.foldl_cons, List.foldl_cons]
      have hstep := ih (fun j hj => hlt j (List.mem_cons_of_mem _ hj)) _ hnext tmpbuf
        (learnSn sock dec r.now w i).2 (learnSn sock' (copyTo tmpbuf dec) r.now w i).2
      rw [← hstep, ← heq]
  have hrange : ∀ i ∈ List.range numSn, i < numSn := fun i hi => List.mem_range.mp hi
  unfold learnSns
  exact (hfold _ hrange w hknown s.decTmpbuf Sock.zero s.payloadSock).trans
    (hfold _ hrange w hknown r.stack.decTmpbuf Sock.zero r.stack.payloadSock).symm

/-- A REGISTER_SUPER_ACK is accepted whose list is not complete, or names a supernode whose MAC
is not known. -/
def LearnsUnset (w : World) (rx : Rx) (d : Dispatch) (comm : ℕ) : Prop :=
  let msg := (decodeRegisterSuperAck d.udpBuf d.cur []).out
  let checked := w.checkStamp comm d msg.1.srcMac false
  checked.2 = true ∧ ∃ c p scan, w.sss.communities.get? comm = some c ∧
    ¬ (d.fromSupernode = 0 ∨ c.isFederation = false) ∧
    let added := checked.1.addSn rx.sender msg.1.srcMac .skip
    let w := added.1.modifySn p fun e => { e with lastSeen := rx.now }
    added.2.1 = some p ∧ (w.sss.edges w.sss.federation).get? p = some scan ∧
      msg.1.cookie = scan.lastCookie ∧
      ¬ ListKnown (w.sss.edges w.sss.federation) msg.2 msg.1.numSn.toNat

/-- What is done with an accepted REGISTER_SUPER_ACK. -/
def learnFromAck (w : World) (rx : Rx) (ack : RegisterSuperAck) (dec : List UInt8) : World :=
  match w.addSn rx.sender ack.srcMac .skip with
  | (w, none, _) => w
  | (w, some p, _) =>
    let w := w.modifySn p fun e => { e with lastSeen := rx.now }
    match (w.sss.edges w.sss.federation).get? p with
    | none => w
    | some scan =>
      if ack.cookie = scan.lastCookie then
        (w.learnSns rx dec ack.numSn.toNat).takeKeyTime ack.keyTime
      else w

theorem handleRegisterSuperAck_eq (w : World) (rx : Rx) (d : Dispatch) (comm : ℕ) :
    w.handleRegisterSuperAck rx d comm =
      match w.sss.communities.get? comm with
      | none => w
      | some c =>
        if d.fromSupernode = 0 ∨ c.isFederation = false then w
        else afterCheck (w.checkStamp comm d
            (decodeRegisterSuperAck d.udpBuf d.cur []).out.1.srcMac false) fun w =>
          w.learnFromAck rx (decodeRegisterSuperAck d.udpBuf d.cur []).out.1
            (copyTo rx.stack.decTmpbuf (decodeRegisterSuperAck d.udpBuf d.cur []).out.2) := by
  unfold handleRegisterSuperAck
  rw [decodeRegisterSuperAck_copyTo]
  rfl

theorem learnFromAck_withStack {w : World} {rx : Rx} {ack : RegisterSuperAck} {dec : List UInt8}
    (h : ∀ p scan, (w.addSn rx.sender ack.srcMac .skip).2.1 = some p →
      let v := (w.addSn rx.sender ack.srcMac .skip).1.modifySn p fun e =>
        { e with lastSeen := rx.now }
      (v.sss.edges v.sss.federation).get? p = some scan → ack.cookie = scan.lastCookie →
        ListKnown (v.sss.edges v.sss.federation) dec ack.numSn.toNat) (s : Stack) :
    w.learnFromAck (rx.withStack s) ack (copyTo s.decTmpbuf dec) =
      w.learnFromAck rx ack (copyTo rx.stack.decTmpbuf dec) := by
  unfold learnFromAck
  dsimp only [Rx.withStack]
  generalize w.addSn rx.sender ack.srcMac .skip = added at h
  obtain ⟨w₁, p, skipAdd⟩ := added
  cases p with
  | none => rfl
  | some p =>
    dsimp only at h ⊢
    have hknown := fun scan => h p scan rfl
    generalize (w₁.modifySn p fun e => { e with lastSeen := rx.now }) = w₂ at hknown
    cases hscan : (w₂.sss.edges w₂.sss.federation).get? p with
    | none => rfl
    | some scan =>
      dsimp only
      by_cases hcookie : ack.cookie = scan.lastCookie
      · obtain ⟨hlen, hall⟩ := hknown scan hscan hcookie
        have hlearn := learnSns_withStack (r := rx) hlen hall s
        dsimp only [Rx.withStack] at hlearn
        rw [if_pos hcookie, if_pos hcookie, hlearn]
      · rw [if_neg hcookie, if_neg hcookie]

theorem handleRegisterSuperAck_withStack {w : World} {rx : Rx} {d : Dispatch} {comm : ℕ}
    {t : UInt64} (ht : t = d.stamp ∨ w.isEnabled comm = false) (hno : ¬ w.LearnsUnset rx d comm)
    (s : Stack) :
    w.handleRegisterSuperAck (rx.withStack s) { d with stamp := t } comm =
      w.handleRegisterSuperAck rx d comm := by
  rw [handleRegisterSuperAck_eq, handleRegisterSuperAck_eq]
  cases hget : w.sss.communities.get? comm with
  | none => rfl
  | some c =>
    dsimp only
    have hfrom : Dispatch.fromSupernode { d with stamp := t } = d.fromSupernode := rfl
    rw [hfrom]
    by_cases hsn : d.fromSupernode = 0 ∨ c.isFederation = false
    · rw [if_pos hsn, if_pos hsn]
    rw [if_neg hsn, if_neg hsn, checkStamp_restamp ht]
    unfold afterCheck
    by_cases hcheck : (w.checkStamp comm d
        (decodeRegisterSuperAck d.udpBuf d.cur []).out.1.srcMac false).2 = true
    · rw [if_pos hcheck, if_pos hcheck]
      refine learnFromAck_withStack (fun p scan hp hscan hcookie => ?_) s
      by_contra hunknown
      exact hno ⟨hcheck, c, p, scan, hget, hsn, hp, hscan, hcookie, hunknown⟩
    · rw [if_neg hcheck, if_neg hcheck]

end World

end N2n
