import N2nTun.Uninitialised.Outcome
import N2nTun.Uninitialised.Stack

/-!
# Unset bytes in a PEER_INFO

A QUERY_PEER is answered from `pi`, which is filled in field by field.  For a known edge the
load, the uptime and the version are forgotten; in a PONG the version is written by `snprintf`,
which stops behind the text.

## Main definitions

* `World.AnswersUnset` — the answer has unset bytes.

## Main results

* `World.handleQueryPeer_withStack` — without such an answer the stack does not matter.
* `World.handleQueryPeer_unset` — **with such an answer it does.**
-/

namespace N2n

open Bytes

namespace World

/-- The check of the stamp of a QUERY_PEER. -/
def checkedQuery (w : World) (d : Dispatch) : World × Bool :=
  match d.comm with
  | some comm => w.checkStamp comm d (decodeQueryPeer d.udpBuf d.cur).out.srcMac true
  | none => (w, true)

/-- The answer to a QUERY_PEER has unset bytes: behind the text of the version in a PONG, and in
the load, the uptime and the version of a known edge, which are not filled in at all. -/
def AnswersUnset (w : World) (d : Dispatch) : Prop :=
  let query := (decodeQueryPeer d.udpBuf d.cur).out
  (d.comm.isNone && w.sss.lockCommunities && !w.sss.allowsCommunity d.cmn.community) = false ∧
    (w.checkedQuery d).2 = true ∧
    if isNullMac query.targetMac then (cstr w.sss.version.toList).length < 19
    else ∃ comm, d.comm = some comm ∧
      (((w.checkedQuery d).1.sss.edges comm).find? (·.hasMac query.targetMac)).isSome = true

theorem encodePeerInfo_bytes (cmn : Common) (pi : PeerInfoMsg) :
    (encodePeerInfo (encodeStart []) cmn pi).bytes =
      cmn.header ++ (Msg.peerInfo pi).body cmn := ((Msg.peerInfo pi).encode_wrote [] cmn).bytes

/-- The text of the version and the 0 that ends it. -/
def versionText (w : World) : List UInt8 := (cstr w.sss.version.toList).take 19 ++ [0]

theorem length_versionText (w : World) :
    w.versionText.length = min 19 (cstr w.sss.version.toList).length + 1 := by
  simp [versionText]

/-- What is sent of a PONG's version: the text, and behind it what was there. -/
theorem pong_version (w : World) (rx : Rx) (query : QueryPeer) :
    (w.pong rx query).version.toList =
      w.versionText ++ rx.stack.pi.version.toList.drop w.versionText.length := by
  have hlen := w.length_versionText
  have hver : rx.stack.pi.version.toList.length = 20 := rx.stack.pi.version.2
  show slice (overwrite rx.stack.pi.version.toList 0 w.versionText) 0 20 = _
  have hover : overwrite rx.stack.pi.version.toList 0 w.versionText =
      w.versionText ++ rx.stack.pi.version.toList.drop w.versionText.length := by
    rw [overwrite, List.take_zero, List.nil_append, Nat.zero_add]
  have hfull : (w.versionText ++
      rx.stack.pi.version.toList.drop w.versionText.length).length = 20 := by
    rw [List.length_append, List.length_drop, hver]
    omega
  have hslice := slice_left (w.versionText ++
    rx.stack.pi.version.toList.drop w.versionText.length) []
  rw [hfull, List.append_nil] at hslice
  rw [hover, hslice]

/-- A PONG: all but the version is set. -/
theorem pong_body (w : World) (rx : Rx) (d : Dispatch) (query : QueryPeer) :
    ∃ start : List UInt8, ∀ s : Stack,
      (Msg.peerInfo (w.pong (rx.withStack s) query)).body
          (answerCommon d msgTypePeerInfo flagsFromSupernode) =
        start ++ (w.pong (rx.withStack s) query).version.toList := by
  have hno : ¬ (answerCommon d msgTypePeerInfo flagsFromSupernode).flags &&& flagsSocket ≠ 0 :=
    (by decide : ¬ flagsFromSupernode &&& flagsSocket ≠ 0)
  refine ⟨bytes16 0 ++ (w.sss.macAddr.toList ++ (query.targetMac.toList ++ (rx.sender.wire ++
    (bytes32 w.gatherData ++
      bytes32 (UInt64.ofInt (rx.now - w.sss.startTime)).toUInt32)))), fun s => ?_⟩
  simp only [Msg.body, Sock.wireIf, if_neg hno, List.nil_append, List.append_assoc]
  rfl

theorem sealDynamic_emitted (w : World) (comm : ℕ) (plain : List UInt8) (n : ℕ) :
    (w.sealDynamic comm plain n).1.emitted = w.emitted := by
  unfold sealDynamic encryptHeader
  dsimp only
  split
  · split_ifs
    · split <;> rfl
    · rfl
  · rfl

theorem sealIf_emitted (w : World) (comm : Option ℕ) (plain : List UInt8) :
    (w.sealIf comm plain).1.emitted = w.emitted := by
  cases comm with
  | none => rfl
  | some comm => exact sealDynamic_emitted w comm plain _

theorem sealIf_inj (w : World) (comm : Option ℕ) {cmn : Common} {rest rest' : List UInt8}
    (hlen : rest'.length = rest.length)
    (h : (w.sealIf comm (cmn.header ++ rest')).2.bytes =
      (w.sealIf comm (cmn.header ++ rest)).2.bytes) : rest' = rest := by
  cases comm with
  | none => exact List.append_cancel_left h
  | some comm =>
    unfold sealIf at h
    dsimp only at h
    rw [List.length_append, hlen, ← List.length_append] at h
    exact sealDynamic_inj w comm _ hlen h

theorem answerPing_eq {w : World} {rx : Rx} {d : Dispatch} {query : QueryPeer} {b : List UInt8}
    (h : (encodePeerInfo (encodeStart []) (answerCommon d msgTypePeerInfo flagsFromSupernode)
      (w.pong rx query)).bytes = b) :
    w.answerPing rx d query = (w.sealIf d.comm b).1.replySock rx (w.sealIf d.comm b).2 := by
  subst h
  rfl

/-- A PONG does not depend on the stack if its version has no unset bytes. -/
theorem answerPing_withStack {w : World} {rx : Rx} {d : Dispatch} {query : QueryPeer}
    (h : ¬ (cstr w.sss.version.toList).length < 19) (s : Stack) (t : UInt64) :
    w.answerPing (rx.withStack s) { d with stamp := t } query = w.answerPing rx d query := by
  obtain ⟨start, hstart⟩ := w.pong_body rx d query
  have hversion : ∀ rx : Rx, (w.pong rx query).version.toList = w.versionText := by
    intro rx
    have hlen := w.length_versionText
    have hver : rx.stack.pi.version.toList.length = 20 := rx.stack.pi.version.2
    rw [pong_version, List.drop_eq_nil_of_le (by omega), List.append_nil]
  have hbytes : ∀ s, (encodePeerInfo (encodeStart [])
      (answerCommon d msgTypePeerInfo flagsFromSupernode) (w.pong (rx.withStack s) query)).bytes =
        (answerCommon d msgTypePeerInfo flagsFromSupernode).header ++
          (start ++ w.versionText) := by
    intro s
    rw [encodePeerInfo_bytes, hstart, hversion]
  have hs : w.answerPing (rx.withStack s) { d with stamp := t } query = _ :=
    answerPing_eq (hbytes s)
  have hrx : w.answerPing (rx.withStack rx.stack) d query = _ := answerPing_eq (hbytes rx.stack)
  exact hs.trans hrx.symm

/-- **A PONG whose version has unset bytes depends on them.** -/
theorem answerPing_unset {w : World} (rx : Rx) (d : Dispatch) (query : QueryPeer)
    (h : (cstr w.sss.version.toList).length < 19) :
    ∃ pi : PeerInfoMsg, ∀ t, ¬ (w.answerPing rx d query).SameOutcome
      (w.answerPing (rx.withStack { rx.stack with pi := pi }) { d with stamp := t } query) := by
  -- another last byte of the version
  let v := rx.stack.pi.version.toList.getD 19 0 + 1
  refine ⟨{ rx.stack.pi with version := List.Vector.replicate 20 v }, fun t hsame => ?_⟩
  let s : Stack :=
    { rx.stack with pi := { rx.stack.pi with version := List.Vector.replicate 20 v } }
  obtain ⟨start, hstart⟩ := w.pong_body rx d query
  have hbytes : ∀ s, (encodePeerInfo (encodeStart [])
      (answerCommon d msgTypePeerInfo flagsFromSupernode) (w.pong (rx.withStack s) query)).bytes =
        (answerCommon d msgTypePeerInfo flagsFromSupernode).header ++
          (start ++ (w.pong (rx.withStack s) query).version.toList) := by
    intro s
    rw [encodePeerInfo_bytes, hstart]
  have hs : w.answerPing (rx.withStack s) { d with stamp := t } query = _ :=
    answerPing_eq (hbytes s)
  have hrx : w.answerPing rx d query = _ := answerPing_eq (hbytes rx.stack)
  have hone : ∀ rx' : Rx, (w.pong rx' query).version.toList.length = 20 := fun rx' =>
    (w.pong rx' query).version.2
  have hseal := hsame.answer (w := w) (r := rx)
    (by rw [hrx, replySock_emitted, sealIf_emitted])
    (by rw [hs, replySock_emitted, sealIf_emitted]; rfl)
  have hrest := w.sealIf_inj d.comm
    (by rw [List.length_append, List.length_append, hone, hone]) hseal
  have hver := List.append_cancel_left hrest
  rw [pong_version, pong_version] at hver
  have htail := List.append_cancel_left hver
  have hlen := w.length_versionText
  have hlast := congrArg (·.getD (18 - (cstr w.sss.version.toList).length) 0) htail
  simp only [List.getD_eq_getElem?_getD, List.getElem?_drop] at hlast
  have hidx : w.versionText.length + (18 - (cstr w.sss.version.toList).length) = 19 := by omega
  rw [hidx] at hlast
  have hv : (rx.withStack s).stack.pi.version.toList[19]? = some v := rfl
  rw [hv, Option.getD_some, ← List.getD_eq_getElem?_getD] at hlast
  have hne : ∀ u : UInt8, u + 1 ≠ u := fun u => by grind
  exact hne _ hlast

/-- The answer for a known edge: load, uptime and version are not set. -/
theorem peerAnswer_body (rx : Rx) (query : QueryPeer) (scan : PeerInfo) (cmn : Common)
    (hsock : cmn.flags &&& flagsSocket ≠ 0 → scan.preferredSock.family ≠ afInvalid) :
    ∃ start : List UInt8, ∀ s : Stack,
      (Msg.peerInfo (peerAnswer (rx.withStack s) query scan)).body cmn =
        start ++ (bytes32 s.pi.load ++ (bytes32 s.pi.uptime.toUInt32 ++ s.pi.version.toList)) := by
  refine ⟨bytes16 0 ++ (query.srcMac.toList ++ (query.targetMac.toList ++ (scan.sock.wire ++
    scan.preferredSock.wireIf cmn))), fun s => ?_⟩
  have hpref : (peerAnswer (rx.withStack s) query scan).preferredSock.wireIf cmn =
      scan.preferredSock.wireIf cmn := by
    unfold Sock.wireIf
    split_ifs with hflag
    · rw [peerAnswer, if_pos (hsock hflag)]
    · rfl
  simp only [Msg.body, hpref, List.append_assoc]
  rfl

/-- **The answer for a known edge depends on what has not been set.** -/
theorem answerQuery_unset {w : World} (rx : Rx) (d : Dispatch) (comm : ℕ) (query : QueryPeer)
    (h : ((w.sss.edges comm).find? (·.hasMac query.targetMac)).isSome = true) :
    ∃ pi : PeerInfoMsg, ∀ t, ¬ (w.answerQuery rx d comm query).SameOutcome
      (w.answerQuery (rx.withStack { rx.stack with pi := pi }) { d with stamp := t } comm
        query) := by
  obtain ⟨⟨p, scan⟩, hfind⟩ := Option.isSome_iff_exists.mp h
  refine ⟨{ rx.stack.pi with load := rx.stack.pi.load + 1 }, fun t hsame => ?_⟩
  let flags :=
    if scan.preferredSock.family ≠ afInvalid then flagsFromSupernode ||| flagsSocket
    else flagsFromSupernode
  have hsock : (answerCommon d msgTypePeerInfo flags).flags &&& flagsSocket ≠ 0 →
      scan.preferredSock.family ≠ afInvalid := by
    intro hflag hinv
    refine hflag ?_
    show flags &&& flagsSocket = 0
    simp only [flags, if_neg (not_not.mpr hinv)]
    rfl
  obtain ⟨start, hstart⟩ :=
    peerAnswer_body rx query scan (answerCommon d msgTypePeerInfo flags) hsock
  let b (s : Stack) : List UInt8 := (answerCommon d msgTypePeerInfo flags).header ++
    (start ++ (bytes32 s.pi.load ++ (bytes32 s.pi.uptime.toUInt32 ++ s.pi.version.toList)))
  have hanswer : ∀ s t, w.answerQuery (rx.withStack s) { d with stamp := t } comm query =
      (w.sealIf (some comm) (b s)).1.replySock rx (w.sealIf (some comm) (b s)).2 := by
    intro s t
    have hbytes : (encodePeerInfo (encodeStart []) (answerCommon d msgTypePeerInfo flags)
        (peerAnswer (rx.withStack s) query scan)).bytes = b s := by
      rw [encodePeerInfo_bytes, hstart]
    rw [← hbytes]
    unfold answerQuery
    rw [hfind]
    rfl
  have hrx := hanswer rx.stack d.stamp
  have hlen : ∀ s : Stack, (start ++ (bytes32 s.pi.load ++ (bytes32 s.pi.uptime.toUInt32 ++
      s.pi.version.toList))).length = start.length + (4 + (4 + 20)) := by
    intro s
    have hver : s.pi.version.toList.length = 20 := s.pi.version.2
    simp only [List.length_append, length_bytes32, hver]
  have hseal := hsame.answer (w := w) (r := rx)
    (by rw [show w.answerQuery rx d comm query = _ from hrx, replySock_emitted, sealIf_emitted])
    (by rw [hanswer, replySock_emitted, sealIf_emitted])
  have hrest := w.sealIf_inj (some comm) (by rw [hlen, hlen]) hseal
  have hload := (List.append_inj (List.append_cancel_left hrest) rfl).1
  have hword := congrArg (fun b => be32At (b ++ []) 0) hload
  simp only [be32At_bytes32] at hword
  have hne : ∀ u : UInt32, u + 1 ≠ u := fun u => by grind
  exact hne _ hword

theorem checkedQuery_restamp {w : World} {d : Dispatch} {t : UInt64}
    (ht : t = d.stamp ∨ w.IsPlain d) : w.checkedQuery { d with stamp := t } = w.checkedQuery d := by
  unfold checkedQuery
  dsimp only
  cases hcomm : d.comm with
  | none => rfl
  | some comm => exact checkStamp_restamp (ht.imp_right fun h => h comm hcomm) _ _

/-- `handleQueryPeer`, with the answer apart. -/
theorem handleQueryPeer_eq (w : World) (rx : Rx) (d : Dispatch) :
    w.handleQueryPeer rx d =
      if d.comm.isNone && w.sss.lockCommunities && !w.sss.allowsCommunity d.cmn.community then w
      else afterCheck (w.checkedQuery d) fun w =>
        let query := (decodeQueryPeer d.udpBuf d.cur).out
        if isNullMac query.targetMac then w.answerPing rx d query
        else
          match d.comm with
          | none => w
          | some comm => w.answerQuery rx d comm query := rfl

/-- The version of the supernode is not touched by the check of a stamp. -/
theorem checkedQuery_version (w : World) (d : Dispatch) :
    (w.checkedQuery d).1.sss.version = w.sss.version := by
  unfold checkedQuery checkStamp findEdgeTimeStampAndVerify
  split
  · split_ifs
    · dsimp only
      split <;> rfl
    · rfl
  · rfl

theorem handleQueryPeer_withStack {w : World} {d : Dispatch} {t : UInt64} (rx : Rx)
    (ht : t = d.stamp ∨ w.IsPlain d) (hno : ¬ w.AnswersUnset d) (s : Stack) :
    w.handleQueryPeer (rx.withStack s) { d with stamp := t } = w.handleQueryPeer rx d := by
  rw [handleQueryPeer_eq, handleQueryPeer_eq, checkedQuery_restamp ht]
  dsimp only
  by_cases hlock : (d.comm.isNone && w.sss.lockCommunities &&
      !w.sss.allowsCommunity d.cmn.community) = true
  · rw [if_pos hlock, if_pos hlock]
  rw [if_neg hlock, if_neg hlock]
  have hversion := w.checkedQuery_version d
  unfold afterCheck
  by_cases hcheck : (w.checkedQuery d).2 = true
  swap
  · rw [if_neg hcheck, if_neg hcheck]
  rw [if_pos hcheck, if_pos hcheck]
  dsimp only
  have hset : ¬ if isNullMac (decodeQueryPeer d.udpBuf d.cur).out.targetMac then
      (cstr w.sss.version.toList).length < 19
    else ∃ comm, d.comm = some comm ∧ (((w.checkedQuery d).1.sss.edges comm).find?
      (·.hasMac (decodeQueryPeer d.udpBuf d.cur).out.targetMac)).isSome = true :=
    fun h => hno ⟨by simpa using hlock, hcheck, h⟩
  by_cases hnull : isNullMac (decodeQueryPeer d.udpBuf d.cur).out.targetMac = true
  · rw [if_pos hnull] at hset
    rw [if_pos hnull, if_pos hnull]
    exact answerPing_withStack (by rwa [hversion]) s t
  · rw [if_neg hnull] at hset
    rw [if_neg hnull, if_neg hnull]
    cases hcomm : d.comm with
    | none => rfl
    | some comm =>
      -- the edge is not known, and the query is passed on
      have hunknown : ((w.checkedQuery d).1.sss.edges comm).find?
          (·.hasMac (decodeQueryPeer d.udpBuf d.cur).out.targetMac) = none := by
        rw [← Option.not_isSome_iff_eq_none]
        exact fun hsome => hset ⟨comm, hcomm, hsome⟩
      dsimp only
      unfold answerQuery
      rw [hunknown]
      rfl

theorem handleQueryPeer_unset {w : World} (rx : Rx) {d : Dispatch} (h : w.AnswersUnset d) :
    ∃ pi : PeerInfoMsg, ∀ t, t = d.stamp ∨ w.IsPlain d → ¬ (w.handleQueryPeer rx d).SameOutcome
      (w.handleQueryPeer (rx.withStack { rx.stack with pi := pi }) { d with stamp := t }) := by
  obtain ⟨hlock, hcheck, hunset⟩ := h
  have hversion := w.checkedQuery_version d
  have hrun : ∀ rx t, t = d.stamp ∨ w.IsPlain d →
      w.handleQueryPeer rx { d with stamp := t } =
        if isNullMac (decodeQueryPeer d.udpBuf d.cur).out.targetMac then
          (w.checkedQuery d).1.answerPing rx { d with stamp := t }
            (decodeQueryPeer d.udpBuf d.cur).out
        else
          match d.comm with
          | none => (w.checkedQuery d).1
          | some comm => (w.checkedQuery d).1.answerQuery rx { d with stamp := t } comm
            (decodeQueryPeer d.udpBuf d.cur).out := by
    intro rx t ht
    rw [handleQueryPeer_eq, checkedQuery_restamp ht]
    dsimp only
    rw [hlock, if_neg Bool.false_ne_true, afterCheck, if_pos hcheck]
  have hrx := hrun rx d.stamp (Or.inl rfl)
  by_cases hnull : isNullMac (decodeQueryPeer d.udpBuf d.cur).out.targetMac = true
  · rw [if_pos hnull] at hunset
    obtain ⟨pi, hpi⟩ := answerPing_unset (w := (w.checkedQuery d).1) rx d
      (decodeQueryPeer d.udpBuf d.cur).out (by rwa [hversion])
    refine ⟨pi, fun t ht hsame => hpi t ?_⟩
    rw [hrun _ t ht, if_pos hnull] at hsame
    rw [if_pos hnull] at hrx
    rw [show w.handleQueryPeer rx d = _ from hrx] at hsame
    exact hsame
  · rw [if_neg hnull] at hunset
    obtain ⟨comm, hcomm, hknown⟩ := hunset
    obtain ⟨pi, hpi⟩ := answerQuery_unset rx d comm _ hknown
    have hanswer : ∀ (v : World) (answer : ℕ → World), (match d.comm with
        | none => v
        | some comm => answer comm) = answer comm := by
      intro v answer
      rw [hcomm]
    refine ⟨pi, fun t ht hsame => hpi t ?_⟩
    rw [hrun _ t ht, if_neg hnull, hanswer] at hsame
    rw [if_neg hnull, hanswer] at hrx
    rw [show w.handleQueryPeer rx d = _ from hrx] at hsame
    exact hsame

end World

end N2n
