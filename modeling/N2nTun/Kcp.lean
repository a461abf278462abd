import N2nTun.WireEncode
import N2nTun.EdgeTransport

/-!
# Telling KCP from n2n on one UDP socket

`n2n_kcp_packet_get_conv` takes a datagram for KCP if it is a sequence of KCP
segments of one conversation: headers of 24 bytes with a command byte and a
little-endian length.  The header of an n2n message has 24 bytes as well, and its
community name stands where KCP has the command and the length.

## Main definitions

* `n2nKcpPacketGetConv` — the classifier.
* `KcpSegments` — a sequence of segments of one conversation.
* `KcpUnwrapped` — in which no segment is too long for the sum of the loop.
* `n2nKcpSnProcessInput`, `n2nKcpEdgeInput` — its two callers, up to the KCP
  library.
* `snHandsOver`, `edgeHandsOver` — what then goes to `process_udp`.

## Main results

* `n2nKcpPacketGetConv_eq` — the classifier decides `KcpSegments`.
* `notSwallowed_iff` — **which n2n messages are not taken for KCP.**
-/

namespace N2n

open Bytes

/-- `N2N_KCP_OVERHEAD`. -/
def kcpOverhead : ℕ := 24

/-- `n2n_kcp_cmd_is_valid`: PUSH, ACK, WASK or WINS. -/
def n2nKcpCmdIsValid (cmd : UInt8) : Bool := cmd == 81 || cmd == 82 || cmd == 83 || cmd == 84

/-- The loop of `n2n_kcp_packet_get_conv` over what remains of the datagram, and
whether nothing remains at its end; `none` without enough fuel.  The sum that
advances it is taken in 32 bits. -/
def kcpSegmentLoop (packetConv : UInt32) : ℕ → List UInt8 → Option Bool
  | 0, _ => none
  | fuel + 1, p =>
    if p.length < kcpOverhead then some (p.length == 0)
    else if le32At p 0 ≠ packetConv then some false
    else if !n2nKcpCmdIsValid (p.getD 4 0) then some false
    else if (le32At p 20).toNat > p.length - kcpOverhead then some false
    else kcpSegmentLoop packetConv fuel (p.drop ((24 : UInt32) + le32At p 20).toNat)

/-- `n2n_kcp_packet_get_conv`: `some none` when it returns 0, else the conversation.
`none` if it does not return. -/
def n2nKcpPacketGetConv (buf : List UInt8) : Option (Option UInt32) :=
  if buf.length < kcpOverhead then some none
  else
    match kcpSegmentLoop (le32At buf 0) (buf.length + 1) buf with
    | none => none
    | some true => some (some (le32At buf 0))
    | some false => some none

/-- `n2n_kcp_sn_process_input`, given whether a session is found or created and
whether `ikcp_input` accepts the datagram. -/
def n2nKcpSnProcessInput (buf : List UInt8) (ctx inputOk : Bool) : Option ℤ :=
  match n2nKcpPacketGetConv buf with
  | none => none
  | some none => some 0
  | some (some _) => if !ctx then some 0 else if !inputOk then some (-1) else some 1

/-- `n2n_kcp_edge_input`, given whether there is an active session with the sender
for a conversation and whether `ikcp_input` accepts the datagram. -/
def n2nKcpEdgeInput (eee : EdgeTransport) (sender : Sock) (buf : List UInt8)
    (session : UInt32 → Bool) (inputOk : Bool) : Option ℤ :=
  if eee.udpSock < 0 then some 0
  else if !sockEqual sender eee.currSnSock then some 0
  else
    match n2nKcpPacketGetConv buf with
    | none => none
    | some none => some 0
    | some (some conv) =>
      if !session conv then some (-1) else if !inputOk then some (-1) else some 1

/-- What `run_sn_loop` hands to `process_udp` for a datagram on the UDP socket:
the datagram itself, or the messages `out` that KCP yields. -/
def snHandsOver (pktbuf : List UInt8) (ctx inputOk : Bool) (out : List (List UInt8)) :
    Option (List (List UInt8)) :=
  match n2nKcpSnProcessInput pktbuf ctx inputOk with
  | none => none
  | some rc => some (if rc ≠ 0 then (if rc > 0 then out else []) else [pktbuf])

/-- The same for `fetch_and_eventually_process_data` and the edge's UDP socket. -/
def edgeHandsOver (eee : EdgeTransport) (sender : Sock) (pktbuf : List UInt8)
    (session : UInt32 → Bool) (inputOk : Bool) (out : List (List UInt8)) :
    Option (List (List UInt8)) :=
  match n2nKcpEdgeInput eee sender pktbuf session inputOk with
  | none => none
  | some rc => some (if rc ≠ 0 then (if rc > 0 then out else []) else [pktbuf])

/-! ### What the classifier accepts -/

/-- Segments of the conversation `conv`, one after the other. -/
inductive KcpSegments (conv : UInt32) : List UInt8 → Prop
  | nil : KcpSegments conv []
  | cons {p : List UInt8} (hhead : kcpOverhead ≤ p.length) (hconv : le32At p 0 = conv)
      (hcmd : n2nKcpCmdIsValid (p.getD 4 0) = true)
      (hlen : kcpOverhead + (le32At p 20).toNat ≤ p.length)
      (htail : KcpSegments conv (p.drop (kcpOverhead + (le32At p 20).toNat))) :
      KcpSegments conv p

theorem kcpSegments_iff {conv : UInt32} {p : List UInt8} (h : kcpOverhead ≤ p.length) :
    KcpSegments conv p ↔ le32At p 0 = conv ∧ n2nKcpCmdIsValid (p.getD 4 0) = true ∧
      kcpOverhead + (le32At p 20).toNat ≤ p.length ∧
      KcpSegments conv (p.drop (kcpOverhead + (le32At p 20).toNat)) := by
  constructor
  · intro hp
    cases hp with
    | nil => exact absurd h (by decide)
    | cons _ hconv hcmd hlen htail => exact ⟨hconv, hcmd, hlen, htail⟩
  · rintro ⟨hconv, hcmd, hlen, htail⟩
    exact .cons h hconv hcmd hlen htail

/-- The buffer starts with a whole segment of the conversation. -/
structure KcpWhole (conv : UInt32) (p : List UInt8) : Prop where
  head : kcpOverhead ≤ p.length
  conv : le32At p 0 = conv
  cmd : n2nKcpCmdIsValid (p.getD 4 0) = true
  len : kcpOverhead + (le32At p 20).toNat ≤ p.length

/-- From `p` one comes to `rest` over whole segments. -/
inductive KcpReaches (conv : UInt32) : List UInt8 → List UInt8 → Prop
  | here (p : List UInt8) : KcpReaches conv p p
  | next {p rest : List UInt8} (hwhole : KcpWhole conv p)
      (hrest : KcpReaches conv (p.drop (kcpOverhead + (le32At p 20).toNat)) rest) :
      KcpReaches conv p rest

/-- Of the segments one comes to, none is so long that its length with the header does not fit
into 32 bits. -/
def KcpUnwrapped (conv : UInt32) (p : List UInt8) : Prop :=
  ∀ rest, KcpReaches conv p rest → KcpWhole conv rest →
    kcpOverhead + (le32At rest 20).toNat < 2 ^ 32

theorem KcpReaches.length_le {conv : UInt32} {p rest : List UInt8}
    (h : KcpReaches conv p rest) : rest.length ≤ p.length := by
  induction h with
  | here p => exact le_refl _
  | next hwhole hrest ih =>
    rw [List.length_drop] at ih
    omega

/-- A short buffer has no long segments. -/
theorem kcpUnwrapped_of_length {conv : UInt32} {p : List UInt8} (h : p.length < 2 ^ 32) :
    KcpUnwrapped conv p := by
  intro rest hreach hwhole
  have hle := hreach.length_le
  have hlen := hwhole.len
  omega

theorem KcpUnwrapped.tail {conv : UInt32} {p : List UInt8} (h : KcpUnwrapped conv p)
    (hwhole : KcpWhole conv p) :
    KcpUnwrapped conv (p.drop (kcpOverhead + (le32At p 20).toNat)) :=
  fun rest hreach => h rest (.next hwhole hreach)

/-- The sum that advances the loop, if it does not wrap. -/
theorem kcpAdvance_eq {p : List UInt8} (h : kcpOverhead + (le32At p 20).toNat < 2 ^ 32) :
    ((24 : UInt32) + le32At p 20).toNat = kcpOverhead + (le32At p 20).toNat := by
  rw [UInt32.toNat_add]
  exact Nat.mod_eq_of_lt h

/-- **The loop decides whether there are segments only**, where its sum does not wrap. -/
theorem kcpSegmentLoop_decides (conv : UInt32) : ∀ {fuel : ℕ} {p : List UInt8},
    p.length < fuel → KcpUnwrapped conv p →
      ∃ b, kcpSegmentLoop conv fuel p = some b ∧ (b = true ↔ KcpSegments conv p) := by
  intro fuel
  induction fuel with
  | zero =>
    intro p hfuel
    omega
  | succ fuel ih =>
    intro p hfuel hunwrapped
    have hover : kcpOverhead = 24 := rfl
    rw [kcpSegmentLoop]
    by_cases hshort : p.length < kcpOverhead
    · -- the end: nothing, or a rest
      refine ⟨_, if_pos hshort, ?_⟩
      constructor
      · intro h
        have hp : p = [] := List.length_eq_zero_iff.mp (by simpa using h)
        rw [hp]
        exact .nil
      · intro h
        cases h with
        | nil => rfl
        | cons hhead => omega
    rw [if_neg hshort]
    have hiff := @kcpSegments_iff conv p (by omega)
    by_cases hconv : le32At p 0 = conv
    · rw [if_neg (not_not.mpr hconv)]
      cases hcmd : n2nKcpCmdIsValid (p.getD 4 0) with
      | false =>
        refine ⟨false, rfl, ?_⟩
        rw [hiff, hcmd]
        simp
      | true =>
        rw [if_neg (by simp)]
        by_cases hlen : (le32At p 20).toNat > p.length - kcpOverhead
        · refine ⟨false, if_pos hlen, ?_⟩
          rw [hiff]
          constructor
          · intro h
            cases h
          · rintro ⟨-, -, hle, -⟩
            omega
        · rw [if_neg hlen]
          have hwhole : KcpWhole conv p := ⟨by omega, hconv, hcmd, by omega⟩
          rw [kcpAdvance_eq (hunwrapped p (.here p) hwhole)]
          obtain ⟨b, hb, hspec⟩ := ih (p := p.drop (kcpOverhead + (le32At p 20).toNat))
            (by rw [List.length_drop]; omega) (hunwrapped.tail hwhole)
          refine ⟨b, hb, ?_⟩
          rw [hspec, hiff]
          exact ⟨fun h => ⟨hconv, hcmd, by omega, h⟩, fun h => h.2.2.2⟩
    · refine ⟨false, if_pos hconv, ?_⟩
      rw [hiff]
      constructor
      · intro h
        cases h
      · intro h
        exact absurd h.1 hconv

/-- The loop on buffers of less than `2 ^ 32` bytes. -/
theorem kcpSegmentLoop_spec (conv : UInt32) {fuel : ℕ} {p : List UInt8} (hfuel : p.length < fuel)
    (h : p.length < 2 ^ 32) :
    ∃ b, kcpSegmentLoop conv fuel p = some b ∧ (b = true ↔ KcpSegments conv p) :=
  kcpSegmentLoop_decides conv hfuel (kcpUnwrapped_of_length h)

/-- The classifier returns. -/
theorem n2nKcpPacketGetConv_ne_none {buf : List UInt8} (h : buf.length < 2 ^ 32) :
    n2nKcpPacketGetConv buf ≠ none := by
  unfold n2nKcpPacketGetConv
  split
  · simp
  · obtain ⟨b, hb, -⟩ := kcpSegmentLoop_spec (le32At buf 0) (Nat.lt_succ_self _) h
    rw [hb]
    cases b <;> simp

/-- **The classifier accepts exactly the non-empty sequences of segments** of one
conversation. -/
theorem n2nKcpPacketGetConv_eq {buf : List UInt8} (h : buf.length < 2 ^ 32) :
    n2nKcpPacketGetConv buf = some none ↔
      buf.length < kcpOverhead ∨ ¬ KcpSegments (le32At buf 0) buf := by
  unfold n2nKcpPacketGetConv
  by_cases hshort : buf.length < kcpOverhead
  · rw [if_pos hshort]
    exact iff_of_true rfl (Or.inl hshort)
  · rw [if_neg hshort]
    obtain ⟨b, hb, hspec⟩ := kcpSegmentLoop_spec (le32At buf 0) (Nat.lt_succ_self _) h
    rw [hb]
    cases b with
    | false =>
      exact iff_of_true rfl (Or.inr fun hseg => absurd (hspec.mpr hseg) (by decide))
    | true =>
      refine iff_of_false (by simp) ?_
      rintro (hlt | hno)
      · exact hshort hlt
      · exact hno (hspec.mp rfl)

/-! ### n2n messages that look like KCP -/

/-- The name, read as KCP reads the same bytes: its first character is a command and
its last four bytes, the lowest first, are the number of bytes to skip after the
header. -/
def CommunityName.skips (name : CommunityName) : ℕ := (le32At name.toList 16).toNat

/-- The message looks like KCP: the name starts with one of the letters `Q`, `R`,
`S` and `T`, and after the bytes that the name skips there is nothing, or there are
further segments that start with the same four bytes. -/
structure KcpShaped (cmn : Common) (rest : List UInt8) : Prop where
  letter : n2nKcpCmdIsValid (cmn.community.toList.getD 0 0) = true
  skips : cmn.community.skips ≤ rest.length
  tail : KcpSegments (le32At cmn.header 0) (rest.drop cmn.community.skips)

/-- The datagram `d` is not taken for KCP: the classifier rejects it, and whatever
sessions there are it goes to `process_udp` as it is. -/
structure NotSwallowed (d : List UInt8) : Prop where
  rejected : n2nKcpPacketGetConv d = some none
  sn : ∀ ctx inputOk out, snHandsOver d ctx inputOk out = some [d]
  edge : ∀ eee sender session inputOk out,
    edgeHandsOver eee sender d session inputOk out = some [d]

/-- The callers only look at what the classifier says. -/
theorem NotSwallowed.of_rejected {d : List UInt8} (h : n2nKcpPacketGetConv d = some none) :
    NotSwallowed d := by
  refine ⟨h, ?_, ?_⟩
  · intro ctx inputOk out
    simp [snHandsOver, n2nKcpSnProcessInput, h]
  · intro eee sender session inputOk out
    have hin : n2nKcpEdgeInput eee sender d session inputOk = some 0 := by
      unfold n2nKcpEdgeInput
      rw [h]
      split_ifs <;> rfl
    simp [edgeHandsOver, hin]

theorem Common.length_header (cmn : Common) : cmn.header.length = kcpOverhead := by
  simp [Common.header, kcpOverhead]

/-- The header as KCP reads it: the conversation is the version, the TTL and the
flags; the command and the length are in the name. -/
theorem Common.header_fields (cmn : Common) (rest : List UInt8) :
    le32At (cmn.header ++ rest) 0 = le32At cmn.header 0 ∧
      (cmn.header ++ rest).getD 4 0 = cmn.community.toList.getD 0 0 ∧
      (le32At (cmn.header ++ rest) 20).toNat = cmn.community.skips := by
  have hname : ∀ k, k < 20 →
      (cmn.header ++ rest).getD (4 + k) 0 = cmn.community.toList.getD k 0 := by
    intro k hk
    rw [List.getD_append _ _ _ _ (by rw [cmn.length_header]; change 4 + k < 24; omega)]
    rw [Common.header, List.getD_append_right _ _ _ _ (by simp)]
    simp
  refine ⟨?_, hname 0 (by omega), ?_⟩
  · simp [le32At, Common.header, bytes16]
  · rw [CommunityName.skips, le32At, le32At, hname 16 (by omega), hname 17 (by omega),
      hname 18 (by omega), hname 19 (by omega)]

/-- **An n2n message is handed to `process_udp` unless it looks like KCP**: for every
message, name and payload. -/
theorem notSwallowed_iff (m : Msg) (buf : List UInt8) (cmn : Common) (payload : List UInt8)
    (h : (m.datagram buf cmn payload).length < 2 ^ 32) :
    NotSwallowed (m.datagram buf cmn payload) ↔
      ¬ KcpShaped cmn ((m.datagram buf cmn payload).drop kcpOverhead) := by
  obtain ⟨rest, hrest⟩ := m.datagram_eq buf cmn payload
  rw [hrest] at h ⊢
  have hlong : kcpOverhead ≤ (cmn.header ++ rest).length := by
    rw [List.length_append, cmn.length_header]
    omega
  obtain ⟨hconv, hcmd, hskip⟩ := cmn.header_fields rest
  have hdrop : (cmn.header ++ rest).drop kcpOverhead = rest := by
    rw [← cmn.length_header, List.drop_left]
  -- the first segment of the datagram is the header and what the name skips
  have hshape : KcpSegments (le32At (cmn.header ++ rest) 0) (cmn.header ++ rest) ↔
      KcpShaped cmn rest := by
    rw [kcpSegments_iff hlong, hcmd, hskip, ← List.drop_drop, hdrop, hconv]
    constructor
    · rintro ⟨-, hletter, hlen, htail⟩
      rw [List.length_append, cmn.length_header] at hlen
      exact ⟨hletter, by omega, htail⟩
    · rintro ⟨hletter, hlen, htail⟩
      refine ⟨rfl, hletter, ?_, htail⟩
      rw [List.length_append, cmn.length_header]
      omega
  rw [hdrop, ← hshape]
  constructor
  · intro hnot
    rcases (n2nKcpPacketGetConv_eq h).mp hnot.rejected with hlt | hno
    · omega
    · exact hno
  · intro hno
    exact .of_rejected ((n2nKcpPacketGetConv_eq h).mpr (Or.inr hno))

/-- A name of 17 characters: `Q` and 16 times `A`. -/
def nameQA : CommunityName := ⟨81 :: List.replicate 16 65 ++ [0, 0, 0], rfl⟩

theorem length_nameHome :
    ([104, 111, 109, 101] ++ List.replicate 16 0 : List UInt8).length = 20 := rfl

/-- A name of four characters. -/
def nameHome : CommunityName := ⟨[104, 111, 109, 101] ++ List.replicate 16 0, length_nameHome⟩

/-- A PACKET between two MACs, without a socket. -/
def somePacket : Msg :=
  .packet ⟨⟨[2, 0, 0, 0, 0, 1], rfl⟩, ⟨[2, 0, 0, 0, 0, 2], rfl⟩, Sock.zero, 1, 1⟩

/-- The header of that PACKET. -/
def packetCommon (name : CommunityName) : Common := ⟨defaultTtl, msgTypePacket, 0, name⟩

theorem notSwallowed_packet :
    (somePacket.datagram [] (packetCommon nameHome) [1, 2, 3]).length < 2 ^ 32 ∧
      NotSwallowed (somePacket.datagram [] (packetCommon nameHome) [1, 2, 3]) := by
  refine ⟨by decide, (notSwallowed_iff _ _ _ _ (by decide)).mpr ?_⟩
  intro h
  exact absurd h.letter (by decide)

/-- With 51 bytes of payload the PACKET is as long as its community's name says. -/
theorem not_notSwallowed_packet :
    nameQA.toList.getD 17 0 = 0 ∧
      ¬ NotSwallowed (somePacket.datagram [] (packetCommon nameQA) (List.replicate 51 0)) := by
  refine ⟨rfl, ?_⟩
  intro h
  have hr := h.rejected
  revert hr
  decide

end N2n
