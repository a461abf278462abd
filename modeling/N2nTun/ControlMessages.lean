import N2nTun.Lib.OnesComplement

/-!
# The control messages of the wintun device

A packet that is too large for the frames is not passed on; its sender gets an ICMP message with
the MTU, which the device builds itself and hands back to the adapter.  Both kinds quote the start
of the packet, and both carry sums that the receiver checks.

## Main definitions

* `onesComplementChecksum`, `ipv6UpperLayerChecksum` — the sums.
* `injectIcmpv4FragNeeded`, `injectIcmpv6PacketTooBig` — the messages, as they are built in memory.
* `handleOversizedIpPacket` — which packets get one.
* `FragNeededValid`, `PacketTooBigValid` — what a receiver checks.

## Main results

* `injectIcmpv4FragNeeded_eq`, `injectIcmpv6PacketTooBig_eq` — the fields of the messages.
* `injected_valid` — **every message that is injected is valid.**
-/

namespace N2n

open Bytes OnesComplement

/-! ### The sums -/

/-- `ones_complement_checksum`. -/
def onesComplementChecksum (data : List UInt8) : UInt16 := complement (sumWords 0 data)

/-- The first loop of `ipv6_upper_layer_checksum`. -/
def addressSum (src dst : List UInt8) : UInt32 :=
  [0, 2, 4, 6, 8, 10, 12, 14].foldl
    (fun sum i => sum + (be16At src i).toUInt32 + (be16At dst i).toUInt32) 0

/-- The sum of `ipv6_upper_layer_checksum` before the carries are added. -/
def ipv6UpperLayerSum (src dst : List UInt8) (nextHeader : UInt8) (payload : List UInt8) : UInt32 :=
  let sum := addressSum src dst
  let sum := sum + UInt32.ofNat ((payload.length >>> 16) &&& 0xFFFF)
  let sum := sum + UInt32.ofNat (payload.length &&& 0xFFFF)
  let sum := sum + nextHeader.toUInt32
  sumWords sum payload

/-- `ipv6_upper_layer_checksum`. -/
def ipv6UpperLayerChecksum (src dst : List UInt8) (nextHeader : UInt8) (payload : List UInt8) :
    UInt16 := complement (ipv6UpperLayerSum src dst nextHeader payload)

/-! ### The messages -/

/-- `IPV4_PROTO_ICMP`. -/
def ipv4ProtoIcmp : UInt8 := 1

/-- `IPV6_NEXT_ICMP`. -/
def ipv6NextIcmp : UInt8 := 58

/-- `IPV6_NEXT_HOP_BY_HOP`, `IPV6_NEXT_ROUTING` and `IPV6_NEXT_DEST_OPTS`. -/
def ipv6NextExtensions : List UInt8 := [0, 43, 60]

/-- `IPV6_NEXT_FRAGMENT`. -/
def ipv6NextFragment : UInt8 := 44

/-- The message that `inject_icmpv4_frag_needed` hands to `inject_ip_packet`; `none` if it returns
before that.  `rand` is what `n2n_rand` gives. -/
def injectIcmpv4FragNeeded (mtu : UInt32) (rand : UInt64) (origPkt : List UInt8) (ihl : ℕ) :
    Option (List UInt8) :=
  if origPkt.length < ihl ∨ ihl < 20 then none
  else
    let quoteLen := if origPkt.length < ihl + 8 then origPkt.length else ihl + 8
    let icmpLen := 8 + quoteLen
    let totalLen := 20 + icmpLen
    let pkt := List.replicate totalLen 0
    let pkt := overwrite pkt 0 [0x45, 0]
    let pkt := overwrite pkt 2 (bytes16 (UInt16.ofNat totalLen))
    let pkt := overwrite pkt 4 (bytes16 rand.toUInt16)
    let pkt := overwrite pkt 6 (bytes16 0)
    let pkt := overwrite pkt 8 [64, ipv4ProtoIcmp]
    let pkt := overwrite pkt 12 (slice origPkt 16 4)
    let pkt := overwrite pkt 16 (slice origPkt 12 4)
    let pkt := overwrite pkt 10 (bytes16 0)
    let pkt := overwrite pkt 10 (bytes16 (onesComplementChecksum (pkt.take 20)))
    let pkt := overwrite pkt 20 [3, 4]
    let pkt := overwrite pkt 22 (bytes16 0)
    let pkt := overwrite pkt 24 (bytes16 0)
    let pkt := overwrite pkt 26 (bytes16 mtu.toUInt16)
    let pkt := overwrite pkt 28 (origPkt.take quoteLen)
    some (overwrite pkt 22 (bytes16 (onesComplementChecksum (pkt.drop 20))))

/-- The message that `inject_icmpv6_packet_too_big` hands to `inject_ip_packet`; `none` if it
returns before that. -/
def injectIcmpv6PacketTooBig (mtu : UInt32) (origPkt : List UInt8) : Option (List UInt8) :=
  if origPkt.length < 40 then none
  else
    let quoteLen := if origPkt.length < 1232 then origPkt.length else 1232
    let payloadLen := 8 + quoteLen
    let totalLen := 40 + payloadLen
    let pkt := List.replicate totalLen 0
    let pkt := overwrite pkt 0 [0x60]
    let pkt := overwrite pkt 4 (bytes16 (UInt16.ofNat payloadLen))
    let pkt := overwrite pkt 6 [ipv6NextIcmp, 64]
    let pkt := overwrite pkt 8 (slice origPkt 24 16)
    let pkt := overwrite pkt 24 (slice origPkt 8 16)
    let pkt := overwrite pkt 40 [2, 0]
    let pkt := overwrite pkt 42 (bytes16 0)
    let pkt := overwrite pkt 44 (bytes32 mtu)
    let pkt := overwrite pkt 48 (origPkt.take quoteLen)
    some (overwrite pkt 42 (bytes16
      (ipv6UpperLayerChecksum (slice pkt 8 16) (slice pkt 24 16) ipv6NextIcmp (pkt.drop 40))))

/-! ### Their fields -/

/-- The IPv4 header of the first message, with what is in its checksum field. -/
def fragNeededHeader (total id : UInt16) (src dst : List UInt8) (check : UInt16) : List UInt8 :=
  ([0x45, 0] ++ bytes16 total ++ bytes16 id ++ bytes16 0 ++ [64, ipv4ProtoIcmp]) ++
    (bytes16 check ++ (dst ++ src))

/-- The ICMPv4 message, with what is in its checksum field. -/
def fragNeededMessage (mtu : UInt32) (quote : List UInt8) (check : UInt16) : List UInt8 :=
  [3, 4] ++ (bytes16 check ++ (bytes16 0 ++ bytes16 mtu.toUInt16 ++ quote))

/-- The IPv6 header of the second message. -/
def packetTooBigHeader (payloadLen : UInt16) (src dst : List UInt8) : List UInt8 :=
  [0x60, 0, 0, 0] ++ bytes16 payloadLen ++ [ipv6NextIcmp, 64] ++ (dst ++ src)

/-- The ICMPv6 message, with what is in its checksum field. -/
def packetTooBigMessage (mtu : UInt32) (quote : List UInt8) (check : UInt16) : List UInt8 :=
  [2, 0] ++ (bytes16 check ++ (bytes32 mtu ++ quote))

theorem slice_four (base : List UInt8) (i : ℕ) :
    slice base i 4 = [base.getD i 0, base.getD (i + 1) 0, base.getD (i + 2) 0,
      base.getD (i + 3) 0] := rfl

theorem slice_sixteen (base : List UInt8) (i : ℕ) :
    slice base i 16 = [base.getD i 0, base.getD (i + 1) 0, base.getD (i + 2) 0,
      base.getD (i + 3) 0, base.getD (i + 4) 0, base.getD (i + 5) 0, base.getD (i + 6) 0,
      base.getD (i + 7) 0, base.getD (i + 8) 0, base.getD (i + 9) 0, base.getD (i + 10) 0,
      base.getD (i + 11) 0, base.getD (i + 12) 0, base.getD (i + 13) 0, base.getD (i + 14) 0,
      base.getD (i + 15) 0] := rfl

/-- What is written over zeros of its length leaves none of them. -/
theorem drop_zeros (n : ℕ) : (List.replicate n (0 : UInt8)).drop n = [] :=
  List.drop_eq_nil_of_le (List.length_replicate).le

/-- What is quoted, with its length as the code has it. -/
theorem length_quote (origPkt : List UInt8) (n : ℕ) :
    (if origPkt.length < n then origPkt.length else n) = (origPkt.take n).length := by
  rw [List.length_take]
  split_ifs with hshort <;> omega

theorem take_length_take (origPkt : List UInt8) (n : ℕ) :
    origPkt.take (origPkt.take n).length = origPkt.take n := by
  rw [List.length_take, ← List.take_take, List.take_length]

/-- **The fields of the first message.** -/
theorem injectIcmpv4FragNeeded_eq {mtu : UInt32} {rand : UInt64} {origPkt : List UInt8} {ihl : ℕ}
    (h : ihl ≤ origPkt.length) (hihl : 20 ≤ ihl) :
    let quote := origPkt.take (ihl + 8)
    let header := fragNeededHeader (UInt16.ofNat (20 + (8 + quote.length))) rand.toUInt16
      (slice origPkt 12 4) (slice origPkt 16 4)
    let message := fragNeededMessage mtu quote
    injectIcmpv4FragNeeded mtu rand origPkt ihl =
      some (header (onesComplementChecksum (header 0)) ++
        message (onesComplementChecksum (message 0))) := by
  intro quote header message
  have hlen : _ = quote.length := length_quote origPkt (ihl + 8)
  have hquote : origPkt.take quote.length = quote := take_length_take origPkt _
  have hend : 28 + quote.length = quote.length + 28 := Nat.add_comm 28 _
  rw [injectIcmpv4FragNeeded, if_neg (by omega)]
  -- every write stays inside the bytes that are spelled out, except for the quote behind them
  simp only [hlen, hquote, hend, header, message, fragNeededHeader, fragNeededMessage, bytes16,
    slice_four, overwrite, List.replicate_add, List.replicate_succ, List.replicate_zero,
    List.cons_append, List.nil_append, List.append_nil, List.take_succ_cons, List.take_zero,
    List.drop_succ_cons, List.drop_zero, List.length_cons, List.length_nil, Nat.zero_add,
    Nat.reduceAdd, drop_zeros]

/-- **The fields of the second message.** -/
theorem injectIcmpv6PacketTooBig_eq {mtu : UInt32} {origPkt : List UInt8}
    (h : 40 ≤ origPkt.length) :
    let quote := origPkt.take 1232
    let header := packetTooBigHeader (UInt16.ofNat (8 + quote.length)) (slice origPkt 8 16)
      (slice origPkt 24 16)
    let message := packetTooBigMessage mtu quote
    injectIcmpv6PacketTooBig mtu origPkt =
      some (header ++ message (ipv6UpperLayerChecksum (slice origPkt 24 16) (slice origPkt 8 16)
        ipv6NextIcmp (message 0))) := by
  intro quote header message
  have hlen : _ = quote.length := length_quote origPkt 1232
  have hquote : origPkt.take quote.length = quote := take_length_take origPkt _
  have hend : 48 + quote.length = quote.length + 48 := Nat.add_comm 48 _
  rw [injectIcmpv6PacketTooBig, if_neg (by omega)]
  simp only [hlen, hquote, hend, header, message, packetTooBigHeader, packetTooBigMessage, bytes16,
    bytes32, slice_sixteen, overwrite, List.replicate_add, List.replicate_succ,
    List.replicate_zero, List.cons_append, List.nil_append, List.append_nil, List.take_succ_cons,
    List.take_zero, List.drop_succ_cons, List.drop_zero, List.length_cons, List.length_nil,
    Nat.zero_add, Nat.reduceAdd, drop_zeros, List.getD_cons_succ, List.getD_cons_zero]

/-! ### Which packets get a message -/

/-- The length of the IPv4 header, as a packet has it. -/
def ipv4HeaderLen (pkt : List UInt8) : ℕ := (pkt.getD 0 0 &&& 0x0F).toNat * 4

theorem ipv4HeaderLen_le (pkt : List UInt8) : ipv4HeaderLen pkt ≤ 60 := by
  have hle : (pkt.getD 0 0 &&& 0x0F).toNat ≤ 15 := by
    rw [UInt8.toNat_and]
    exact Nat.and_le_right
  unfold ipv4HeaderLen
  omega

/-- `handle_oversized_ipv4_packet`; a packet whose header cannot fit the MTU gets the same message as
the others. -/
def handleOversizedIpv4Packet (mtu : UInt32) (rand : UInt64) (pkt : List UInt8) :
    Option (List UInt8) :=
  if pkt.length < 20 then none
  else
    let ihl := ipv4HeaderLen pkt
    if ihl < 20 ∨ pkt.length < ihl then none
    else
      let totalLen := be16At pkt 2
      let totalLen :=
        if totalLen.toNat < ihl ∨ pkt.length < totalLen.toNat then UInt16.ofNat pkt.length
        else totalLen
      injectIcmpv4FragNeeded mtu rand (pkt.take totalLen.toNat) ihl

/-- The loop of `handle_oversized_ipv6_packet` over the extension headers: the next header and the
offset behind them. -/
def skipExtensionHeaders (pkt : List UInt8) (totalLen : ℕ) (nextHeader : UInt8) (cursor : ℕ) :
    UInt8 × ℕ :=
  if nextHeader ∈ ipv6NextExtensions then
    if totalLen < cursor + 8 then (nextHeader, cursor)
    else
      let hdrLen := ((pkt.getD (cursor + 1) 0).toNat + 1) * 8
      if totalLen < cursor + hdrLen ∨ hdrLen < 8 then (nextHeader, cursor)
      else skipExtensionHeaders pkt totalLen (pkt.getD cursor 0) (cursor + hdrLen)
  else (nextHeader, cursor)
  termination_by totalLen - cursor
  decreasing_by omega

/-- `handle_oversized_ipv6_packet`; whether the headers fit the MTU makes no difference to the
message. -/
def handleOversizedIpv6Packet (mtu : UInt32) (pkt : List UInt8) : Option (List UInt8) :=
  if pkt.length < 40 then none
  else
    let totalLen := 40 + (be16At pkt 4).toNat
    let totalLen := if pkt.length < totalLen then pkt.length else totalLen
    let next := skipExtensionHeaders pkt totalLen (pkt.getD 6 0) 40
    if next.1 = ipv6NextFragment then none
    else injectIcmpv6PacketTooBig mtu (pkt.take totalLen)

/-- `handle_oversized_ip_packet`. -/
def handleOversizedIpPacket (mtu : UInt32) (rand : UInt64) (packet : List UInt8) :
    Option (List UInt8) :=
  if packet.length = 0 then none
  else if packet.getD 0 0 >>> 4 = 4 then handleOversizedIpv4Packet mtu rand packet
  else if packet.getD 0 0 >>> 4 = 6 then handleOversizedIpv6Packet mtu packet
  else none

/-! ### What a receiver checks -/

/-- An IPv4 packet with an ICMPv4 message, for a packet: both sums are `0xFFFF`, with the checksum
fields; the length is the one in the header; the quote is the start of the packet; and with zeros
in the checksum fields the sums are what has been summed in 32 bits. -/
structure FragNeededValid (origPkt msg : List UInt8) : Prop where
  headerSum : fold (wordSum (msg.take 20)) = 0xFFFF
  messageSum : fold (wordSum (msg.drop 20)) = 0xFFFF
  totalLength : (be16At msg 2).toNat = msg.length
  quoted : msg.drop 28 <+: origPkt
  headerExact : (sumWords 0 (overwrite (msg.take 20) 10 [0, 0])).toNat =
    wordSum (overwrite (msg.take 20) 10 [0, 0])
  messageExact : (sumWords 0 (overwrite (msg.drop 20) 2 [0, 0])).toNat =
    wordSum (overwrite (msg.drop 20) 2 [0, 0])

/-- The pseudo header of the ICMPv6 message in an IPv6 packet. -/
def pseudoHeader (msg : List UInt8) : List UInt8 :=
  slice msg 8 16 ++ (slice msg 24 16 ++
    (bytes32 (UInt32.ofNat (msg.length - 40)) ++ [0, 0, 0, ipv6NextIcmp]))

/-- The same for an IPv6 packet with an ICMPv6 message, whose sum is over the pseudo header too. -/
structure PacketTooBigValid (origPkt msg : List UInt8) : Prop where
  messageSum : fold (wordSum (pseudoHeader msg ++ msg.drop 40)) = 0xFFFF
  payloadLength : 40 + (be16At msg 4).toNat = msg.length
  quoted : msg.drop 48 <+: origPkt
  messageExact :
    (ipv6UpperLayerSum (slice msg 8 16) (slice msg 24 16) ipv6NextIcmp
      (overwrite (msg.drop 40) 2 [0, 0])).toNat =
    wordSum (pseudoHeader msg ++ overwrite (msg.drop 40) 2 [0, 0])

/-- A field is set in the middle of a buffer. -/
theorem overwrite_field {x : List UInt8} {i : ℕ} (hx : x.length = i) (c : UInt16)
    (y : List UInt8) : overwrite (x ++ (bytes16 c ++ y)) i [0, 0] = x ++ (bytes16 0 ++ y) := by
  have h := overwrite_append (x := x) (y := bytes16 c) (z := y) (p := [0, 0]) rfl
  rw [List.append_assoc, hx, List.append_assoc] at h
  exact h

/-- In a message that is not too long, the 32 bits are enough. -/
theorem sumWords_exact {x : List UInt8} (h : x.length < 2 ^ 16) :
    (sumWords 0 x).toNat = wordSum x := by
  have hle := wordSum_le x
  rw [toNat_sumWords]
  · exact Nat.zero_add _
  · show 0 + wordSum x < 2 ^ 32
    omega

/-- A part of a message that holds its own checksum. -/
theorem fold_checksum {x y : List UInt8} (hx : x.length % 2 = 0)
    (h : (x ++ (bytes16 0 ++ y)).length < 2 ^ 16) :
    fold (wordSum (x ++ (bytes16 (onesComplementChecksum (x ++ (bytes16 0 ++ y))) ++ y))) =
      65535 := by
  have hsum : (sumWords 0 (x ++ (bytes16 0 ++ y))).toNat = 0 + wordSum (x ++ (bytes16 0 ++ y)) := by
    rw [sumWords_exact h, Nat.zero_add]
  have hfold := fold_field hx hsum
  rwa [Nat.zero_add] at hfold

section

variable (total id : UInt16) (payloadLen check : UInt16) (src dst quote : List UInt8) (mtu : UInt32)

theorem length_fragNeededHeader (origPkt : List UInt8) (i j : ℕ) :
    (fragNeededHeader total id (slice origPkt i 4) (slice origPkt j 4) check).length = 20 := by
  simp [fragNeededHeader]

theorem length_fragNeededMessage :
    (fragNeededMessage mtu quote check).length = 8 + quote.length := by
  simp [fragNeededMessage]
  omega

theorem length_packetTooBigHeader (origPkt : List UInt8) (i j : ℕ) :
    (packetTooBigHeader payloadLen (slice origPkt i 16) (slice origPkt j 16)).length = 40 := by
  simp [packetTooBigHeader]

theorem length_packetTooBigMessage :
    (packetTooBigMessage mtu quote check).length = 8 + quote.length := by
  simp [packetTooBigMessage]
  omega

end

/-- **The first message is valid**, with the lengths that the caller gives. -/
theorem injectIcmpv4FragNeeded_valid {mtu : UInt32} {rand : UInt64} {origPkt msg : List UInt8}
    {ihl : ℕ} (hihl : ihl ≤ 60) (h : injectIcmpv4FragNeeded mtu rand origPkt ihl = some msg) :
    FragNeededValid origPkt msg := by
  have hguard : ¬ (origPkt.length < ihl ∨ ihl < 20) := by
    intro hguard
    rw [injectIcmpv4FragNeeded, if_pos hguard] at h
    cases h
  rw [injectIcmpv4FragNeeded_eq (by omega) (by omega)] at h
  obtain rfl := (Option.some.inj h).symm
  clear h
  set quote := origPkt.take (ihl + 8) with hquote
  set total := UInt16.ofNat (20 + (8 + quote.length)) with htotal
  have hlen : quote.length ≤ 68 := by
    rw [hquote, List.length_take]
    omega
  have hheader := fun c => length_fragNeededHeader total rand.toUInt16 c origPkt 12 16
  have hmessage := fun c => length_fragNeededMessage c quote mtu
  have htake : ∀ {c} {y : List UInt8}, (fragNeededHeader total rand.toUInt16 (slice origPkt 12 4)
      (slice origPkt 16 4) c ++ y).take 20 = _ := fun {c} {_} => List.take_left' (hheader c)
  have hdrop : ∀ {c} {y : List UInt8}, (fragNeededHeader total rand.toUInt16 (slice origPkt 12 4)
      (slice origPkt 16 4) c ++ y).drop 20 = _ := fun {c} {_} => List.drop_left' (hheader c)
  have hzeroHeader := overwrite_field (x := [0x45, 0] ++ bytes16 total ++ bytes16 rand.toUInt16 ++
    bytes16 0 ++ [64, ipv4ProtoIcmp]) (i := 10) rfl
  refine ⟨?_, ?_, ?_, ?_, ?_, ?_⟩
  · rw [htake]
    exact fold_checksum (by simp) ((hheader 0).trans_lt (by decide))
  · rw [hdrop]
    exact fold_checksum rfl ((hmessage 0).trans_lt (by omega))
  · have hword : ∀ c y, be16At (fragNeededHeader total rand.toUInt16 (slice origPkt 12 4)
        (slice origPkt 16 4) c ++ y) 2 = total := fun _ _ => be16_bytes16 total
    rw [hword, List.length_append, hheader, hmessage, htotal]
    exact UInt16.toNat_ofNat_of_lt' (by show _ < 65536; omega)
  · rw [show (28 : ℕ) = 20 + 8 from rfl, ← List.drop_drop, hdrop]
    exact List.take_prefix _ _
  · rw [htake, fragNeededHeader, hzeroHeader]
    exact sumWords_exact ((hheader 0).trans_lt (by decide))
  · rw [hdrop, fragNeededMessage, overwrite_field (x := [3, 4]) (i := 2) rfl]
    exact sumWords_exact ((hmessage 0).trans_lt (by omega))

/-! ### The second sum -/

/-- The words of an address. -/
theorem wordSum_address {x : List UInt8} (h : x.length = 16) :
    wordSum x = ([0, 2, 4, 6, 8, 10, 12, 14].map fun i => (be16At x i).toNat).sum := by
  match x, h with
  | [_, _, _, _, _, _, _, _, _, _, _, _, _, _, _, _], _ =>
    simp [wordSum, be16At, toNat_be16]

/-- The loop over the two addresses, as long as it is not too much for 32 bits. -/
theorem toNat_foldl_words (f g : ℕ → UInt16) (l : List ℕ) (sum : UInt32)
    (h : sum.toNat + l.length * 131070 < 2 ^ 32) :
    (l.foldl (fun sum i => sum + (f i).toUInt32 + (g i).toUInt32) sum).toNat =
      sum.toNat + (l.map fun i => (f i).toNat).sum + (l.map fun i => (g i).toNat).sum := by
  induction l generalizing sum with
  | nil => rfl
  | cons i l ih =>
    have hf := (f i).toNat_lt
    have hg := (g i).toNat_lt
    rw [List.length_cons] at h
    have hnext : (sum + (f i).toUInt32 + (g i).toUInt32).toNat =
        sum.toNat + (f i).toNat + (g i).toNat := by
      rw [UInt32.toNat_add, UInt32.toNat_add, UInt16.toNat_toUInt32, UInt16.toNat_toUInt32]
      omega
    rw [List.foldl_cons, ih _ (by omega), hnext, List.map_cons, List.map_cons, List.sum_cons,
      List.sum_cons]
    omega

theorem toNat_addressSum {src dst : List UInt8} (hsrc : src.length = 16) (hdst : dst.length = 16) :
    (addressSum src dst).toNat = wordSum src + wordSum dst := by
  rw [addressSum, toNat_foldl_words _ _ _ _ (by decide), wordSum_address hsrc, wordSum_address hdst]
  exact congrArg (· + _) (Nat.zero_add _)

/-- The words of a length. -/
theorem wordSum_bytes32 {n : ℕ} (h : n < 65536) : wordSum (bytes32 (UInt32.ofNat n)) = n := by
  have hn : (UInt32.ofNat n).toNat = n := UInt32.toNat_ofNat_of_lt' (by show n < 4294967296; omega)
  have hbyte : ∀ k : UInt32, k.toNat < 32 →
      (UInt32.ofNat n >>> k).toUInt8.toNat = n / 2 ^ k.toNat % 256 := by
    intro k hk
    rw [UInt32.toNat_toUInt8, UInt32.toNat_shiftRight, hn, Nat.mod_eq_of_lt hk,
      Nat.shiftRight_eq_div_pow]
  have hlow : (UInt32.ofNat n).toUInt8.toNat = n % 256 := by rw [UInt32.toNat_toUInt8, hn]
  simp only [bytes32, wordSum, hbyte 24 (by decide), hbyte 16 (by decide), hbyte 8 (by decide),
    hlow]
  show n / 2 ^ 24 % 256 * 256 + n / 2 ^ 16 % 256 + (n / 2 ^ 8 % 256 * 256 + n % 256 + 0) = n
  omega

/-- The sum of the code is the one with the pseudo header. -/
theorem ipv6UpperLayerSum_exact {src dst payload : List UInt8} (hsrc : src.length = 16)
    (hdst : dst.length = 16) (h : payload.length < 65536) :
    (ipv6UpperLayerSum src dst ipv6NextIcmp payload).toNat =
      wordSum (src ++ (dst ++ (bytes32 (UInt32.ofNat payload.length) ++
        [0, 0, 0, ipv6NextIcmp]))) + wordSum payload := by
  have haddr := toNat_addressSum hsrc hdst
  have hsrcle := wordSum_le src
  have hdstle := wordSum_le dst
  have hle := wordSum_le payload
  rw [hsrc] at hsrcle
  rw [hdst] at hdstle
  have hhigh : payload.length >>> 16 &&& 0xFFFF = 0 := by
    rw [Nat.shiftRight_eq_div_pow, Nat.div_eq_of_lt h, Nat.zero_and]
  have hlow : payload.length &&& 0xFFFF = payload.length :=
    (Nat.and_two_pow_sub_one_eq_mod _ 16).trans (Nat.mod_eq_of_lt h)
  have hlen : (UInt32.ofNat payload.length).toNat = payload.length :=
    UInt32.toNat_ofNat_of_lt' (by show _ < 4294967296; omega)
  have hpseudo : wordSum (src ++ (dst ++ (bytes32 (UInt32.ofNat payload.length) ++
      [0, 0, 0, ipv6NextIcmp]))) = wordSum src + (wordSum dst + (payload.length + 58)) := by
    rw [wordSum_append _ _ (by rw [hsrc]), wordSum_append _ _ (by rw [hdst]),
      wordSum_append _ _ (by rw [length_bytes32]), wordSum_bytes32 h]
    rfl
  have hstart : (addressSum src dst + UInt32.ofNat 0 + UInt32.ofNat payload.length +
      ipv6NextIcmp.toUInt32).toNat = wordSum src + wordSum dst + payload.length + 58 := by
    rw [UInt32.toNat_add, UInt32.toNat_add, UInt32.toNat_add, haddr, hlen]
    show (((_ + 0) % 2 ^ 32 + payload.length) % 2 ^ 32 + 58) % 2 ^ 32 = _
    omega
  simp only [ipv6UpperLayerSum, hhigh, hlow]
  rw [toNat_sumWords (by rw [hstart]; omega), hstart, hpseudo]
  omega

/-- **The second message is valid.** -/
theorem injectIcmpv6PacketTooBig_valid {mtu : UInt32} {origPkt msg : List UInt8}
    (h : injectIcmpv6PacketTooBig mtu origPkt = some msg) : PacketTooBigValid origPkt msg := by
  have hguard : ¬ origPkt.length < 40 := by
    intro hguard
    rw [injectIcmpv6PacketTooBig, if_pos hguard] at h
    cases h
  rw [injectIcmpv6PacketTooBig_eq (not_lt.mp hguard)] at h
  obtain rfl := (Option.some.inj h).symm
  clear h
  set quote := origPkt.take 1232 with hquote
  set payloadLen := UInt16.ofNat (8 + quote.length) with hpayload
  have hlen : quote.length ≤ 1232 := by
    rw [hquote, List.length_take]
    omega
  have hheader := length_packetTooBigHeader payloadLen origPkt 8 24
  have hmessage := fun c => length_packetTooBigMessage c quote mtu
  set header := packetTooBigHeader payloadLen (slice origPkt 8 16) (slice origPkt 24 16)
    with hfields
  have hdrop : ∀ {y : List UInt8}, (header ++ y).drop 40 = y := List.drop_left' hheader
  have hdst : ∀ y, slice (header ++ y) 8 16 = slice origPkt 24 16 := by
    intro y
    have hmiddle := slice_middle (x := [0x60, 0, 0, 0] ++ bytes16 payloadLen ++
      [ipv6NextIcmp, 64]) (z := slice origPkt 8 16 ++ y) (i := 8) rfl (length_slice origPkt 24 16)
    rwa [List.append_assoc, ← List.append_assoc _ _ y, ← List.append_assoc] at hmiddle
  have hsrc : ∀ y, slice (header ++ y) 24 16 = slice origPkt 8 16 := by
    intro y
    have hmiddle := slice_middle (x := [0x60, 0, 0, 0] ++ bytes16 payloadLen ++
      [ipv6NextIcmp, 64] ++ slice origPkt 24 16) (z := y) (i := 24) (by simp)
      (length_slice origPkt 8 16)
    rwa [List.append_assoc _ (slice origPkt 24 16)] at hmiddle
  have hpseudo : ∀ c, pseudoHeader (header ++ packetTooBigMessage mtu quote c) =
      slice origPkt 24 16 ++ (slice origPkt 8 16 ++
        (bytes32 (UInt32.ofNat (packetTooBigMessage mtu quote 0).length) ++
          [0, 0, 0, ipv6NextIcmp])) := by
    intro c
    rw [pseudoHeader, hdst, hsrc, List.length_append, hheader, hmessage, hmessage,
      Nat.add_sub_cancel_left]
  have heven : ∀ c, (pseudoHeader (header ++ packetTooBigMessage mtu quote c)).length % 2 = 0 := by
    intro c
    rw [hpseudo]
    simp
  have hsum := ipv6UpperLayerSum_exact (length_slice origPkt 24 16) (length_slice origPkt 8 16)
    ((hmessage 0).trans_lt (by omega))
  refine ⟨?_, ?_, ?_, ?_⟩
  · rw [wordSum_append _ _ (heven _), hpseudo, hdrop]
    exact fold_field (x := [2, 0]) rfl hsum
  · have hword : ∀ y, be16At (header ++ y) 4 = payloadLen := fun _ => be16_bytes16 payloadLen
    rw [hword, List.length_append, hheader, hmessage, hpayload,
      UInt16.toNat_ofNat_of_lt' (by show _ < 65536; omega)]
  · rw [show (48 : ℕ) = 40 + 8 from rfl, ← List.drop_drop, hdrop]
    exact List.take_prefix _ _
  · rw [wordSum_append _ _ (heven _), hpseudo, hdrop, hdst, hsrc, packetTooBigMessage,
      overwrite_field (x := [2, 0]) (i := 2) rfl]
    exact hsum

/-! ### All messages -/

theorem FragNeededValid.mono {pkt pkt' msg : List UInt8} (h : FragNeededValid pkt msg)
    (hstart : pkt <+: pkt') : FragNeededValid pkt' msg :=
  { h with quoted := h.quoted.trans hstart }

theorem PacketTooBigValid.mono {pkt pkt' msg : List UInt8} (h : PacketTooBigValid pkt msg)
    (hstart : pkt <+: pkt') : PacketTooBigValid pkt' msg :=
  { h with quoted := h.quoted.trans hstart }

theorem handleOversizedIpv4Packet_valid {mtu : UInt32} {rand : UInt64} {pkt msg : List UInt8}
    (h : handleOversizedIpv4Packet mtu rand pkt = some msg) : FragNeededValid pkt msg := by
  simp only [handleOversizedIpv4Packet] at h
  split_ifs at h
  · exact (injectIcmpv4FragNeeded_valid (ipv4HeaderLen_le pkt) h).mono (List.take_prefix _ _)
  · exact (injectIcmpv4FragNeeded_valid (ipv4HeaderLen_le pkt) h).mono (List.take_prefix _ _)

theorem handleOversizedIpv6Packet_valid {mtu : UInt32} {pkt msg : List UInt8}
    (h : handleOversizedIpv6Packet mtu pkt = some msg) : PacketTooBigValid pkt msg := by
  simp only [handleOversizedIpv6Packet] at h
  split_ifs at h
  · exact (injectIcmpv6PacketTooBig_valid h).mono (List.take_prefix _ _)
  · exact (injectIcmpv6PacketTooBig_valid h).mono (List.take_prefix _ _)

/-- **Every message that is injected is valid**: those that the two routines build for a packet, and
so those that an oversized packet gets. -/
theorem injected_valid (mtu : UInt32) (rand : UInt64) (origPkt msg : List UInt8) :
    (injectIcmpv4FragNeeded mtu rand origPkt (ipv4HeaderLen origPkt) = some msg →
      FragNeededValid origPkt msg) ∧
    (injectIcmpv6PacketTooBig mtu origPkt = some msg → PacketTooBigValid origPkt msg) ∧
    (handleOversizedIpPacket mtu rand origPkt = some msg →
      FragNeededValid origPkt msg ∨ PacketTooBigValid origPkt msg) := by
  refine ⟨injectIcmpv4FragNeeded_valid (ipv4HeaderLen_le origPkt), injectIcmpv6PacketTooBig_valid,
    fun h => ?_⟩
  unfold handleOversizedIpPacket at h
  split_ifs at h
  · exact .inl (handleOversizedIpv4Packet_valid h)
  · exact .inr (handleOversizedIpv6Packet_valid h)

theorem injected_valid_headers :
    (∃ msg, FragNeededValid (0x45 :: List.replicate 19 0) msg) ∧
      ∃ msg, PacketTooBigValid (0x60 :: List.replicate 39 0) msg :=
  ⟨⟨_, (injected_valid 1290 0 (0x45 :: List.replicate 19 0) _).1 rfl⟩,
    ⟨_, (injected_valid 1290 0 (0x60 :: List.replicate 39 0) _).2.1 rfl⟩⟩

end N2n
