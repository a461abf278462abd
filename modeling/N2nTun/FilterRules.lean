import N2nTun.Lib.Prefix
import N2nTun.Lib.Selection
import N2nTun.SnPeriodic

/-!
# Rules of the traffic filter

The rules of `network_traffic_filter.c` and the selection of the rule for a packet. A rule names
two networks with their prefix lengths, two ranges of ports and what it does with each of
three protocols. Among the rules that match, the one with the longest prefixes is taken.

The address of a packet is masked before it is compared with the network of a rule, and the
network is not: a rule that is written with host bits set matches nothing.

## Main definitions

* `FilterRule`, `PacketInfo` — a rule, and what is known of a packet.
* `marchRuleAndCacheKey`, `getFilterRule` — the score of a rule, and the rule with the best one.
* `FilterRule.Matches` — a rule matches a packet.
* `SelectionLaw` — the selected rule is a matching one with the longest prefixes.

## Main results

* `marchRuleAndCacheKey_eq` — the score of a rule.
* `selectionLaw_iff` — **the law holds exactly when no rule matches or one of the best matching
  rules is written without host bits.**
-/

namespace N2n

open BitPrefix Bytes Selection

/-! ### Rules and packets -/

/-- `port_range_t`; both ends belong to it. -/
structure PortRange where
  startPort : UInt16
  endPort : UInt16
  deriving DecidableEq

/-- `filter_rule_key_t`; addresses are in network byte order. -/
structure FilterRuleKey where
  srcNetCidr : UInt32
  srcNetBitLen : UInt8
  srcPortRange : PortRange
  dstNetCidr : UInt32
  dstNetBitLen : UInt8
  dstPortRange : PortRange
  boolTcpConfigured : Bool
  boolUdpConfigured : Bool
  boolIcmpConfigured : Bool
  deriving DecidableEq

/-- `filter_rule_t`. -/
structure FilterRule where
  key : FilterRuleKey
  boolAcceptIcmp : Bool
  boolAcceptUdp : Bool
  boolAcceptTcp : Bool
  deriving DecidableEq

/-- `filter_packet_proto`. -/
inductive FilterPacketProto where
  | unknown
  | arp
  | tcp
  | udp
  | icmp
  | igmp
  deriving DecidableEq

/-- `packet_address_proto_info_t`; addresses are in network byte order, ports are not. -/
structure PacketInfo where
  srcIp : UInt32
  srcPort : UInt16
  dstIp : UInt32
  dstPort : UInt16
  proto : FilterPacketProto
  deriving DecidableEq

/-! ### The selection of a rule -/

/-- `march_cidr_and_address`. -/
def marchCidrAndAddress (network : UInt32) (netBitlen : UInt8) (ipAddr : UInt32) : UInt8 :=
  let mask : UInt32 := 0
  let network := ntohl network
  let ipAddr := ntohl ipAddr
  let mask1 := if netBitlen ≠ 0 then (~~~ mask) <<< (32 - netBitlen.toUInt32) else 0
  let ipAddrNetwork := ipAddr &&& mask1
  -- 0.0.0.0/0 gives 1
  if network = ipAddrNetwork then netBitlen + 1 else 0

/-- The rule says something about the protocol. -/
def FilterRuleKey.configured (k : FilterRuleKey) : FilterPacketProto → Bool
  | .icmp => k.boolIcmpConfigured
  | .udp => k.boolUdpConfigured
  | .tcp => k.boolTcpConfigured
  | _ => false

/-- The ports of the packet are in the ranges of the rule. -/
def FilterRuleKey.portsIn (k : FilterRuleKey) (p : PacketInfo) : Prop :=
  k.srcPortRange.startPort ≤ p.srcPort ∧ p.srcPort ≤ k.srcPortRange.endPort ∧
    k.dstPortRange.startPort ≤ p.dstPort ∧ p.dstPort ≤ k.dstPortRange.endPort

instance (k : FilterRuleKey) (p : PacketInfo) : Decidable (k.portsIn p) :=
  inferInstanceAs (Decidable (_ ∧ _))

/-- `march_rule_and_cache_key`. -/
def marchRuleAndCacheKey (ruleKey : FilterRuleKey) (p : PacketInfo) : UInt8 :=
  if !ruleKey.configured p.proto then 0
  else if p.proto = .icmp ∨ ruleKey.portsIn p then
    let marchSrcScore := marchCidrAndAddress ruleKey.srcNetCidr ruleKey.srcNetBitLen p.srcIp
    let marchDstScore := marchCidrAndAddress ruleKey.dstNetCidr ruleKey.dstNetBitLen p.dstIp
    if 0 < marchSrcScore ∧ 0 < marchDstScore then marchSrcScore + marchDstScore else 0
  else 0

/-- `get_filter_rule`; the rules are in the order of the hash list. -/
def getFilterRule (rules : List FilterRule) (p : PacketInfo) : Option FilterRule :=
  (rules.foldl (fun marched item =>
    let curMarchScore := marchRuleAndCacheKey item.key p
    if marched.2 < curMarchScore.toNat then (some item, curMarchScore.toNat) else marched)
    ((none, 0) : Option FilterRule × ℕ)).1

/-! ### What a match is -/

/-- The address is in the network of `n` bits. -/
def InNetwork (network : UInt32) (n : UInt8) (ipAddr : UInt32) : Prop :=
  AgreeOn n.toNat (ntohl network).toBitVec (ntohl ipAddr).toBitVec

/-- The network is written without host bits. -/
def IsNetwork (network : UInt32) (n : UInt8) : Prop :=
  NoHostBits n.toNat (ntohl network).toBitVec

/-- The prefix lengths are those of addresses. -/
def FilterRuleKey.PrefixesValid (k : FilterRuleKey) : Prop :=
  k.srcNetBitLen ≤ 32 ∧ k.dstNetBitLen ≤ 32

/-- Both networks are written without host bits. -/
def FilterRuleKey.Canonical (k : FilterRuleKey) : Prop :=
  IsNetwork k.srcNetCidr k.srcNetBitLen ∧ IsNetwork k.dstNetCidr k.dstNetBitLen

/-- **A rule matches a packet**: the protocol is configured, the ports are in the ranges unless
there are none, and the addresses are in the networks. -/
structure FilterRuleKey.Matches (k : FilterRuleKey) (p : PacketInfo) : Prop where
  proto : k.configured p.proto = true
  ports : p.proto = .icmp ∨ k.portsIn p
  src : InNetwork k.srcNetCidr k.srcNetBitLen p.srcIp
  dst : InNetwork k.dstNetCidr k.dstNetBitLen p.dstIp

/-- The sum of the prefix lengths. -/
def FilterRuleKey.prefixSum (k : FilterRuleKey) : ℕ := k.srcNetBitLen.toNat + k.dstNetBitLen.toNat

/-- **What the selection is meant to do**: nothing is selected exactly if nothing matches, and what
is selected is a matching rule with the longest prefixes. -/
structure SelectionLaw (rules : List FilterRule) (p : PacketInfo) : Prop where
  none_iff : getFilterRule rules p = none ↔ ∀ r ∈ rules, ¬ r.key.Matches p
  best : ∀ r, getFilterRule rules p = some r → r ∈ rules ∧ r.key.Matches p ∧
    ∀ r' ∈ rules, r'.key.Matches p → r'.key.prefixSum ≤ r.key.prefixSum

/-! ### Scores -/

/-- The mask of a prefix length. -/
theorem toBitVec_mask {n : UInt8} (h : n ≤ 32) :
    (if n ≠ 0 then (~~~ (0 : UInt32)) <<< (32 - n.toUInt32) else 0).toBitVec =
      prefixMask 32 n.toNat := by
  have hle : n.toNat ≤ 32 := UInt8.le_iff_toNat_le.mp h
  split_ifs with hzero
  · have hpos : n.toNat ≠ 0 := fun heq => hzero (UInt8.toNat_inj.mp heq)
    have hshift : (32 - n.toUInt32).toNat = 32 - n.toNat := by
      have hthirtyTwo : (32 : UInt32).toNat = 32 := rfl
      rw [UInt32.toNat_sub_of_le _ _ (UInt32.le_iff_toNat_le.mpr (by simpa using hle)),
        UInt8.toNat_toUInt32, hthirtyTwo]
    have hones : (~~~ (0 : UInt32)).toBitVec = BitVec.allOnes 32 := by decide
    apply BitVec.eq_of_toNat_eq
    rw [prefixMask, UInt32.toNat_toBitVec, UInt32.toNat_shiftLeft, hshift,
      Nat.mod_eq_of_lt (by omega : 32 - n.toNat < 32), BitVec.toNat_shiftLeft, ← hones,
    UInt32.toNat_toBitVec]
  · -- no bits at all
    obtain rfl : n = 0 := not_not.mp hzero
    decide

/-- An address scores when it is in the network and the network has no host bits. -/
theorem marchCidrAndAddress_eq {n : UInt8} (h : n ≤ 32) (network ipAddr : UInt32) :
    (InNetwork network n ipAddr ∧ IsNetwork network n →
      (marchCidrAndAddress network n ipAddr).toNat = n.toNat + 1) ∧
    (¬ (InNetwork network n ipAddr ∧ IsNetwork network n) →
      marchCidrAndAddress network n ipAddr = 0) := by
  have hle : n.toNat ≤ 32 := UInt8.le_iff_toNat_le.mp h
  have hmask := toBitVec_mask h
  have heq : ntohl network = ntohl ipAddr &&&
      (if n ≠ 0 then (~~~ (0 : UInt32)) <<< (32 - n.toUInt32) else 0) ↔
        InNetwork network n ipAddr ∧ IsNetwork network n := by
    rw [← UInt32.toBitVec_inj, UInt32.toBitVec_and, hmask]
    exact eq_and_prefixMask_iff hle
  unfold marchCidrAndAddress
  dsimp only
  rw [← heq]
  constructor
  · intro hin
    rw [if_pos hin, UInt8.toNat_add]
    exact Nat.mod_eq_of_lt (by have : (1 : UInt8).toNat = 1 := rfl; omega)
  · intro hout
    rw [if_neg hout]

/-- **The score of a rule**: the sum of the prefix lengths and two for a rule that matches and is
written without host bits, and nothing otherwise. -/
theorem marchRuleAndCacheKey_eq {k : FilterRuleKey} (h : k.PrefixesValid) (p : PacketInfo) :
    (k.Matches p ∧ k.Canonical → (marchRuleAndCacheKey k p).toNat = k.prefixSum + 2) ∧
      (¬ (k.Matches p ∧ k.Canonical) → marchRuleAndCacheKey k p = 0) := by
  obtain ⟨hsrc, hsrc'⟩ := marchCidrAndAddress_eq h.1 k.srcNetCidr p.srcIp
  obtain ⟨hdst, hdst'⟩ := marchCidrAndAddress_eq h.2 k.dstNetCidr p.dstIp
  have hsrclen := UInt8.le_iff_toNat_le.mp h.1
  have hdstlen := UInt8.le_iff_toNat_le.mp h.2
  have hlen : (32 : UInt8).toNat = 32 := rfl
  unfold marchRuleAndCacheKey
  dsimp only
  constructor
  · rintro ⟨hmatch, hcanon⟩
    have hs := hsrc ⟨hmatch.src, hcanon.1⟩
    have hd := hdst ⟨hmatch.dst, hcanon.2⟩
    have hpos : (0 : UInt8) < marchCidrAndAddress k.srcNetCidr k.srcNetBitLen p.srcIp ∧
        (0 : UInt8) < marchCidrAndAddress k.dstNetCidr k.dstNetBitLen p.dstIp := by
      simp only [UInt8.lt_iff_toNat_lt, hs, hd]
      exact ⟨Nat.succ_pos _, Nat.succ_pos _⟩
    rw [hmatch.proto, if_neg (by decide), if_pos hmatch.ports, if_pos hpos, UInt8.toNat_add, hs, hd,
      FilterRuleKey.prefixSum]
    -- 66 at most
    omega
  · intro hno
    by_cases hproto : k.configured p.proto = true
    · rw [hproto, if_neg (by decide)]
      by_cases hports : p.proto = .icmp ∨ k.portsIn p
      · rw [if_pos hports]
        by_cases hs : InNetwork k.srcNetCidr k.srcNetBitLen p.srcIp ∧
            IsNetwork k.srcNetCidr k.srcNetBitLen
        · have hd : ¬ (InNetwork k.dstNetCidr k.dstNetBitLen p.dstIp ∧
              IsNetwork k.dstNetCidr k.dstNetBitLen) := fun hd =>
            hno ⟨⟨hproto, hports, hs.1, hd.1⟩, hs.2, hd.2⟩
          rw [hdst' hd, if_neg (by simp)]
        · rw [hsrc' hs, if_neg (by simp)]
      · rw [if_neg hports]
    · simp [hproto]

/-- The loop keeps the best rule so far. -/
theorem getFilterRule_eq (rules : List FilterRule) (p : PacketInfo) :
    getFilterRule rules p = (scanBest (fun r => (marchRuleAndCacheKey r.key p).toNat) rules).1 :=
  rfl

/-! ### The selected rule -/

/-- **When the selection does what it is meant to do**: no rule matches, or one of the best matching
rules is written without host bits. -/
theorem selectionLaw_iff {rules : List FilterRule} (h : ∀ r ∈ rules, r.key.PrefixesValid)
    (p : PacketInfo) :
    SelectionLaw rules p ↔ (∀ r ∈ rules, ¬ r.key.Matches p) ∨
      ∃ r ∈ rules, r.key.Matches p ∧ r.key.Canonical ∧
        ∀ r' ∈ rules, r'.key.Matches p → r'.key.prefixSum ≤ r.key.prefixSum := by
  have hscore : ∀ r ∈ rules, 0 < (marchRuleAndCacheKey r.key p).toNat →
      r.key.Matches p ∧ r.key.Canonical := by
    intro r hr hpos
    by_contra hno
    rw [(marchRuleAndCacheKey_eq (h r hr) p).2 hno] at hpos
    exact absurd hpos (by decide)
  constructor
  · intro hlaw
    cases hfound : getFilterRule rules p with
    | none => exact .inl (hlaw.none_iff.mp hfound)
    | some r =>
      -- what is found scores, so it has no host bits
      obtain ⟨hr, hmatch, hbest⟩ := hlaw.best r hfound
      rw [getFilterRule_eq] at hfound
      obtain ⟨-, hpos, -⟩ := scanBest_max hfound
      exact .inr ⟨r, hr, hmatch, (hscore r hr hpos).2, hbest⟩
  · intro hcond
    refine ⟨⟨fun hnone r hr hmatch => ?_, fun hno => ?_⟩, fun r hfound => ?_⟩
    · obtain hno | ⟨r₀, hr₀, hmatch₀, hcanon, -⟩ := hcond
      · exact hno r hr hmatch
      · rw [getFilterRule_eq, scanBest_eq_none_iff] at hnone
        have hzero := hnone r₀ hr₀
        rw [(marchRuleAndCacheKey_eq (h r₀ hr₀) p).1 ⟨hmatch₀, hcanon⟩] at hzero
        omega
    · rw [getFilterRule_eq, scanBest_eq_none_iff]
      intro r hr
      rw [(marchRuleAndCacheKey_eq (h r hr) p).2 fun hm => hno r hr hm.1]
      rfl
    · rw [getFilterRule_eq] at hfound
      obtain ⟨hr, hpos, hmax⟩ := scanBest_max hfound
      obtain ⟨hmatch, hcanon⟩ := hscore r hr hpos
      refine ⟨hr, hmatch, fun r' hr' hmatch' => ?_⟩
      obtain hno | ⟨r₀, hr₀, hmatch₀, hcanon₀, hbest⟩ := hcond
      · exact absurd hmatch (hno r hr)
      · -- no matching rule is better than `r₀`, which is no better than the one found
        have hle := hmax r₀ hr₀
        rw [(marchRuleAndCacheKey_eq (h r hr) p).1 ⟨hmatch, hcanon⟩,
          (marchRuleAndCacheKey_eq (h r₀ hr₀) p).1 ⟨hmatch₀, hcanon₀⟩] at hle
        have := hbest r' hr' hmatch'
        omega

/-! ### Two rules -/

/-- An address in network byte order. -/
def inAddr (a b c d : UInt8) : UInt32 := le32 a b c d

/-- A rule that drops TCP between a network and 192.168.0.7, whatever the ports. -/
def dropTcpFrom (network : UInt32) (n : UInt8) : FilterRule where
  key := ⟨network, n, ⟨0, 65535⟩, inAddr 192 168 0 7, 32, ⟨0, 65535⟩, true, false, false⟩
  boolAcceptIcmp := false
  boolAcceptUdp := false
  boolAcceptTcp := false

/-- A packet from 192.168.1.9 to 192.168.0.7. -/
def tcpPacket : PacketInfo :=
  ⟨inAddr 192 168 1 9, 40000, inAddr 192 168 0 7, 80, .tcp⟩

/-- The rule for 192.168.1.0/24 is selected. -/
theorem selectionLaw_network :
    SelectionLaw [dropTcpFrom (inAddr 192 168 1 0) 24] tcpPacket := by
  refine (selectionLaw_iff ?_ tcpPacket).mpr (.inr ⟨_, List.mem_singleton_self _, ?_, ?_, ?_⟩)
  · simp only [List.mem_singleton, forall_eq]
    exact ⟨by decide, by decide⟩
  · exact ⟨rfl, .inr (by decide), by unfold InNetwork; decide, by unfold InNetwork; decide⟩
  · refine ⟨(noHostBits_iff (by decide)).mpr (by decide),
      (noHostBits_iff (by decide)).mpr (by decide)⟩
  · simp

/-- The rule for 192.168.1.5/24 is not, although it is for the same network. -/
theorem not_selectionLaw_hostBits :
    ¬ SelectionLaw [dropTcpFrom (inAddr 192 168 1 5) 24] tcpPacket := by
  intro h
  have hnone : getFilterRule [dropTcpFrom (inAddr 192 168 1 5) 24] tcpPacket = none := by decide
  refine h.none_iff.mp hnone _ (List.mem_singleton_self _) ?_
  exact ⟨rfl, .inr (by decide), by unfold InNetwork; decide, by unfold InNetwork; decide⟩

end N2n
