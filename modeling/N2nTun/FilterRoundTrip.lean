import N2nTun.FilterParse

/-!
# Rules of the traffic filter that are printed and parsed

The text that `get_filter_rule_info_log_string` writes of a rule is one that
`process_traffic_filter_rule_str` reads back as the same rule: the numbers have five digits at
most, each protocol with its sign ends where the next comma is skipped, and what is not written
stays zero.

## Main definitions

* `FilterRule.FlagsValid` — a protocol that is not configured is not accepted.
* `FilterRule.spelling` — the parts of the text of a rule.

## Main results

* `ruleRun_logString` — **a rule that is printed is read back.**
-/

namespace N2n

open Bytes Loops Tokens

/-- A protocol that is not configured is not accepted. -/
structure FilterRule.FlagsValid (rule : FilterRule) : Prop where
  tcp : rule.key.boolTcpConfigured = false → rule.boolAcceptTcp = false
  udp : rule.key.boolUdpConfigured = false → rule.boolAcceptUdp = false
  icmp : rule.key.boolIcmpConfigured = false → rule.boolAcceptIcmp = false

/-- The networks and the ports of a rule. -/
def FilterRule.withoutProtos (rule : FilterRule) : FilterRule :=
  { key :=
      { rule.key with
        boolTcpConfigured := false
        boolUdpConfigured := false
        boolIcmpConfigured := false }
    boolAcceptIcmp := false
    boolAcceptUdp := false
    boolAcceptTcp := false }

/-! ### The spelling of a rule -/

/-- The digits of a number. -/
def decimalDigits (n : ℕ) : Digits := ⟨decimal n, isDigit_decimal n⟩

/-- An address is written with digits and dots. -/
def netSpelling (addr : UInt32) : NetText :=
  ⟨inetNtoa addr, by
    intro b hb
    simp only [inetNtoa, List.mem_append, List.mem_cons] at hb
    have hdigit : ∀ n, b ∈ decimal n → (isDigit b || b == 0x2e) = true := by
      intro n hn
      rw [isDigit_decimal n b hn, Bool.true_or]
    rcases hb with h | rfl | h | rfl | h | rfl | h
    · exact hdigit _ h
    · rfl
    · exact hdigit _ h
    · rfl
    · exact hdigit _ h
    · rfl
    · exact hdigit _ h⟩

/-- A side as it is written. -/
def sideSpelling (cidr : UInt32) (bitLen : UInt8) (ports : PortRange) : SideText where
  net := netSpelling cidr
  bitLen := some (decimalDigits bitLen.toNat)
  ports := .range (decimalDigits ports.startPort.toNat) (decimalDigits ports.endPort.toNat)

/-- The protocols as they are written, each with a comma before it. -/
def FilterRule.protosText (rule : FilterRule) : List UInt8 :=
  protoLogString rule.key.boolTcpConfigured (ascii "TCP") rule.boolAcceptTcp ++
    (protoLogString rule.key.boolUdpConfigured (ascii "UDP") rule.boolAcceptUdp ++
      protoLogString rule.key.boolIcmpConfigured (ascii "ICMP") rule.boolAcceptIcmp)

/-- A protocol with its sign, if it is written. -/
def protoWord (configured : Bool) (name : List UInt8) (accept : Bool) : List (List UInt8) :=
  if configured then [name ++ [if accept then 0x2b else 0x2d]] else []

/-- The words of the protocols. -/
def FilterRule.words (rule : FilterRule) : List (List UInt8) :=
  protoWord rule.key.boolTcpConfigured (ascii "TCP") rule.boolAcceptTcp ++
    (protoWord rule.key.boolUdpConfigured (ascii "UDP") rule.boolAcceptUdp ++
      protoWord rule.key.boolIcmpConfigured (ascii "ICMP") rule.boolAcceptIcmp)

/-- **The spelling of a rule.** -/
def FilterRule.spelling (rule : FilterRule) : RuleText where
  src := sideSpelling rule.key.srcNetCidr rule.key.srcNetBitLen rule.key.srcPortRange
  dst := sideSpelling rule.key.dstNetCidr rule.key.dstNetBitLen rule.key.dstPortRange
  protos := if rule.protosText = [] then none else some (rule.protosText.drop 1)

/-- The protocols begin with a comma. -/
theorem FilterRule.protosText_eq (rule : FilterRule) :
    tailText (if rule.protosText = [] then none else some (rule.protosText.drop 1)) =
      rule.protosText := by
  unfold protosText protoLogString
  cases rule.key.boolTcpConfigured <;> cases rule.key.boolUdpConfigured <;>
    cases rule.key.boolIcmpConfigured <;> rfl

theorem FilterRule.spelling_text (rule : FilterRule) :
    rule.spelling.text = getFilterRuleInfoLogString rule := by
  rw [RuleText.text, spelling, protosText_eq]
  rfl

/-- No side has a NUL in it. -/
theorem SideText.noNul (t : SideText) : 0 ∉ t.text := by
  have hdigits : ∀ ds : Digits, 0 ∉ ds.1 := fun ds hmem => absurd (ds.2 0 hmem) (by decide)
  obtain ⟨net, bitLen, ports⟩ := t
  have hnet : 0 ∉ net.1 := fun hmem => absurd (net.2 0 hmem) (by decide)
  have hbits : 0 ∉ bitLenText bitLen := by
    cases bitLen with
    | none => simp [bitLenText]
    | some ds => simp [bitLenText, hdigits ds]
  have hports : 0 ∉ ports.text := by
    cases ports with
    | all => simp [PortsText.text]
    | single port => simp [PortsText.text, hdigits port]
    | range first last => simp [PortsText.text, hdigits first, hdigits last]
  simp [SideText.text, hnet, hbits, hports]

/-- Nor has the text of a rule. -/
theorem FilterRule.spelling_noNul (rule : FilterRule) : 0 ∉ rule.spelling.text := by
  have hproto : ∀ {configured accept : Bool} {name : List UInt8}, 0 ∉ name →
      0 ∉ protoLogString configured name accept := by
    intro configured accept name hname
    cases configured <;> cases accept <;> simp [protoLogString, hname]
  have hprotos : 0 ∉ rule.protosText := by
    intro hmem
    rcases List.mem_append.mp hmem with h | h
    · exact hproto (by decide) h
    · rcases List.mem_append.mp h with h | h
      · exact hproto (by decide) h
      · exact hproto (by decide) h
  have htail : 0 ∉ tailText rule.spelling.protos := by
    rw [spelling, protosText_eq]
    exact hprotos
  simp [RuleText.text, SideText.noNul, htail]

/-! ### What is read back -/

/-- A number of five digits at most is read back. -/
theorem decimalDigits_read {n : ℕ} (h : n < 10 ^ 5) : (decimalDigits n).read = n := by
  have hlen : ¬ 5 < (decimalDigits n).1.length :=
    Nat.not_lt.mpr (length_decimal_le h (by decide))
  rw [Digits.read_eq, if_neg hlen, Digits.value]
  exact congrArg _ (decimalValue_decimal n)

theorem decimalDigits_read16 (n : UInt16) : UInt16.ofInt (decimalDigits n.toNat).read = n := by
  have hlt := n.toNat_lt
  rw [decimalDigits_read (by omega)]
  apply UInt16.toNat_inj.mp
  have hnat := toNat_ofInt16 n.toNat
  omega

theorem decimalDigits_read8 (n : UInt8) : UInt8.ofInt (decimalDigits n.toNat).read = n := by
  have hlt := n.toNat_lt
  rw [decimalDigits_read (by omega)]
  apply UInt8.toNat_inj.mp
  have hnat := toNat_ofInt8 n.toNat
  omega

section RoundTrip

variable {inetAddr : List UInt8 → UInt32} {behind : List UInt8} {rule : FilterRule}

/-- An address fits its buffer. -/
theorem length_inetNtoa_le (addr : UInt32) : (inetNtoa addr).length ≤ 15 := by
  have hbyte : ∀ i, (decimal (addr.toNat / 256 ^ i % 256)).length ≤ 3 := fun i =>
    length_decimal_le (by omega) (by decide)
  have h0 := hbyte 0
  have h1 := hbyte 1
  have h2 := hbyte 2
  have h3 := hbyte 3
  simp only [inetNtoa, List.length_append, List.length_cons]
  omega

/-- An address is read back. -/
theorem getInt32AddrFromIpString_inetNtoa {addr : UInt32}
    (h : inetAddr (inetNtoa addr) = addr) :
    (getInt32AddrFromIpString inetAddr (inetNtoa addr)).1 = addr := by
  have hlen : ¬ 15 < (inetNtoa addr).length := Nat.not_lt.mpr (length_inetNtoa_le addr)
  rw [getInt32AddrFromIpString, if_neg hlen]
  exact h

/-- **The networks and the ports are read back.** -/
theorem sides_read (hsrc : inetAddr (inetNtoa rule.key.srcNetCidr) = rule.key.srcNetCidr)
    (hdst : inetAddr (inetNtoa rule.key.dstNetCidr) = rule.key.dstNetCidr) :
    rule.spelling.dst.rule inetAddr .dst (rule.spelling.src.rule inetAddr .src .zero) =
      rule.withoutProtos := by
  have h₁ := getInt32AddrFromIpString_inetNtoa hsrc
  have h₂ := getInt32AddrFromIpString_inetNtoa hdst
  simp only [FilterRule.spelling, sideSpelling, netSpelling, SideText.rule, bitLenRule,
    PortsText.rule, FilterRule.setNet, FilterRule.setNetBitLen, FilterRule.setStartPort,
    FilterRule.setEndPort, decimalDigits_read16, decimalDigits_read8, h₁, h₂]
  rfl

/-- A protocol with its sign. -/
theorem proto_tcp (accept : Bool) :
    (processTrafficFilterProto behind (ascii "TCP" ++ [if accept then 0x2b else 0x2d]) rule).1 =
      { rule with
        key := { rule.key with boolTcpConfigured := true }
        boolAcceptTcp := accept } := by
  cases accept <;> rfl

theorem proto_udp (accept : Bool) :
    (processTrafficFilterProto behind (ascii "UDP" ++ [if accept then 0x2b else 0x2d]) rule).1 =
      { rule with
        key := { rule.key with boolUdpConfigured := true }
        boolAcceptUdp := accept } := by
  cases accept <;> rfl

theorem proto_icmp (accept : Bool) :
    (processTrafficFilterProto behind (ascii "ICMP" ++ [if accept then 0x2b else 0x2d]) rule).1 =
      { rule with
        key := { rule.key with boolIcmpConfigured := true }
        boolAcceptIcmp := accept } := by
  cases accept <;> rfl

/-- The letters of a name go into the word. -/
theorem cutWords_append {word cs p : List UInt8} (h : ∀ c ∈ cs, Stage.proto.keeps c = true) :
    cutWords word (cs ++ p) = cutWords (word ++ cs) p := by
  induction cs generalizing word with
  | nil => rw [List.nil_append, List.append_nil]
  | cons c cs ih =>
    have hcut : cutWords word (c :: (cs ++ p)) = cutWords (word ++ [c]) (cs ++ p) := by
      rw [cutWords.eq_def]
      exact if_pos (h c List.mem_cons_self)
    rw [List.cons_append, hcut, ih fun c' hc' => h c' (List.mem_cons_of_mem _ hc')]
    simp

/-- **A protocol is cut off as it was written**, and the comma of the next one is skipped. -/
theorem cutWords_protoLogString {configured accept : Bool} {name rest : List UInt8}
    (hname : ∀ c ∈ name, Stage.proto.keeps c = true) :
    cutWords [] ((protoLogString configured name accept ++ rest).drop 1) =
      (protoWord configured name accept ++ (cutWords [] (rest.drop 1)).1,
        (cutWords [] (rest.drop 1)).2) := by
  cases configured with
  | false => rfl
  | true =>
    have htext : (protoLogString true name accept ++ rest).drop 1 =
        name ++ ((if accept then 0x2b else 0x2d) :: rest) := by
      simp [protoLogString]
    rw [htext, cutWords_append hname, List.nil_append]
    cases rest <;> cases accept <;> rfl

theorem spelling_words (rule : FilterRule) : rule.spelling.words = (rule.words, true) := by
  have htext : rule.spelling.protos.getD [] = rule.protosText.drop 1 := by
    rw [FilterRule.spelling]
    split_ifs with hnil
    · rw [hnil]
      rfl
    · rfl
  have hicmp : cutWords []
      ((protoLogString rule.key.boolIcmpConfigured (ascii "ICMP") rule.boolAcceptIcmp).drop 1) =
        (protoWord rule.key.boolIcmpConfigured (ascii "ICMP") rule.boolAcceptIcmp ++
          (cutWords [] []).1, (cutWords [] []).2) := by
    have hcut := @cutWords_protoLogString rule.key.boolIcmpConfigured rule.boolAcceptIcmp
      (ascii "ICMP") [] (by decide +kernel)
    rw [List.append_nil] at hcut
    exact hcut
  rw [RuleText.words, htext, FilterRule.protosText, cutWords_protoLogString (by decide +kernel),
    cutWords_protoLogString (by decide +kernel), hicmp]
  simp [FilterRule.words, cutWords]

/-- A protocol that is configured is read, and the others are left out. -/
theorem wordsRule_tcp (configured accept : Bool) (words : List (List UInt8)) :
    wordsRule behind rule (protoWord configured (ascii "TCP") accept ++ words) =
      wordsRule behind
        (if configured then
          { rule with key := { rule.key with boolTcpConfigured := true }, boolAcceptTcp := accept }
        else rule) words := by
  cases configured with
  | false => rfl
  | true =>
    rw [if_pos rfl, ← @proto_tcp behind]
    rfl

theorem wordsRule_udp (configured accept : Bool) (words : List (List UInt8)) :
    wordsRule behind rule (protoWord configured (ascii "UDP") accept ++ words) =
      wordsRule behind
        (if configured then
          { rule with key := { rule.key with boolUdpConfigured := true }, boolAcceptUdp := accept }
        else rule) words := by
  cases configured with
  | false => rfl
  | true =>
    rw [if_pos rfl, ← @proto_udp behind]
    rfl

theorem wordsRule_icmp (configured accept : Bool) :
    wordsRule behind rule (protoWord configured (ascii "ICMP") accept) =
      if configured then
        { rule with key := { rule.key with boolIcmpConfigured := true }, boolAcceptIcmp := accept }
      else rule := by
  cases configured with
  | false => rfl
  | true =>
    rw [if_pos rfl, ← @proto_icmp behind]
    rfl

/-- **The protocols are read back.** -/
theorem words_read (h : rule.FlagsValid) :
    wordsRule behind rule.withoutProtos rule.words = rule := by
  rw [FilterRule.words, wordsRule_tcp, wordsRule_udp, wordsRule_icmp]
  obtain ⟨⟨srcNet, srcLen, srcPorts, dstNet, dstLen, dstPorts, tcp, udp, icmp⟩, acceptIcmp,
    acceptUdp, acceptTcp⟩ := rule
  -- a protocol that is left out has no flag to lose
  have htcp : tcp = false → acceptTcp = false := h.tcp
  have hudp : udp = false → acceptUdp = false := h.udp
  have hicmp : icmp = false → acceptIcmp = false := h.icmp
  cases tcp <;> cases udp <;> cases icmp <;> simp_all [FilterRule.withoutProtos]

end RoundTrip

/-- **A rule that is printed is read back**, on a rule of zeros and whatever its prefix lengths
are. -/
theorem ruleRun_logString (inetAddr : List UInt8 → UInt32) (behind : List UInt8)
    (rule : FilterRule) (hflags : rule.FlagsValid)
    (hsrc : inetAddr (inetNtoa rule.key.srcNetCidr) = rule.key.srcNetCidr)
    (hdst : inetAddr (inetNtoa rule.key.dstNetCidr) = rule.key.dstNetCidr) :
    ∃ copies, ∀ r, RuleRun inetAddr behind (getFilterRuleInfoLogString rule) .zero r ↔
      r = ⟨true, rule, copies⟩ := by
  refine ⟨(rule.spelling.parsed inetAddr behind .zero).copies, fun r => ?_⟩
  rw [← rule.spelling_text, ruleRun_iff rule.spelling_noNul]
  have hparsed : rule.spelling.parsed inetAddr behind .zero =
      protosParsed behind rule.withoutProtos
        (rule.spelling.src.copies inetAddr ++ rule.spelling.dst.copies inetAddr) []
        (rule.spelling.protos.getD []) := by
    rw [RuleText.parsed, sides_read hsrc hdst]
  have hwords : cutWords [] (rule.spelling.protos.getD []) = (rule.words, true) :=
    spelling_words rule
  rw [hparsed, protosParsed, hwords]
  simp only [words_read hflags]

/-- A rule from one network to another. -/
def officeRule : FilterRule :=
  { key :=
      { srcNetCidr := 0x0000000a
        srcNetBitLen := 8
        srcPortRange := ⟨0, 65535⟩
        dstNetCidr := 0x0001a8c0
        dstNetBitLen := 24
        dstPortRange := ⟨80, 8080⟩
        boolTcpConfigured := true
        boolUdpConfigured := false
        boolIcmpConfigured := true }
    boolAcceptIcmp := false
    boolAcceptUdp := false
    boolAcceptTcp := true }

/-- The addresses of `officeRule`. -/
def officeAddr (s : List UInt8) : UInt32 :=
  if s = ascii "10.0.0.0" then 0x0000000a
  else if s = ascii "192.168.1.0" then 0x0001a8c0
  else 0xffffffff

/-- `officeRule` is read back. -/
theorem ruleRun_logString_office :
    ∃ copies, ∀ r, RuleRun officeAddr [] (getFilterRuleInfoLogString officeRule) .zero r ↔
      r = ⟨true, officeRule, copies⟩ :=
  ruleRun_logString officeAddr [] officeRule
    ⟨fun h => (nomatch h), fun _ => rfl, fun h => (nomatch h)⟩ (by decide +kernel)
    (by decide +kernel)

end N2n
