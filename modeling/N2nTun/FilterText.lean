import N2nTun.FilterRules
import N2nTun.Lib.Decimal
import N2nTun.Lib.Loop

/-!
# Rules of the traffic filter as text

A rule is written as `net/len:[start,end],net/len:[start,end],TCP+,UDP-,ICMP+`, where prefix
lengths, ports and protocols may be missing. `process_traffic_filter_rule_str` reads it with an
automaton of thirteen states, six for each of the two networks and one for the protocols; what
has been read since the state was entered is the token that the state ends with.

Numbers and protocols are copied to buffers of six bytes before they are looked at. A number
that does not fit counts as zero; a protocol is copied all the same.

## Main definitions

* `Stage`, `RuleScan`, `ruleStep` — the automaton and one pass of its loop.
* `processTrafficFilterRuleStr` — the loop.
* `getFilterRuleInfoLogString` — the text of a rule.

## Main results

* `processTrafficFilterRuleStr_isSome` — **the loop ends on every text.**
-/

namespace N2n

open Bytes Loops Tokens

/-! ### The helpers -/

/-- `get_int32_addr_from_ip_string`, with `inet_addr` as a parameter, and what it copies to its
buffer of 16 bytes. -/
def getInt32AddrFromIpString (inetAddr : List UInt8 → UInt32) (token : List UInt8) :
    UInt32 × List (ℕ × ℕ) :=
  if 15 < token.length then (0xffffffff, []) else (inetAddr token, [(token.length, 16)])

/-- `get_int32_from_number_string`, and what it copies to its buffer of 6 bytes. -/
def getInt32FromNumberString (token : List UInt8) : ℤ × List (ℕ × ℕ) :=
  if 5 < token.length then (0, []) else (atoi token, [(token.length, 6)])

/-- `process_traffic_filter_proto`, and what it copies to its buffer of 6 bytes; `behind` is what
the stack holds behind the buffer. -/
def processTrafficFilterProto (behind token : List UInt8) (rule : FilterRule) :
    FilterRule × List (ℕ × ℕ) :=
  -- a token that is too long is only warned of
  let mem := overwrite (List.replicate 6 0 ++ behind) 0 token
  let buf := cstr mem
  let key := rule.key
  (if strstr buf (ascii "TCP") then
      { rule with
        key := { key with boolTcpConfigured := true }
        boolAcceptTcp := mem.getD 3 0 == 0x2b }
    else if strstr buf (ascii "UDP") then
      { rule with
        key := { key with boolUdpConfigured := true }
        boolAcceptUdp := mem.getD 3 0 == 0x2b }
    else if strstr buf (ascii "ICMP") then
      { rule with
        key := { key with boolIcmpConfigured := true }
        boolAcceptIcmp := mem.getD 4 0 == 0x2b }
    else rule, [(token.length, 6)])

/-! ### The text of a rule -/

/-- `inet_ntoa`; the address is in network byte order. -/
def inetNtoa (addr : UInt32) : List UInt8 :=
  let byte (i : ℕ) := decimal (addr.toNat / 256 ^ i % 256)
  byte 0 ++ 0x2e :: (byte 1 ++ 0x2e :: (byte 2 ++ 0x2e :: byte 3))

/-- `%s/%d:[%d,%d]`. -/
def netLogString (cidr : UInt32) (bitLen : UInt8) (ports : PortRange) : List UInt8 :=
  inetNtoa cidr ++ 0x2f :: (decimal bitLen.toNat ++ 0x3a :: 0x5b ::
    (decimal ports.startPort.toNat ++ 0x2c :: (decimal ports.endPort.toNat ++ [0x5d])))

/-- A protocol with its sign, behind a comma. -/
def protoLogString (configured : Bool) (name : List UInt8) (accept : Bool) : List UInt8 :=
  if configured then 0x2c :: (name ++ [if accept then 0x2b else 0x2d]) else []

/-- `get_filter_rule_info_log_string`. -/
def getFilterRuleInfoLogString (rule : FilterRule) : List UInt8 :=
  let key := rule.key
  netLogString key.srcNetCidr key.srcNetBitLen key.srcPortRange ++
    0x2c :: (netLogString key.dstNetCidr key.dstNetBitLen key.dstPortRange ++
      (protoLogString key.boolTcpConfigured (ascii "TCP") rule.boolAcceptTcp ++
        (protoLogString key.boolUdpConfigured (ascii "UDP") rule.boolAcceptUdp ++
          protoLogString key.boolIcmpConfigured (ascii "ICMP") rule.boolAcceptIcmp)))

/-! ### The automaton -/

/-- The network that is read. -/
inductive Side where
  | src
  | dst
  deriving DecidableEq

/-- `filter_process_stage`: six stages for each network, and the protocols. -/
inductive Stage where
  | net (side : Side)
  | netBitLen (side : Side)
  | portSingle (side : Side)
  | portRange (side : Side)
  | portStart (side : Side)
  | portEnd (side : Side)
  | proto
  deriving DecidableEq

/-- The network address of a side. -/
def FilterRule.setNet (rule : FilterRule) (v : UInt32) : Side → FilterRule
  | .src => { rule with key := { rule.key with srcNetCidr := v } }
  | .dst => { rule with key := { rule.key with dstNetCidr := v } }

/-- The prefix length of a side, which is narrowed to 8 bits. -/
def FilterRule.setNetBitLen (rule : FilterRule) (v : ℤ) : Side → FilterRule
  | .src => { rule with key := { rule.key with srcNetBitLen := UInt8.ofInt v } }
  | .dst => { rule with key := { rule.key with dstNetBitLen := UInt8.ofInt v } }

/-- The first port of a side, which is narrowed to 16 bits. -/
def FilterRule.setStartPort (rule : FilterRule) (v : ℤ) : Side → FilterRule
  | .src => { rule with key := { rule.key with
      srcPortRange := { rule.key.srcPortRange with startPort := UInt16.ofInt v } } }
  | .dst => { rule with key := { rule.key with
      dstPortRange := { rule.key.dstPortRange with startPort := UInt16.ofInt v } } }

/-- The last port of a side, which is narrowed to 16 bits. -/
def FilterRule.setEndPort (rule : FilterRule) (v : ℤ) : Side → FilterRule
  | .src => { rule with key := { rule.key with
      srcPortRange := { rule.key.srcPortRange with endPort := UInt16.ofInt v } } }
  | .dst => { rule with key := { rule.key with
      dstPortRange := { rule.key.dstPortRange with endPort := UInt16.ofInt v } } }

/-- The automaton: `token` is what lies between `stage_begin_pos` and `cur_pos`, `rest` the text
from `cur_pos` on. `copies` has the copies to local buffers, with the sizes of these. -/
structure RuleScan where
  stage : Stage
  token : List UInt8
  rest : List UInt8
  rule : FilterRule
  copies : List (ℕ × ℕ)
  deriving DecidableEq

/-- The result of the parser, and what it leaves behind. -/
structure RuleParsed where
  ok : Bool
  rule : FilterRule
  copies : List (ℕ × ℕ)
  deriving DecidableEq

/-- `return 0`. -/
def RuleScan.reject (s : RuleScan) : RuleScan ⊕ RuleParsed := .inr ⟨false, s.rule, s.copies⟩

/-- The end of a pass: `return 1` at the end of the text, else `cur_pos` goes on. -/
def RuleScan.advance (s : RuleScan) : RuleScan ⊕ RuleParsed :=
  match s.rest with
  | [] => .inr ⟨true, s.rule, s.copies⟩
  | _ :: rest => .inl { s with rest := rest }

/-- A "normal" character: the token grows. -/
def RuleScan.stay (s : RuleScan) (c : UInt8) : RuleScan ⊕ RuleParsed :=
  { s with token := s.token ++ [c] }.advance

/-- The next stage, with `stage_begin_pos = cur_pos + 1`. -/
def RuleScan.enter (s : RuleScan) (stage : Stage) : RuleScan ⊕ RuleParsed :=
  { s with stage := stage, token := [] }.advance

/-- The next stage, with `stage_begin_pos = cur_pos + 2` and `++cur_pos`. -/
def RuleScan.enterSkip (s : RuleScan) (stage : Stage) : RuleScan ⊕ RuleParsed :=
  { s with stage := stage, token := [], rest := s.rest.drop 1 }.advance

/-- The address is the token. -/
def RuleScan.takeNet (s : RuleScan) (inetAddr : List UInt8 → UInt32) (side : Side) : RuleScan :=
  let (v, copied) := getInt32AddrFromIpString inetAddr s.token
  { s with rule := s.rule.setNet v side, copies := s.copies ++ copied }

/-- A number is the token. -/
def RuleScan.takeNumber (s : RuleScan) (set : FilterRule → ℤ → FilterRule) : RuleScan :=
  let (v, copied) := getInt32FromNumberString s.token
  { s with rule := set s.rule v, copies := s.copies ++ copied }

/-- The prefix length is left out. -/
def RuleScan.defaultBitLen (s : RuleScan) (side : Side) : RuleScan :=
  { s with rule := s.rule.setNetBitLen 32 side }

/-- The ports are left out. -/
def RuleScan.defaultPorts (s : RuleScan) (side : Side) : RuleScan :=
  { s with rule := (s.rule.setStartPort 0 side).setEndPort 65535 side }

/-- A single port is the token. -/
def RuleScan.takeSinglePort (s : RuleScan) (side : Side) : RuleScan :=
  s.takeNumber fun rule v => (rule.setStartPort v side).setEndPort v side

/-- The character that ends a side: a comma, and for the destination also the end of the text. -/
def Side.endsWith (side : Side) (c : UInt8) : Bool :=
  c == 0x2c || (side == .dst && c == 0)

/-- The stage behind a side. -/
def Side.following : Side → Stage
  | .src => .net .dst
  | .dst => .proto

/-- The stage behind a colon, which the next character tells. -/
def portStage (side : Side) (next : UInt8) : Stage :=
  if next == 0x5b then .portRange side else .portSingle side

/-- One pass of the loop: the switch on the stage, and the step to the next character. -/
def ruleStep (inetAddr : List UInt8 → UInt32) (behind : List UInt8) (s : RuleScan) :
    RuleScan ⊕ RuleParsed :=
  let c := s.rest.getD 0 0
  let next := s.rest.getD 1 0
  match s.stage with
  | .net side =>
    if isDigit c || c == 0x2e then s.stay c
    else if c == 0x2f then (s.takeNet inetAddr side).enter (.netBitLen side)
    else if c == 0x3a then
      ((s.takeNet inetAddr side).defaultBitLen side).enter (portStage side next)
    else if side.endsWith c then
      (((s.takeNet inetAddr side).defaultBitLen side).defaultPorts side).enter side.following
    else s.reject
  | .netBitLen side =>
    if isDigit c then s.stay c
    else if c == 0x3a then
      (s.takeNumber (·.setNetBitLen · side)).enter (portStage side next)
    else if side.endsWith c then
      ((s.takeNumber (·.setNetBitLen · side)).defaultPorts side).enter side.following
    else s.reject
  | .portSingle side =>
    if isDigit c then s.stay c
    else if side.endsWith c then (s.takeSinglePort side).enter side.following
    else s.reject
  | .portRange side => if c == 0x5b then s.enter (.portStart side) else s.reject
  | .portStart side =>
    if isDigit c then s.stay c
    else if c == 0x2c then (s.takeNumber (·.setStartPort · side)).enter (.portEnd side)
    else s.reject
  | .portEnd .src =>
    if isDigit c then s.stay c
    else if c == 0x5d && next == 0x2c then
      (s.takeNumber (·.setEndPort · .src)).enterSkip (.net .dst)
    else s.reject
  | .portEnd .dst =>
    if isDigit c then s.stay c
    else if c == 0x5d then
      let s := s.takeNumber (·.setEndPort · .dst)
      if next == 0x2c then s.enterSkip .proto
      else if next != 0 then s.reject
      -- `stage_begin_pos` is left where it is
      else { s with stage := .proto }.stay c
    else s.reject
  | .proto =>
    if c != 0x2d && c != 0x2b && c != 0x2c then s.stay c
    else if c != 0x2c then
      let (rule, copied) := processTrafficFilterProto behind (s.token ++ [c]) s.rule
      let s := { s with rule := rule, copies := s.copies ++ copied }
      if next == 0 then s.stay c
      -- the next character is skipped, whatever it is
      else s.enterSkip .proto
    else s.reject

/-- The step to the next character leaves less of the text. -/
theorem RuleScan.advance_rest {s s' : RuleScan} (h : s.advance = .inl s') :
    s'.rest.length < s.rest.length := by
  unfold advance at h
  split at h
  · cases h
  · cases h
    simp [*]

theorem RuleScan.enterSkip_rest {s s' : RuleScan} {stage : Stage}
    (h : s.enterSkip stage = .inl s') : s'.rest.length < s.rest.length := by
  have hlt := advance_rest h
  simp only [List.length_drop] at hlt
  omega

/-- **A pass that goes on leaves less of the text.** -/
theorem ruleStep_rest {inetAddr : List UInt8 → UInt32} {behind : List UInt8} {s s' : RuleScan}
    (h : ruleStep inetAddr behind s = .inl s') : s'.rest.length < s.rest.length := by
  -- no update but the one that skips a character touches the text
  have hstay {t : RuleScan} {c : UInt8} (ht : t.stay c = .inl s') :
      s'.rest.length < t.rest.length := by
    have hlt := RuleScan.advance_rest (s := { t with token := t.token ++ [c] }) ht
    exact hlt
  have henter {t : RuleScan} {stage : Stage} (ht : t.enter stage = .inl s') :
      s'.rest.length < t.rest.length := by
    have hlt := RuleScan.advance_rest (s := { t with stage := stage, token := [] }) ht
    exact hlt
  have hreject {t : RuleScan} : ¬ t.reject = .inl s' := by
    intro ht
    cases ht
  simp only [ruleStep] at h
  split at h <;> split_ifs at h <;>
    first
    | have hlt := hstay h; exact hlt
    | have hlt := henter h; exact hlt
    | have hlt := RuleScan.enterSkip_rest h; exact hlt
    | exact absurd h hreject

/-- `process_traffic_filter_rule_str`, with at most `fuel` passes of its loop. -/
def processTrafficFilterRuleStr (inetAddr : List UInt8 → UInt32) (behind : List UInt8) (fuel : ℕ)
    (ruleStr : List UInt8) (rule : FilterRule) : Option RuleParsed :=
  loop (ruleStep inetAddr behind) fuel ⟨.net .src, [], ruleStr, rule, []⟩

/-- **The loop ends on every text**, after a pass for each character and one more. -/
theorem processTrafficFilterRuleStr_isSome (inetAddr : List UInt8 → UInt32)
    (behind ruleStr : List UInt8) (rule : FilterRule) :
    (processTrafficFilterRuleStr inetAddr behind (ruleStr.length + 1) ruleStr rule).isSome :=
  loop_isSome (fun _ _ h => ruleStep_rest h) _

/-- A range of ports, and a number that is longer than five digits. -/
example : (processTrafficFilterRuleStr (fun _ => 7) [] 40 (ascii "1.2.3.4:[80,81],9/8,TCP+")
      ⟨⟨0, 0, ⟨0, 0⟩, 0, 0, ⟨0, 0⟩, false, false, false⟩, false, false, false⟩).map
        (fun r => (r.ok, r.rule.key.srcPortRange, r.rule.key.dstNetBitLen, r.rule.boolAcceptTcp)) =
      some (true, ⟨80, 81⟩, 8, true) ∧
    (processTrafficFilterRuleStr (fun _ => 7) [] 40 (ascii "1:000080,2")
      ⟨⟨0, 0, ⟨0, 0⟩, 0, 0, ⟨0, 0⟩, false, false, false⟩, false, false, false⟩).map
        (fun r => (r.ok, r.rule.key.srcPortRange)) = some (true, ⟨0, 0⟩) := by
  decide +kernel

end N2n
