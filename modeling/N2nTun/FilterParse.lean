import N2nTun.FilterGrammar

/-!
# What the parser of filter rules stores

A rule that is accepted should have been read as it was written: every number stored as it
stands, every prefix length and every port in its range, and no protocol that the parser does not
know. It is not so. A number that is longer than five digits counts as zero; ports are narrowed
to 16 bits, and prefix lengths to 8 bits without a check; a word that is no protocol is warned
of, and a long one is copied over the end of its buffer.

## Main definitions

* `ParserLaw` — what the parser should do with a text.
* `RuleText.Lawful` — the numbers and words of a text that are read well.

## Main results

* `parserLaw_iff` — **the law holds exactly for texts whose numbers have five digits at most and
  are in range, and whose protocols are known**, unless the text is rejected anyway.
-/

namespace N2n

open Bytes Loops Tokens

/-! ### The law -/

/-- A C string. -/
structure CText where
  bytes : List UInt8
  noNul : 0 ∉ bytes

/-- The prefix length of a side. -/
def FilterRule.bitLen (rule : FilterRule) : Side → UInt8
  | .src => rule.key.srcNetBitLen
  | .dst => rule.key.dstNetBitLen

/-- The ports of a side. -/
def FilterRule.ports (rule : FilterRule) : Side → PortRange
  | .src => rule.key.srcPortRange
  | .dst => rule.key.dstPortRange

/-- The number that is written. -/
def Digits.value (ds : Digits) : ℕ := decimalValue ds.1

/-- A number is stored as it is written, and it is in range. -/
def Digits.Stored (ds : Digits) (limit stored : ℕ) : Prop :=
  stored = ds.value ∧ ds.value ≤ limit

/-- What is written of the ports is stored. -/
def PortsText.Stored (range : PortRange) : PortsText → Prop
  | .all => True
  | .single port =>
    port.Stored 65535 range.startPort.toNat ∧ port.Stored 65535 range.endPort.toNat
  | .range first last =>
    first.Stored 65535 range.startPort.toNat ∧ last.Stored 65535 range.endPort.toNat

/-- What is written of a side is stored. -/
def SideText.Stored (rule : FilterRule) (side : Side) (t : SideText) : Prop :=
  (∀ ds ∈ t.bitLen, ds.Stored 32 (rule.bitLen side).toNat) ∧ t.ports.Stored (rule.ports side)

/-- The protocols with their signs. -/
def protoWords : List (List UInt8) :=
  [ascii "TCP+", ascii "TCP-", ascii "UDP+", ascii "UDP-", ascii "ICMP+", ascii "ICMP-"]

/-- All that stands between commas is a protocol. -/
def RuleText.WordsKnown (t : RuleText) : Prop :=
  ∀ p ∈ t.protos, ∀ word ∈ p.splitOn 0x2c, word = [] ∨ word ∈ protoWords

/-- **The law of the parser**: it ends, its copies fit, and a text that is accepted is a rule
whose numbers are stored as they are written, in their ranges, and whose protocols are known. -/
structure ParserLaw (inetAddr : List UInt8 → UInt32) (behind : List UInt8) (text : CText)
    (rule : FilterRule) : Prop where
  ends : ∃ r, RuleRun inetAddr behind text.bytes rule r
  copies : ∀ r, RuleRun inetAddr behind text.bytes rule r → CopiesFit r.copies
  spelled : ∀ r, RuleRun inetAddr behind text.bytes rule r → r.ok = true →
    ∃ t : RuleText, t.text = text.bytes
  stored : ∀ r, RuleRun inetAddr behind text.bytes rule r → r.ok = true →
    ∀ t : RuleText, t.text = text.bytes → t.src.Stored r.rule .src ∧ t.dst.Stored r.rule .dst
  known : ∀ r, RuleRun inetAddr behind text.bytes rule r → r.ok = true →
    ∀ t : RuleText, t.text = text.bytes → t.WordsKnown

/-! ### The texts that are read well -/

/-- A number that is read as it is written. -/
def Digits.Fits (ds : Digits) (limit : ℕ) : Prop :=
  ds.value ≤ limit ∧ (ds.1.length ≤ 5 ∨ ds.value = 0)

def PortsText.Fits : PortsText → Prop
  | .all => True
  | .single port => port.Fits 65535
  | .range first last => first.Fits 65535 ∧ last.Fits 65535

def SideText.Fits (t : SideText) : Prop := (∀ ds ∈ t.bitLen, ds.Fits 32) ∧ t.ports.Fits

/-- The words of the protocols are cut off by signs. -/
def RuleText.words (t : RuleText) : List (List UInt8) × Bool := cutWords [] (t.protos.getD [])

/-- **A text that is read well**: the words fit their buffer and, unless a comma stops the
protocols, the numbers are in range with five digits at most, and the protocols are known. -/
structure RuleText.Lawful (t : RuleText) : Prop where
  fit : ∀ word ∈ t.words.1, word.length ≤ 6
  numbers : t.words.2 = true → t.src.Fits ∧ t.dst.Fits
  known : t.words.2 = true → t.WordsKnown

/-! ### Numbers -/

theorem Digits.read_eq (ds : Digits) : ds.read = if 5 < ds.1.length then 0 else (ds.value : ℤ) := by
  rw [Digits.read, getInt32FromNumberString]
  split_ifs with hlong
  · rfl
  · exact atoi_digits ds.2

/-- A number that is narrowed to `m` values. -/
theorem Digits.stored_iff (ds : Digits) {limit m stored : ℕ} (hlimit : limit < m)
    (hstored : (stored : ℤ) = ds.read % m) : ds.Stored limit stored ↔ ds.Fits limit := by
  rw [ds.read_eq] at hstored
  unfold Stored Fits
  split_ifs at hstored with hlong
  · have hzero : stored = 0 := by simpa using hstored
    omega
  · have hmod : stored = ds.value % m := by exact_mod_cast hstored
    constructor
    · rintro ⟨-, hle⟩
      exact ⟨hle, .inl (by omega)⟩
    · rintro ⟨hle, -⟩
      exact ⟨hmod.trans (Nat.mod_eq_of_lt (by omega)), hle⟩

theorem toNat_ofInt16 (v : ℤ) : ((UInt16.ofInt v).toNat : ℤ) = v % (65536 : ℕ) := by
  rw [UInt16.ofInt, UInt16.toNat_ofNat']
  omega

theorem toNat_ofInt8 (v : ℤ) : ((UInt8.ofInt v).toNat : ℤ) = v % (256 : ℕ) := by
  rw [UInt8.ofInt, UInt8.toNat_ofNat']
  omega

/-- **When a port is stored as it is written.** -/
theorem Digits.stored_port (ds : Digits) :
    ds.Stored 65535 (UInt16.ofInt ds.read).toNat ↔ ds.Fits 65535 :=
  ds.stored_iff (by decide) (toNat_ofInt16 _)

/-- **When a prefix length is stored as it is written.** -/
theorem Digits.stored_bitLen (ds : Digits) :
    ds.Stored 32 (UInt8.ofInt ds.read).toNat ↔ ds.Fits 32 :=
  ds.stored_iff (by decide) (toNat_ofInt8 _)

/-! ### The rule that is stored -/

section Stored

variable {inetAddr : List UInt8 → UInt32} {behind : List UInt8} {rule : FilterRule}
  {side : Side}

/-- The other side. -/
def Side.other : Side → Side
  | .src => .dst
  | .dst => .src

/-- The prefix length and the ports of a side that has been read. -/
theorem SideText.rule_own (t : SideText) :
    (t.rule inetAddr side rule).bitLen side =
        (match t.bitLen with
          | none => 32
          | some ds => UInt8.ofInt ds.read) ∧
      (t.rule inetAddr side rule).ports side =
        (match t.ports with
          | .all => ⟨0, 65535⟩
          | .single port => ⟨UInt16.ofInt port.read, UInt16.ofInt port.read⟩
          | .range first last => ⟨UInt16.ofInt first.read, UInt16.ofInt last.read⟩) := by
  obtain ⟨net, bitLen, ports⟩ := t
  cases side <;> cases bitLen <;> cases ports <;> exact ⟨rfl, rfl⟩

/-- The other side is left alone. -/
theorem SideText.rule_other (t : SideText) :
    (t.rule inetAddr side rule).bitLen side.other = rule.bitLen side.other ∧
      (t.rule inetAddr side rule).ports side.other = rule.ports side.other := by
  obtain ⟨net, bitLen, ports⟩ := t
  cases side <;> cases bitLen <;> cases ports <;> exact ⟨rfl, rfl⟩

/-- The protocols leave both sides alone. -/
theorem wordsRule_side (words : List (List UInt8)) :
    (wordsRule behind rule words).bitLen side = rule.bitLen side ∧
      (wordsRule behind rule words).ports side = rule.ports side := by
  induction words generalizing rule with
  | nil => exact ⟨rfl, rfl⟩
  | cons word words ih =>
    have hword : ∀ side, (processTrafficFilterProto behind word rule).1.bitLen side =
        rule.bitLen side ∧
        (processTrafficFilterProto behind word rule).1.ports side = rule.ports side := by
      intro side
      simp only [processTrafficFilterProto]
      split_ifs <;> cases side <;> exact ⟨rfl, rfl⟩
    rw [wordsRule, List.foldl_cons, ← wordsRule, ih.1, ih.2]
    exact hword side

/-- **When a side is stored as it is written.** -/
theorem SideText.stored_iff {t : SideText} {read : FilterRule}
    (hbits : read.bitLen side = (t.rule inetAddr side rule).bitLen side)
    (hports : read.ports side = (t.rule inetAddr side rule).ports side) :
    t.Stored read side ↔ t.Fits := by
  unfold SideText.Stored SideText.Fits
  rw [hbits, hports, t.rule_own.1, t.rule_own.2]
  refine and_congr ?_ ?_
  · cases t.bitLen with
    | none => simp
    | some ds => simpa using ds.stored_bitLen
  · cases t.ports with
    | all => exact Iff.rfl
    | single port => exact (and_congr port.stored_port port.stored_port).trans (and_self_iff ..)
    | range first last => exact and_congr first.stored_port last.stored_port

/-- **When an accepted rule is stored as it is written.** -/
theorem RuleText.stored_iff (t : RuleText) :
    (t.src.Stored (t.parsed inetAddr behind rule).rule .src ∧
        t.dst.Stored (t.parsed inetAddr behind rule).rule .dst) ↔ t.src.Fits ∧ t.dst.Fits := by
  have hrule : (t.parsed inetAddr behind rule).rule =
      wordsRule behind (t.dst.rule inetAddr .dst (t.src.rule inetAddr .src rule)) t.words.1 := rfl
  rw [hrule]
  -- the destination and the protocols come behind the source and leave it alone
  have hsrc : (wordsRule behind (t.dst.rule inetAddr .dst (t.src.rule inetAddr .src rule))
      t.words.1).bitLen .src = (t.src.rule inetAddr .src rule).bitLen .src :=
    (wordsRule_side _).1.trans t.dst.rule_other.1
  have hports : (wordsRule behind (t.dst.rule inetAddr .dst (t.src.rule inetAddr .src rule))
      t.words.1).ports .src = (t.src.rule inetAddr .src rule).ports .src :=
    (wordsRule_side _).2.trans t.dst.rule_other.2
  exact and_congr (SideText.stored_iff hsrc hports)
    (SideText.stored_iff (wordsRule_side _).1 (wordsRule_side _).2)

/-- **When the copies fit** that are made while a spelled text is read. -/
theorem RuleText.copiesFit_iff (t : RuleText) :
    CopiesFit (t.parsed inetAddr behind rule).copies ↔ ∀ word ∈ t.words.1, word.length ≤ 6 := by
  have hcopies : (t.parsed inetAddr behind rule).copies =
      (t.src.copies inetAddr ++ t.dst.copies inetAddr) ++
        t.words.1.map fun word => (word.length, 6) := rfl
  rw [hcopies]
  constructor
  · intro h word hword
    exact h (word.length, 6) (List.mem_append_right _ (List.mem_map_of_mem hword))
  · intro h
    refine (t.src.copies_fit.append t.dst.copies_fit).append fun x hx => ?_
    obtain ⟨word, hword, rfl⟩ := List.mem_map.mp hx
    exact h word hword

end Stored

/-! ### When the law holds -/

/-- **The parser keeps its law exactly on the texts that are read well.** -/
theorem parserLaw_iff (inetAddr : List UInt8 → UInt32) (behind : List UInt8) (text : CText)
    (rule : FilterRule) :
    ParserLaw inetAddr behind text rule ↔ ∀ t : RuleText, t.text = text.bytes → t.Lawful := by
  obtain ⟨bytes, hnul⟩ := text
  constructor
  · rintro h t rfl
    have hrun : RuleRun inetAddr behind t.text rule (t.parsed inetAddr behind rule) :=
      (ruleRun_iff hnul).mpr rfl
    exact
      { fit := t.copiesFit_iff.mp (h.copies _ hrun)
        numbers := fun hok => t.stored_iff.mp (h.stored _ hrun hok t rfl)
        known := fun hok => h.known _ hrun hok t rfl }
  · intro h
    have hcases : (∃ t : RuleText, t.text = bytes) ∨
        ∃ r, RuleRun inetAddr behind bytes rule r ∧ r.ok = false ∧ CopiesFit r.copies :=
      ruleText_or_rejects hnul
    refine
      { ends := ?_
        copies := fun r hrun => ?_
        spelled := fun r hrun hok => hcases.resolve_right ?_
        stored := fun r hrun hok t ht => ?_
        known := fun r hrun hok t ht => ?_ }
    · obtain ⟨r, hr⟩ := Option.isSome_iff_exists.mp
        (processTrafficFilterRuleStr_isSome inetAddr behind bytes rule)
      exact ⟨r, _, hr⟩
    · obtain ⟨t, rfl⟩ | ⟨r', hrun', -, hfit⟩ := hcases
      · rw [(ruleRun_iff hnul).mp hrun]
        exact t.copiesFit_iff.mpr (h t rfl).fit
      · rw [Ends.unique hrun hrun']
        exact hfit
    · rintro ⟨r', hrun', hreject, -⟩
      rw [Ends.unique hrun hrun', hreject] at hok
      cases hok
    -- the run is the one that the spelling tells
    · subst ht
      obtain rfl := (ruleRun_iff hnul).mp hrun
      exact t.stored_iff.mpr ((h t rfl).numbers hok)
    · subst ht
      obtain rfl := (ruleRun_iff hnul).mp hrun
      exact (h t rfl).known hok

/-- A rule of zeros. -/
def FilterRule.zero : FilterRule :=
  ⟨⟨0, 0, ⟨0, 0⟩, 0, 0, ⟨0, 0⟩, false, false, false⟩, false, false, false⟩

/-- Port 80, written with six digits. -/
def sixDigits : CText := ⟨ascii "10.0.0.1:000080,10.0.0.2,TCP+", by decide +kernel⟩

/-- The spelling of `sixDigits`. -/
def sixDigitsText : RuleText :=
  { src :=
      ⟨⟨ascii "10.0.0.1", by decide +kernel⟩, none, .single ⟨ascii "000080", by decide +kernel⟩⟩
    dst := ⟨⟨ascii "10.0.0.2", by decide +kernel⟩, none, .all⟩
    protos := some (ascii "TCP+") }

/-- The addresses of `sixDigits`. -/
def sixDigitsAddr (s : List UInt8) : UInt32 :=
  if s = ascii "10.0.0.1" then 0x0100000a else 0x0200000a

/-- **A rule for port 80 is accepted as one for port 0.** -/
theorem not_parserLaw_sixDigits : ¬ ParserLaw sixDigitsAddr [] sixDigits .zero := by
  intro h
  have hrun : RuleRun sixDigitsAddr [] sixDigits.bytes .zero
      (sixDigitsText.parsed sixDigitsAddr [] .zero) :=
    (ruleRun_iff (t := sixDigitsText) sixDigits.noNul).mpr rfl
  have hstored := (h.stored _ hrun (by decide +kernel) sixDigitsText (by decide +kernel)).1.2.1.1
  exact absurd hstored (by decide +kernel)

end N2n
