import N2nTun.FilterText

/-!
# The language of rule texts

What the automaton of `process_traffic_filter_rule_str` accepts, as a grammar: two sides, each an
address with an optional prefix length and optional ports, and a list of protocols that is cut
into words by signs. A spelled text is read piece by piece, and a text that no side spells is
rejected before the protocols are reached.

## Main definitions

* `SideText`, `RuleText` — the parts of a text, and the text that they spell.
* `cutWords` — the words of the list of protocols.
* `RuleText.parsed` — what is read from a spelled text.

## Main results

* `ruleRun_iff` — **a spelled text is read as its parts say.**
* `ruleText_or_rejects` — **a text is spelled or rejected.**
-/

namespace N2n

open Bytes Loops Tokens

/-! ### The parts of a text -/

/-- Some digits. -/
def Digits := {ds : List UInt8 // ∀ b ∈ ds, isDigit b = true}

/-- Digits and dots. -/
def NetText := {ds : List UInt8 // ∀ b ∈ ds, (isDigit b || b == 0x2e) = true}

/-- The ports of a side. -/
inductive PortsText where
  | all
  | single (port : Digits)
  | range (first last : Digits)

/-- One side of a rule. -/
structure SideText where
  net : NetText
  bitLen : Option Digits
  ports : PortsText

/-- A rule: the protocols are what follows the comma behind the destination. -/
structure RuleText where
  src : SideText
  dst : SideText
  protos : Option (List UInt8)

/-- A prefix length behind a slash. -/
def bitLenText : Option Digits → List UInt8
  | none => []
  | some ds => 0x2f :: ds.1

def PortsText.text : PortsText → List UInt8
  | .all => []
  | .single port => 0x3a :: port.1
  | .range first last => 0x3a :: 0x5b :: (first.1 ++ 0x2c :: (last.1 ++ [0x5d]))

def SideText.text (t : SideText) : List UInt8 := t.net.1 ++ (bitLenText t.bitLen ++ t.ports.text)

/-- What follows a side, behind a comma. -/
def tailText : Option (List UInt8) → List UInt8
  | none => []
  | some p => 0x2c :: p

def RuleText.text (t : RuleText) : List UInt8 :=
  t.src.text ++ 0x2c :: (t.dst.text ++ tailText t.protos)

/-- The words of the list of protocols: each ends with a sign, and the character behind it is
skipped, whatever it is. The second value is false when a comma stops the list. -/
def cutWords (word : List UInt8) : List UInt8 → List (List UInt8) × Bool
  | [] => ([], true)
  | c :: p =>
    if c != 0x2d && c != 0x2b && c != 0x2c then cutWords (word ++ [c]) p
    else if c != 0x2c then
      match p with
      | [] => ([word ++ [c]], true)
      | _ :: p => ((word ++ [c]) :: (cutWords [] p).1, (cutWords [] p).2)
    else ([], false)

/-! ### What is read -/

/-- The number that some digits are read as. -/
def Digits.read (ds : Digits) : ℤ := (getInt32FromNumberString ds.1).1

def Digits.copies (ds : Digits) : List (ℕ × ℕ) := (getInt32FromNumberString ds.1).2

def bitLenRule (side : Side) (rule : FilterRule) : Option Digits → FilterRule
  | none => rule.setNetBitLen 32 side
  | some ds => rule.setNetBitLen ds.read side

def bitLenCopies : Option Digits → List (ℕ × ℕ)
  | none => []
  | some ds => ds.copies

def PortsText.rule (side : Side) (rule : FilterRule) : PortsText → FilterRule
  | .all => (rule.setStartPort 0 side).setEndPort 65535 side
  | .single port => (rule.setStartPort port.read side).setEndPort port.read side
  | .range first last => (rule.setStartPort first.read side).setEndPort last.read side

def PortsText.copies : PortsText → List (ℕ × ℕ)
  | .all => []
  | .single port => port.copies
  | .range first last => first.copies ++ last.copies

section Reading

variable (inetAddr : List UInt8 → UInt32) (behind : List UInt8)

def SideText.rule (side : Side) (rule : FilterRule) (t : SideText) : FilterRule :=
  t.ports.rule side
    (bitLenRule side (rule.setNet (getInt32AddrFromIpString inetAddr t.net.1).1 side) t.bitLen)

def SideText.copies (t : SideText) : List (ℕ × ℕ) :=
  (getInt32AddrFromIpString inetAddr t.net.1).2 ++ (bitLenCopies t.bitLen ++ t.ports.copies)

/-- The words one after the other. -/
def wordsRule (rule : FilterRule) (words : List (List UInt8)) : FilterRule :=
  words.foldl (fun rule word => (processTrafficFilterProto behind word rule).1) rule

/-- The list of protocols is read to its end or to the comma that stops it. -/
def protosParsed (rule : FilterRule) (copies : List (ℕ × ℕ)) (word p : List UInt8) : RuleParsed :=
  let (words, ok) := cutWords word p
  ⟨ok, wordsRule behind rule words, copies ++ words.map fun word => (word.length, 6)⟩

/-- What is read from a spelled text. -/
def RuleText.parsed (rule : FilterRule) (t : RuleText) : RuleParsed :=
  protosParsed behind (t.dst.rule inetAddr .dst (t.src.rule inetAddr .src rule))
    (t.src.copies inetAddr ++ t.dst.copies inetAddr) [] (t.protos.getD [])

/-! ### Reading a spelled text -/

/-- The characters that a stage stays with. -/
def Stage.keeps : Stage → UInt8 → Bool
  | .net _, c => isDigit c || c == 0x2e
  | .portRange _, _ => false
  | .proto, c => c != 0x2d && c != 0x2b && c != 0x2c
  | _, c => isDigit c

variable {inetAddr behind} {stage : Stage} {side : Side} {word rest cs : List UInt8}
  {rule : FilterRule} {copies : List (ℕ × ℕ)} {r : RuleParsed}

/-- **Characters that a stage stays with become its token.** -/
theorem ends_keep (h : ∀ c ∈ cs, stage.keeps c = true) :
    Ends (ruleStep inetAddr behind) ⟨stage, word, cs ++ rest, rule, copies⟩ r ↔
      Ends (ruleStep inetAddr behind) ⟨stage, word ++ cs, rest, rule, copies⟩ r := by
  induction cs generalizing word with
  | nil => rw [List.nil_append, List.append_nil]
  | cons c cs ih =>
    have hc := h c List.mem_cons_self
    have hstep : ruleStep inetAddr behind ⟨stage, word, c :: cs ++ rest, rule, copies⟩ =
        .inl ⟨stage, word ++ [c], cs ++ rest, rule, copies⟩ := by
      cases stage with
      | portEnd side => cases side <;> exact if_pos hc
      | portRange side => cases hc
      | _ => exact if_pos hc
    rw [ends_of_next hstep, ih fun c' hc' => h c' (List.mem_cons_of_mem _ hc')]
    simp

variable {tail : Option (List UInt8)}

/-- What may follow a side: the text goes on behind a source. -/
def Side.MayEnd (side : Side) (tail : Option (List UInt8)) : Prop := side = .src → tail.isSome

/-- The run behind a side. -/
def RunsBehind (inetAddr : List UInt8 → UInt32) (behind : List UInt8) (side : Side)
    (rule : FilterRule) (copies : List (ℕ × ℕ)) (r : RuleParsed) : Option (List UInt8) → Prop
  | none => r = ⟨true, rule, copies⟩
  | some p => Ends (ruleStep inetAddr behind) ⟨side.following, [], p, rule, copies⟩ r

/-- Where a pass ends a side, the run goes on behind it. -/
theorem ends_tail {rule' : FilterRule} {copies' : List (ℕ × ℕ)} (h : side.MayEnd tail)
    (hstep : ∀ c, side.endsWith c = true → (tailText tail).getD 0 0 = c →
      ruleStep inetAddr behind ⟨stage, word, tailText tail, rule, copies⟩ =
        RuleScan.enter ⟨stage, word, tailText tail, rule', copies'⟩ side.following) :
    Ends (ruleStep inetAddr behind) ⟨stage, word, tailText tail, rule, copies⟩ r ↔
      RunsBehind inetAddr behind side rule' copies' r tail := by
  cases tail with
  | none =>
    cases side with
    | src => cases h rfl
    | dst => exact ends_of_done (hstep 0 rfl rfl)
  | some p =>
    have hcomma : side.endsWith 0x2c = true := by cases side <;> rfl
    exact ends_of_next (hstep 0x2c hcomma rfl)

/-- An address alone. -/
theorem ends_net_tail (h : side.MayEnd tail) :
    Ends (ruleStep inetAddr behind) ⟨.net side, word, tailText tail, rule, copies⟩ r ↔
      RunsBehind inetAddr behind side
        (PortsText.rule side
          (bitLenRule side (rule.setNet (getInt32AddrFromIpString inetAddr word).1 side) none) .all)
        (copies ++ (getInt32AddrFromIpString inetAddr word).2) r tail := by
  refine ends_tail h fun c hend hc => ?_
  cases tail with
  | none =>
    cases side with
    | src => cases h rfl
    | dst => rfl
  | some p => cases side <;> rfl

/-- A prefix length that no ports follow. -/
theorem ends_netBitLen_tail (h : side.MayEnd tail) :
    Ends (ruleStep inetAddr behind) ⟨.netBitLen side, word, tailText tail, rule, copies⟩ r ↔
      RunsBehind inetAddr behind side
        (PortsText.rule side (rule.setNetBitLen (getInt32FromNumberString word).1 side) .all)
        (copies ++ (getInt32FromNumberString word).2) r tail := by
  refine ends_tail h fun c hend hc => ?_
  cases tail with
  | none =>
    cases side with
    | src => cases h rfl
    | dst => rfl
  | some p => cases side <;> rfl

/-- A single port. -/
theorem ends_portSingle_tail (h : side.MayEnd tail) :
    Ends (ruleStep inetAddr behind) ⟨.portSingle side, word, tailText tail, rule, copies⟩ r ↔
      RunsBehind inetAddr behind side
        ((rule.setStartPort (getInt32FromNumberString word).1 side).setEndPort
          (getInt32FromNumberString word).1 side)
        (copies ++ (getInt32FromNumberString word).2) r tail := by
  refine ends_tail h fun c hend hc => ?_
  cases tail with
  | none =>
    cases side with
    | src => cases h rfl
    | dst => rfl
  | some p => cases side <;> rfl

/-- The end of a range of ports. Behind the destination the stage that is entered does not
matter when the text ends. -/
theorem ends_portEnd_tail (h : side.MayEnd tail) :
    Ends (ruleStep inetAddr behind) ⟨.portEnd side, word, 0x5d :: tailText tail, rule, copies⟩ r ↔
      RunsBehind inetAddr behind side (rule.setEndPort (getInt32FromNumberString word).1 side)
        (copies ++ (getInt32FromNumberString word).2) r tail := by
  cases tail with
  | none =>
    cases side with
    | src => cases h rfl
    | dst =>
      have hstep : ruleStep inetAddr behind ⟨.portEnd .dst, word, [0x5d], rule, copies⟩ =
          .inl ⟨.proto, word ++ [0x5d], [], rule.setEndPort (getInt32FromNumberString word).1 .dst,
            copies ++ (getInt32FromNumberString word).2⟩ := rfl
      exact (ends_of_next hstep).trans (ends_of_done rfl)
  | some p => cases side <;> exact ends_of_next rfl

/-- The ports of a side, behind the colon. -/
theorem ends_colon {p : PortsText} {text : List UInt8} (hp : p.text = 0x3a :: text)
    (h : side.MayEnd tail) :
    Ends (ruleStep inetAddr behind)
        ⟨portStage side ((text ++ tailText tail).getD 0 0), [], text ++ tailText tail, rule,
          copies⟩ r ↔
      RunsBehind inetAddr behind side (p.rule side rule) (copies ++ p.copies) r tail := by
  cases p with
  | all => cases hp
  | single port =>
    cases hp
    have hstage : portStage side ((port.1 ++ tailText tail).getD 0 0) = .portSingle side := by
      have hne : (port.1 ++ tailText tail).getD 0 0 ≠ 0x5b := by
        cases hport : port.1 with
        | nil =>
          cases tail <;> simp [tailText]
        | cons d ds =>
          have hd := port.2 d (by rw [hport]; exact List.mem_cons_self)
          rintro rfl
          exact absurd hd (by decide)
      exact if_neg (by simpa using hne)
    rw [hstage]
    have hport : ∀ c ∈ port.1, (Stage.portSingle side).keeps c = true := port.2
    exact (ends_keep hport).trans (ends_portSingle_tail h)
  | range first last =>
    cases hp
    have htext : (0x5b : UInt8) :: (first.1 ++ 0x2c :: (last.1 ++ [0x5d])) ++ tailText tail =
        0x5b :: (first.1 ++ 0x2c :: (last.1 ++ 0x5d :: tailText tail)) := by simp
    have hopen : ruleStep inetAddr behind ⟨.portRange side, [],
        0x5b :: (first.1 ++ 0x2c :: (last.1 ++ 0x5d :: tailText tail)), rule, copies⟩ =
          .inl ⟨.portStart side, [], first.1 ++ 0x2c :: (last.1 ++ 0x5d :: tailText tail), rule,
            copies⟩ := rfl
    have hcomma : ruleStep inetAddr behind ⟨.portStart side, first.1,
        0x2c :: (last.1 ++ 0x5d :: tailText tail), rule, copies⟩ =
          .inl ⟨.portEnd side, [], last.1 ++ 0x5d :: tailText tail,
            rule.setStartPort first.read side, copies ++ first.copies⟩ := rfl
    have hfirst : ∀ c ∈ first.1, (Stage.portStart side).keeps c = true := first.2
    have hlast : ∀ c ∈ last.1, (Stage.portEnd side).keeps c = true := last.2
    rw [htext]
    refine (ends_of_next hopen).trans ?_
    rw [ends_keep hfirst, List.nil_append, ends_of_next hcomma, ends_keep hlast, List.nil_append,
      ends_portEnd_tail h, List.append_assoc]
    rfl

/-- The ports are left out or stand behind a colon. -/
theorem PortsText.text_cases (p : PortsText) : p = .all ∨ ∃ text, p.text = 0x3a :: text := by
  cases p with
  | all => exact .inl rfl
  | single port => exact .inr ⟨_, rfl⟩
  | range first last => exact .inr ⟨_, rfl⟩

/-- An address without a prefix length. -/
theorem ends_net_ports {p : PortsText} (h : side.MayEnd tail) :
    Ends (ruleStep inetAddr behind) ⟨.net side, word, p.text ++ tailText tail, rule, copies⟩ r ↔
      RunsBehind inetAddr behind side
        (p.rule side
          (bitLenRule side (rule.setNet (getInt32AddrFromIpString inetAddr word).1 side) none))
        (copies ++ ((getInt32AddrFromIpString inetAddr word).2 ++ p.copies)) r tail := by
  obtain rfl | ⟨text, htext⟩ := p.text_cases
  · rw [show PortsText.copies .all = [] from rfl, List.append_nil]
    exact ends_net_tail h
  · have hcolon : ruleStep inetAddr behind
        ⟨.net side, word, 0x3a :: (text ++ tailText tail), rule, copies⟩ =
          .inl ⟨portStage side ((text ++ tailText tail).getD 0 0), [], text ++ tailText tail,
            bitLenRule side (rule.setNet (getInt32AddrFromIpString inetAddr word).1 side) none,
            copies ++ (getInt32AddrFromIpString inetAddr word).2⟩ := rfl
    rw [htext, List.cons_append, ends_of_next hcolon, ends_colon htext h, List.append_assoc]

/-- A prefix length, with the ports behind it. -/
theorem ends_netBitLen_ports {p : PortsText} (h : side.MayEnd tail) :
    Ends (ruleStep inetAddr behind)
        ⟨.netBitLen side, word, p.text ++ tailText tail, rule, copies⟩ r ↔
      RunsBehind inetAddr behind side
        (p.rule side (rule.setNetBitLen (getInt32FromNumberString word).1 side))
        (copies ++ ((getInt32FromNumberString word).2 ++ p.copies)) r tail := by
  obtain rfl | ⟨text, htext⟩ := p.text_cases
  · rw [show PortsText.copies .all = [] from rfl, List.append_nil]
    exact ends_netBitLen_tail h
  · have hcolon : ruleStep inetAddr behind
        ⟨.netBitLen side, word, 0x3a :: (text ++ tailText tail), rule, copies⟩ =
          .inl ⟨portStage side ((text ++ tailText tail).getD 0 0), [], text ++ tailText tail,
            rule.setNetBitLen (getInt32FromNumberString word).1 side,
            copies ++ (getInt32FromNumberString word).2⟩ := rfl
    rw [htext, List.cons_append, ends_of_next hcolon, ends_colon htext h, List.append_assoc]

/-- **A side is read as its parts say.** -/
theorem ends_side {t : SideText} (h : side.MayEnd tail) :
    Ends (ruleStep inetAddr behind) ⟨.net side, [], t.text ++ tailText tail, rule, copies⟩ r ↔
      RunsBehind inetAddr behind side (t.rule inetAddr side rule) (copies ++ t.copies inetAddr) r
        tail := by
  obtain ⟨net, bitLen, p⟩ := t
  have hnet : ∀ c ∈ net.1, (Stage.net side).keeps c = true := net.2
  cases bitLen with
  | none =>
    rw [SideText.text, List.append_assoc, ends_keep hnet, List.nil_append]
    exact ends_net_ports h
  | some ds =>
    have htext : SideText.text ⟨net, some ds, p⟩ ++ tailText tail =
        net.1 ++ 0x2f :: (ds.1 ++ (p.text ++ tailText tail)) := by
      simp [SideText.text, bitLenText]
    have hslash : ruleStep inetAddr behind
        ⟨.net side, net.1, 0x2f :: (ds.1 ++ (p.text ++ tailText tail)), rule, copies⟩ =
          .inl ⟨.netBitLen side, [], ds.1 ++ (p.text ++ tailText tail),
            rule.setNet (getInt32AddrFromIpString inetAddr net.1).1 side,
            copies ++ (getInt32AddrFromIpString inetAddr net.1).2⟩ := rfl
    have hdigits : ∀ c ∈ ds.1, (Stage.netBitLen side).keeps c = true := ds.2
    rw [htext, ends_keep hnet, List.nil_append, ends_of_next hslash, ends_keep hdigits,
      List.nil_append, ends_netBitLen_ports h, List.append_assoc]
    rfl

/-- **The list of protocols is read word by word.** -/
theorem ends_protos {p : List UInt8} (h : 0 ∉ p) :
    Ends (ruleStep inetAddr behind) ⟨.proto, word, p, rule, copies⟩ r ↔
      r = protosParsed behind rule copies word p := by
  induction word, p using cutWords.induct generalizing rule copies with
  | case1 word =>
    have hstep : ruleStep inetAddr behind ⟨.proto, word, [], rule, copies⟩ =
        .inr ⟨true, rule, copies⟩ := rfl
    rw [ends_of_done hstep, protosParsed, cutWords]
    simp [wordsRule]
  | case2 word c p hkeep ih =>
    have hstep : ruleStep inetAddr behind ⟨.proto, word, c :: p, rule, copies⟩ =
        .inl ⟨.proto, word ++ [c], p, rule, copies⟩ := if_pos hkeep
    have hcut : cutWords word (c :: p) = cutWords (word ++ [c]) p := by
      rw [cutWords.eq_def]
      exact if_pos hkeep
    rw [ends_of_next hstep, ih fun hmem => h (List.mem_cons_of_mem _ hmem), protosParsed,
      protosParsed, hcut]
  | case3 word c hkeep hsign =>
    -- the sign is the last character
    have hstep : ruleStep inetAddr behind ⟨.proto, word, [c], rule, copies⟩ =
        .inl ⟨.proto, word ++ [c], [], (processTrafficFilterProto behind (word ++ [c]) rule).1,
          copies ++ (processTrafficFilterProto behind (word ++ [c]) rule).2⟩ :=
      (if_neg hkeep).trans (if_pos hsign)
    have hlast : ruleStep inetAddr behind
        ⟨.proto, word ++ [c], [], (processTrafficFilterProto behind (word ++ [c]) rule).1,
          copies ++ (processTrafficFilterProto behind (word ++ [c]) rule).2⟩ =
        .inr ⟨true, (processTrafficFilterProto behind (word ++ [c]) rule).1,
          copies ++ (processTrafficFilterProto behind (word ++ [c]) rule).2⟩ := rfl
    have hcut : cutWords word [c] = ([word ++ [c]], true) := by
      rw [cutWords, if_neg hkeep, if_pos hsign]
    rw [ends_of_next hstep, ends_of_done hlast, protosParsed, hcut]
    rfl
  | case4 word c hkeep hsign d p ih =>
    have hd : ¬ (d == 0) = true := by
      intro hzero
      exact h (by simp [eq_of_beq hzero])
    have hstep : ruleStep inetAddr behind ⟨.proto, word, c :: d :: p, rule, copies⟩ =
        .inl ⟨.proto, [], p, (processTrafficFilterProto behind (word ++ [c]) rule).1,
          copies ++ (processTrafficFilterProto behind (word ++ [c]) rule).2⟩ :=
      (if_neg hkeep).trans ((if_pos hsign).trans (if_neg hd))
    have hcut : cutWords word (c :: d :: p) =
        ((word ++ [c]) :: (cutWords [] p).1, (cutWords [] p).2) := by
      rw [cutWords, if_neg hkeep, if_pos hsign]
    have hp : 0 ∉ p := fun hmem => h (List.mem_cons_of_mem _ (List.mem_cons_of_mem _ hmem))
    rw [ends_of_next hstep, ih hp, protosParsed, protosParsed, hcut]
    simp [wordsRule, processTrafficFilterProto]
  | case5 word c p hkeep hcomma =>
    have hstep : ruleStep inetAddr behind ⟨.proto, word, c :: p, rule, copies⟩ =
        .inr ⟨false, rule, copies⟩ := (if_neg hkeep).trans (if_neg hcomma)
    have hcut : cutWords word (c :: p) = ([], false) := by
      rw [cutWords.eq_def]
      exact (if_neg hkeep).trans (if_neg hcomma)
    rw [ends_of_done hstep, protosParsed, hcut]
    simp [wordsRule]

/-- The run on a text. -/
def RuleRun (inetAddr : List UInt8 → UInt32) (behind text : List UInt8) (rule : FilterRule)
    (r : RuleParsed) : Prop :=
  ∃ fuel, processTrafficFilterRuleStr inetAddr behind fuel text rule = some r

/-- **A spelled text is read as its parts say.** -/
theorem ruleRun_iff {t : RuleText} (h : 0 ∉ t.text) :
    RuleRun inetAddr behind t.text rule r ↔ r = t.parsed inetAddr behind rule := by
  obtain ⟨src, dst, protos⟩ := t
  have hsrc : Side.src.MayEnd (some (dst.text ++ tailText protos)) := fun _ => rfl
  have hdst : Side.dst.MayEnd protos := fun hside => nomatch hside
  refine (ends_side hsrc).trans ((ends_side hdst).trans ?_)
  cases protos with
  | none => simp [RunsBehind, RuleText.parsed, protosParsed, cutWords, wordsRule]
  | some p =>
    have hp : 0 ∉ p := fun hmem => h (by simp [RuleText.text, tailText, hmem])
    exact ends_protos hp

/-! ### Texts that are not spelled -/

/-- No copy is larger than its buffer. -/
def CopiesFit (copies : List (ℕ × ℕ)) : Prop := ∀ x ∈ copies, x.1 ≤ x.2

theorem CopiesFit.append {a b : List (ℕ × ℕ)} (ha : CopiesFit a) (hb : CopiesFit b) :
    CopiesFit (a ++ b) := fun x hx => (List.mem_append.mp hx).elim (ha x) (hb x)

theorem copiesFit_address (token : List UInt8) :
    CopiesFit (getInt32AddrFromIpString inetAddr token).2 := by
  intro x hx
  rw [getInt32AddrFromIpString] at hx
  split_ifs at hx with hlong
  · cases hx
  · cases List.mem_singleton.mp hx
    show token.length ≤ 16
    omega

theorem copiesFit_number (token : List UInt8) :
    CopiesFit (getInt32FromNumberString token).2 := by
  intro x hx
  rw [getInt32FromNumberString] at hx
  split_ifs at hx with hlong
  · cases hx
  · cases List.mem_singleton.mp hx
    show token.length ≤ 6
    omega

/-- The copies that a side makes. -/
theorem SideText.copies_fit (t : SideText) : CopiesFit (t.copies inetAddr) := by
  obtain ⟨net, bitLen, ports⟩ := t
  refine (copiesFit_address net.1).append (CopiesFit.append ?_ ?_)
  · cases bitLen with
    | none => exact fun x hx => nomatch hx
    | some ds => exact copiesFit_number ds.1
  · cases ports with
    | all => exact fun x hx => nomatch hx
    | single port => exact copiesFit_number port.1
    | range first last => exact (copiesFit_number first.1).append (copiesFit_number last.1)

/-- The run is rejected, and no copy was too large. -/
def Rejects (inetAddr : List UInt8 → UInt32) (behind : List UInt8) (s : RuleScan) : Prop :=
  ∃ r, Ends (ruleStep inetAddr behind) s r ∧ r.ok = false ∧ CopiesFit r.copies

theorem rejects_of_next {s s' : RuleScan} (h : ruleStep inetAddr behind s = .inl s')
    (h' : Rejects inetAddr behind s') : Rejects inetAddr behind s := by
  obtain ⟨r, hends, hr⟩ := h'
  exact ⟨r, (ends_of_next h).mpr hends, hr⟩

theorem rejects_of_done {s : RuleScan} (h : ruleStep inetAddr behind s = s.reject)
    (hfit : CopiesFit s.copies) : Rejects inetAddr behind s :=
  ⟨_, (ends_of_done h).mpr rfl, rfl, hfit⟩

theorem rejects_keep (h : ∀ c ∈ cs, stage.keeps c = true)
    (h' : Rejects inetAddr behind ⟨stage, cs, rest, rule, copies⟩) :
    Rejects inetAddr behind ⟨stage, [], cs ++ rest, rule, copies⟩ := by
  obtain ⟨r, hends, hr⟩ := h'
  exact ⟨r, (ends_keep h).mpr hends, hr⟩

/-- A text is what a stage stays with and a rest that it does not stay with. -/
theorem munch (stage : Stage) (hzero : ¬ stage.keeps 0 = true) (text : List UInt8) :
    ∃ cs rest, text = cs ++ rest ∧ (∀ c ∈ cs, stage.keeps c = true) ∧
      ¬ stage.keeps (rest.getD 0 0) = true := by
  refine ⟨text.takeWhile stage.keeps, text.dropWhile stage.keeps,
    (List.takeWhile_append_dropWhile ..).symm, fun c hc => List.mem_takeWhile_imp hc, ?_⟩
  cases hrest : text.dropWhile stage.keeps with
  | nil => exact hzero
  | cons c rest =>
    have hne : text.dropWhile stage.keeps ≠ [] := by simp [hrest]
    have hhead := List.head_dropWhile_not stage.keeps hne
    simpa [hrest] using hhead

/-- The text that ends a side. -/
theorem endsWith_tail (hnul : 0 ∉ rest) (h : side.endsWith (rest.getD 0 0) = true) :
    ∃ tail, rest = tailText tail ∧ side.MayEnd tail := by
  cases rest with
  | nil =>
    cases side with
    | src => cases h
    | dst => exact ⟨none, rfl, fun hside => nomatch hside⟩
  | cons c rest =>
    have hc : c = 0x2c := by
      have hne : c ≠ 0 := by
        rintro rfl
        exact hnul List.mem_cons_self
      cases side <;> simpa [Side.endsWith, hne] using h
    exact ⟨some rest, by rw [hc]; rfl, fun _ => rfl⟩

/-- The first character of a text. -/
theorem eq_cons_of_getD {c : UInt8} (hc : c ≠ 0) (h : rest.getD 0 0 = c) :
    ∃ rest', rest = c :: rest' := by
  cases rest with
  | nil => exact absurd h.symm hc
  | cons d rest => exact ⟨rest, by rw [← h]; rfl⟩

/-- Behind the bracket that closes a range. -/
theorem portEnd_or_rejects (hnul : 0 ∉ rest) (hfit : CopiesFit copies) :
    (∃ tail, rest = tailText tail ∧ side.MayEnd tail) ∨
      Rejects inetAddr behind ⟨.portEnd side, word, 0x5d :: rest, rule, copies⟩ := by
  by_cases hend : side.endsWith (rest.getD 0 0) = true
  · exact .inl (endsWith_tail hnul hend)
  · refine .inr ?_
    cases side with
    | src =>
      have hnext : ¬ (rest.getD 0 0 == 0x2c) = true := by
        intro hnext
        exact hend (by simp only [Side.endsWith, hnext, Bool.true_or])
      have hclose : ¬ ((0x5d : UInt8) == 0x5d && rest.getD 0 0 == 0x2c) = true := hnext
      exact rejects_of_done (if_neg hclose) hfit
    | dst =>
      have hcomma : ¬ (rest.getD 0 0 == 0x2c) = true := by
        intro hnext
        exact hend (by simp only [Side.endsWith, hnext, Bool.true_or])
      have hzero : (rest.getD 0 0 != 0) = true := by
        simp only [Side.endsWith, Bool.or_eq_true, not_or] at hend
        simpa using hend.2
      have hstep : ruleStep inetAddr behind ⟨.portEnd .dst, word, 0x5d :: rest, rule, copies⟩ =
          .inr ⟨false, rule.setEndPort (getInt32FromNumberString word).1 .dst,
            copies ++ (getInt32FromNumberString word).2⟩ :=
        (if_neg hcomma).trans (if_pos hzero)
      exact ⟨_, (ends_of_done hstep).mpr rfl, rfl, hfit.append (copiesFit_number word)⟩

/-- Behind the colon of a side. -/
theorem ports_or_rejects {text : List UInt8} (hnul : 0 ∉ text) (hfit : CopiesFit copies) :
    (∃ p tail, 0x3a :: text = PortsText.text p ++ tailText tail ∧ side.MayEnd tail) ∨
      Rejects inetAddr behind ⟨portStage side (text.getD 0 0), [], text, rule, copies⟩ := by
  by_cases hopen : text.getD 0 0 = 0x5b
  · obtain ⟨text, rfl⟩ := eq_cons_of_getD (by decide) hopen
    obtain ⟨first, rest, rfl, hfirst, hrest⟩ := munch (.portStart side) (nomatch ·) text
    have hbracket : ruleStep inetAddr behind
        ⟨.portRange side, [], 0x5b :: (first ++ rest), rule, copies⟩ =
          .inl ⟨.portStart side, [], first ++ rest, rule, copies⟩ := rfl
    by_cases hcomma : rest.getD 0 0 = 0x2c
    · obtain ⟨rest, rfl⟩ := eq_cons_of_getD (by decide) hcomma
      obtain ⟨last, rest, rfl, hlast, hrest'⟩ := munch (.portEnd side) (nomatch ·) rest
      have hfit' := hfit.append (copiesFit_number first)
      have hstart : ruleStep inetAddr behind
          ⟨.portStart side, first, 0x2c :: (last ++ rest), rule, copies⟩ =
            .inl ⟨.portEnd side, [], last ++ rest,
              rule.setStartPort (getInt32FromNumberString first).1 side,
              copies ++ (getInt32FromNumberString first).2⟩ := rfl
      suffices h : (∃ tail, rest = 0x5d :: tailText tail ∧ side.MayEnd tail) ∨
          Rejects inetAddr behind ⟨.portEnd side, last, rest,
            rule.setStartPort (getInt32FromNumberString first).1 side,
            copies ++ (getInt32FromNumberString first).2⟩ by
        obtain ⟨tail, rfl, htail⟩ | hrejects := h
        · exact .inl ⟨.range ⟨first, hfirst⟩ ⟨last, hlast⟩, tail, by simp [PortsText.text], htail⟩
        · exact .inr (rejects_of_next hbracket (rejects_keep hfirst
            (rejects_of_next hstart (rejects_keep hlast hrejects))))
      by_cases hclose : rest.getD 0 0 = 0x5d
      · obtain ⟨rest, rfl⟩ := eq_cons_of_getD (by decide) hclose
        have hnul' : 0 ∉ rest := fun hmem => hnul (by simp [hmem])
        refine (portEnd_or_rejects hnul' hfit').imp_left ?_
        rintro ⟨tail, rfl, htail⟩
        exact ⟨tail, rfl, htail⟩
      · refine .inr (rejects_of_done ?_ hfit')
        have hne : ¬ (rest.getD 0 0 == 0x5d) = true := by simpa using hclose
        have hdigit : ¬ isDigit (rest.getD 0 0) = true := hrest'
        cases side with
        | src =>
          have hand : ¬ (rest.getD 0 0 == 0x5d && rest.getD 1 0 == 0x2c) = true :=
            fun hand => hne (Bool.and_eq_true_iff.mp hand).1
          exact (if_neg hdigit).trans (if_neg hand)
        | dst => exact (if_neg hdigit).trans (if_neg hne)
    · refine .inr (rejects_of_next hbracket (rejects_keep hfirst (rejects_of_done ?_ hfit)))
      have hdigit : ¬ isDigit (rest.getD 0 0) = true := hrest
      exact (if_neg hdigit).trans (if_neg (by simpa using hcomma))
  · have hstage : portStage side (text.getD 0 0) = .portSingle side := if_neg (by simpa using hopen)
    obtain ⟨port, rest, rfl, hport, hrest⟩ := munch (.portSingle side) (nomatch ·) text
    rw [hstage]
    by_cases hend : side.endsWith (rest.getD 0 0) = true
    · have hnul' : 0 ∉ rest := fun hmem => hnul (by simp [hmem])
      obtain ⟨tail, rfl, htail⟩ := endsWith_tail hnul' hend
      exact .inl ⟨.single ⟨port, hport⟩, tail, rfl, htail⟩
    · refine .inr (rejects_keep hport (rejects_of_done ?_ hfit))
      have hdigit : ¬ isDigit (rest.getD 0 0) = true := hrest
      exact (if_neg hdigit).trans (if_neg hend)

/-- Behind a prefix length. -/
theorem netBitLen_or_rejects {text : List UInt8} (hnul : 0 ∉ text) (hfit : CopiesFit copies) :
    (∃ (ds : Digits) (p : PortsText) (tail : _), text = ds.1 ++ (p.text ++ tailText tail) ∧
        side.MayEnd tail) ∨
      Rejects inetAddr behind ⟨.netBitLen side, [], text, rule, copies⟩ := by
  obtain ⟨ds, rest, rfl, hds, hrest⟩ := munch (.netBitLen side) (nomatch ·) text
  have hnul' : 0 ∉ rest := fun hmem => hnul (by simp [hmem])
  have hdigit : ¬ isDigit (rest.getD 0 0) = true := hrest
  by_cases hcolon : rest.getD 0 0 = 0x3a
  · obtain ⟨rest, rfl⟩ := eq_cons_of_getD (by decide) hcolon
    have hstep : ruleStep inetAddr behind ⟨.netBitLen side, ds, 0x3a :: rest, rule, copies⟩ =
        .inl ⟨portStage side (rest.getD 0 0), [], rest,
          rule.setNetBitLen (getInt32FromNumberString ds).1 side,
          copies ++ (getInt32FromNumberString ds).2⟩ := rfl
    refine Or.imp ?_ (fun h => rejects_keep hds (rejects_of_next hstep h))
      (ports_or_rejects (fun hmem => hnul' (List.mem_cons_of_mem _ hmem))
        (hfit.append (copiesFit_number ds)))
    rintro ⟨p, tail, htext, htail⟩
    exact ⟨⟨ds, hds⟩, p, tail, by rw [← htext], htail⟩
  · by_cases hend : side.endsWith (rest.getD 0 0) = true
    · obtain ⟨tail, rfl, htail⟩ := endsWith_tail hnul' hend
      exact .inl ⟨⟨ds, hds⟩, .all, tail, rfl, htail⟩
    · exact .inr (rejects_keep hds (rejects_of_done
        ((if_neg hdigit).trans ((if_neg (by simpa using hcolon)).trans (if_neg hend))) hfit))

/-- **A side is spelled or the run is rejected.** -/
theorem side_or_rejects {text : List UInt8} (hnul : 0 ∉ text) (hfit : CopiesFit copies) :
    (∃ (t : SideText) (tail : _), text = t.text ++ tailText tail ∧ side.MayEnd tail) ∨
      Rejects inetAddr behind ⟨.net side, [], text, rule, copies⟩ := by
  have hzero : ¬ (isDigit 0 || (0 : UInt8) == 0x2e) = true := by decide
  obtain ⟨net, rest, rfl, hnet, hrest⟩ := munch (.net side) hzero text
  have hnul' : 0 ∉ rest := fun hmem => hnul (by simp [hmem])
  have hfit' : CopiesFit (copies ++ (getInt32AddrFromIpString inetAddr net).2) :=
    hfit.append (copiesFit_address net)
  have hkeep : ¬ (isDigit (rest.getD 0 0) || rest.getD 0 0 == 0x2e) = true := hrest
  by_cases hslash : rest.getD 0 0 = 0x2f
  · obtain ⟨rest, rfl⟩ := eq_cons_of_getD (by decide) hslash
    have hstep : ruleStep inetAddr behind ⟨.net side, net, 0x2f :: rest, rule, copies⟩ =
        .inl ⟨.netBitLen side, [], rest,
          rule.setNet (getInt32AddrFromIpString inetAddr net).1 side,
          copies ++ (getInt32AddrFromIpString inetAddr net).2⟩ := rfl
    refine Or.imp ?_ (fun h => rejects_keep hnet (rejects_of_next hstep h))
      (netBitLen_or_rejects (fun hmem => hnul' (List.mem_cons_of_mem _ hmem)) hfit')
    rintro ⟨ds, p, tail, rfl, htail⟩
    exact ⟨⟨⟨net, hnet⟩, some ds, p⟩, tail, by simp [SideText.text, bitLenText], htail⟩
  · by_cases hcolon : rest.getD 0 0 = 0x3a
    · obtain ⟨rest, rfl⟩ := eq_cons_of_getD (by decide) hcolon
      have hstep : ruleStep inetAddr behind ⟨.net side, net, 0x3a :: rest, rule, copies⟩ =
          .inl ⟨portStage side (rest.getD 0 0), [], rest,
            (rule.setNet (getInt32AddrFromIpString inetAddr net).1 side).setNetBitLen 32 side,
            copies ++ (getInt32AddrFromIpString inetAddr net).2⟩ := rfl
      refine Or.imp ?_ (fun h => rejects_keep hnet (rejects_of_next hstep h))
        (ports_or_rejects (fun hmem => hnul' (List.mem_cons_of_mem _ hmem)) hfit')
      rintro ⟨p, tail, htext, htail⟩
      exact ⟨⟨⟨net, hnet⟩, none, p⟩, tail, by simp [SideText.text, bitLenText, htext], htail⟩
    · by_cases hend : side.endsWith (rest.getD 0 0) = true
      · obtain ⟨tail, rfl, htail⟩ := endsWith_tail hnul' hend
        exact .inl ⟨⟨⟨net, hnet⟩, none, .all⟩, tail,
          by simp [SideText.text, bitLenText, PortsText.text], htail⟩
      · exact .inr (rejects_keep hnet (rejects_of_done ((if_neg hkeep).trans
          ((if_neg (by simpa using hslash)).trans ((if_neg (by simpa using hcolon)).trans
            (if_neg hend)))) hfit))

/-- **A text is spelled or rejected**, and then no copy was too large. -/
theorem ruleText_or_rejects {text : List UInt8} (hnul : 0 ∉ text) :
    (∃ t : RuleText, t.text = text) ∨
      ∃ r, RuleRun inetAddr behind text rule r ∧ r.ok = false ∧ CopiesFit r.copies := by
  have hnil : CopiesFit [] := fun x hx => nomatch hx
  refine or_iff_not_imp_right.mpr fun hnot => ?_
  obtain ⟨src, tail, rfl, htail⟩ := (side_or_rejects hnul hnil).resolve_right hnot
  obtain ⟨rest, rfl⟩ := Option.isSome_iff_exists.mp (htail rfl)
  have hrest : 0 ∉ rest := fun hmem => hnul (by simp [tailText, hmem])
  have hsrc : CopiesFit ([] ++ src.copies inetAddr) := src.copies_fit
  have hnot' : ¬ Rejects inetAddr behind
      ⟨.net .dst, [], rest, src.rule inetAddr .src rule, [] ++ src.copies inetAddr⟩ := by
    rintro ⟨r, hends, hr⟩
    exact hnot ⟨r, (ends_side htail).mpr hends, hr⟩
  obtain ⟨dst, protos, rfl, -⟩ := (side_or_rejects hrest hsrc).resolve_right hnot'
  exact ⟨⟨src, dst, protos⟩, rfl⟩

end Reading

end N2n
