import N2nTun.Lib.Token
import N2nTun.Regex

/-!
# Rules for communities and the rules compiled before and after them

Each rule should match as if it had been compiled alone. It does not, for two reasons. The
characters of its classes stay in the buffer of `re_compile`, where the next pattern with a class
writes its own. And a quantifier with nothing to repeat, or a backslash at the end of the
pattern, matches with what an earlier pattern has left in its object.

## Main definitions

* `RulesIndependent` — the law.
* `reTokens` — the objects of a pattern.
* `ClassesKept`, `NothingLeft` — what the patterns behind and before a rule must not do.

## Main results

* `matchpattern_congr` — a match depends on the types of the objects and on what the objects that
  are matched say of characters.
* `rulesIndependent_of` — **a list of patterns keeps the law if the characters of the classes
  stay in the buffer and no leftover is read.**
-/

namespace N2n

open Bytes Tokens

/-! ### The law -/

/-- The static variables behind some patterns. -/
def ReStatic.after (base : UInt64) (patterns : List (List UInt8)) : ReStatic :=
  patterns.foldl (fun s pattern => (reCompile base pattern s).1) .fresh

/-- A compiled rule on a name, with what lies behind the buffer. -/
def reVerdict (base : UInt64) (behind : List UInt8) (s : ReStatic)
    (rule : Option (List RegexObj)) (name : List UInt8) : ℤ × ℤ :=
  reMatchp (matchone base (s.cclBuf ++ behind)) rule name

/-- The rule of a pattern that is compiled behind others. -/
def ruleAfter (base : UInt64) (before : List (List UInt8)) (pattern : List UInt8) :
    Option (List RegexObj) :=
  (reCompile base pattern (.after base before)).2

/-- **The law**: whatever is compiled before and behind a pattern, its rule matches as if it had
been compiled alone. -/
def RulesIndependent (base : UInt64) (behind : List UInt8) (patterns : List (List UInt8))
    (name : List UInt8) : Prop :=
  ∀ before pattern later, before ++ pattern :: later <+: patterns →
    reVerdict base behind (.after base (before ++ pattern :: later))
        (ruleAfter base before pattern) name =
      reVerdict base behind (.after base [pattern]) (ruleAfter base [] pattern) name

/-! ### The objects of a pattern -/

/-- What the passes of `re_compile` read from a pattern, for at most `n` objects. -/
def reTokens : ℕ → ℕ → List UInt8 → List ReToken
  | 0, _, _ => []
  | n + 1, idx, text =>
    if text.getD 0 0 == 0 then []
    else
      let t := reToken idx (text.getD 0 0) (text.drop 1)
      match t.1 with
      | .overflow type bytes => [.overflow type bytes]
      | token => token :: reTokens n (idx + token.bytes.length) t.2

/-- The objects of a pattern. -/
def tokensOf (pattern : List UInt8) : List ReToken := reTokens 29 1 pattern

/-- What a pattern writes to the buffer. -/
def classCells (pattern : List UInt8) : List UInt8 := (tokensOf pattern).flatMap (·.bytes)

def ReToken.isOverflow : ReToken → Bool
  | .overflow _ _ => true
  | _ => false

/-- The pattern is compiled. -/
def Compiles (pattern : List UInt8) : Prop := ∀ t ∈ tokensOf pattern, t.isOverflow = false

/-- A character or a pointer is written to the object. -/
def ReToken.writesUnion : ReToken → Bool
  | .char _ | .cls _ _ => true
  | _ => false

def ReToken.isQuantifier : ReToken → Bool
  | .plain type => type.isQuantifier
  | _ => false

/-- The quantifiers with nothing to repeat: an object that is matched is skipped together with
the quantifier behind it. -/
def strays : List ReToken → List Bool
  | [] => []
  | [t] => [t.isQuantifier]
  | t :: q :: ts =>
    if q.isQuantifier then t.isQuantifier :: false :: strays ts
    else t.isQuantifier :: strays (q :: ts)

/-- The buffer behind some patterns. -/
def cellsAfter (patterns : List (List UInt8)) : List UInt8 :=
  patterns.foldl (fun buf pattern => overwrite buf 1 (classCells pattern)) (List.replicate 40 0)

/-- The characters of the classes of a pattern are in the buffer at the end. -/
def ClassesKept (patterns : List (List UInt8)) (pattern : List UInt8) : Prop :=
  (cellsAfter patterns).take ((classCells pattern).length + 1) = 0 :: classCells pattern

instance (patterns : List (List UInt8)) (pattern : List UInt8) :
    Decidable (ClassesKept patterns pattern) := inferInstanceAs (Decidable (_ = _))

/-- No earlier pattern has left a character for a quantifier with nothing to repeat, or an object
for a backslash at the end. -/
structure NothingLeft (before : List (List UInt8)) (pattern : List UInt8) : Prop where
  quantifier : ∀ j : ℕ, (strays (tokensOf pattern))[j]? = some true →
    ∀ p ∈ before, ∀ t : ReToken, (tokensOf p)[j]? = some t → t.writesUnion = false
  backslash : ∀ j : ℕ, (tokensOf pattern)[j]? = some ReToken.lone →
    ∀ p ∈ before, ∀ t : ReToken, (tokensOf p)[j]? = some t → t = ReToken.lone

/-! ### What a match depends on -/

section Matching

variable {one one' : RegexObj → UInt8 → Bool}

/-- Objects that match alike. -/
inductive Alike (one one' : RegexObj → UInt8 → Bool) : List RegexObj → List RegexObj → Prop
  | nil : Alike one one' [] []
  | unused {p p' : RegexObj} {os os' : List RegexObj} :
    p.type = .unused → p'.type = .unused → Alike one one' (p :: os) (p' :: os')
  | quantified {p p' q q' : RegexObj} {os os' : List RegexObj} :
    p.type = p'.type → one p = one' p' → q.type = q'.type → q.type.isQuantifier = true →
      Alike one one' os os' → Alike one one' (p :: q :: os) (p' :: q' :: os')
  | single {p p' : RegexObj} {os os' : List RegexObj} :
    p.type = p'.type → one p = one' p' → (∀ q ∈ os.head?, q.type.isQuantifier = false) →
      Alike one one' os os' → Alike one one' (p :: os) (p' :: os')

/-- The first object that is not matched alone. -/
theorem Alike.head_type {p p' : RegexObj} {os os' : List RegexObj}
    (h : Alike one one' (p :: os) (p' :: os')) : p.type = p'.type := by
  cases h with
  | unused hp hp' => rw [hp, hp']
  | quantified hp => exact hp
  | single hp => exact hp

/-- **Objects that match alike match the same texts**, with the same lengths. -/
theorem matchpattern_congr {os os' : List RegexObj} (h : Alike one one' os os')
    (pre : Option ℤ) : matchpattern one pre os = matchpattern one' pre os' := by
  induction h generalizing pre with
  | nil => rfl
  | unused hp hp' =>
    funext text len
    simp [matchpattern, hp, hp']
  | @quantified p p' q q' os os' hp hone hq hquant _ ih =>
    funext text len
    rw [matchpattern, matchpattern]
    simp only [hp, hone, hq, ih none]
    -- a quantifier never comes to the last branch
    rw [hq] at hquant
    cases hq' : q'.type <;> rw [hq'] at hquant <;> first | exact absurd hquant (by decide) | simp
  | @single p p' os os' hp hone hnext halike ih =>
    funext text len
    cases os with
    | nil =>
      cases halike
      rw [matchpattern, matchpattern]
      simp only [hp, hone, ih (some _)]
    | cons q os =>
      cases os' with
      | nil => cases halike
      | cons q' os' =>
        have hq := halike.head_type
        have hnq := hnext q rfl
        rw [hq] at hnq
        have hqm : q'.type ≠ .questionmark := by
          rintro h
          rw [h] at hnq
          cases hnq
        have hstar : q'.type ≠ .star := by
          rintro h
          rw [h] at hnq
          cases hnq
        have hplus : q'.type ≠ .plus := by
          rintro h
          rw [h] at hnq
          cases hnq
        rw [matchpattern, matchpattern]
        simp only [hp, hone, hq, if_neg hqm, if_neg hstar, if_neg hplus, ih (some _)]

end Matching

/-! ### Classes in the buffer -/

section Classes

variable {c prev : UInt8} {str x y : List UInt8}

/-- A range is not looked for behind the end of the class. -/
theorem matchrange_append (h : 0 ∈ str) : matchrange c (str ++ x) = matchrange c (str ++ y) := by
  match str, h with
  | [s], h =>
    rw [← List.mem_singleton.mp h]
    simp [matchrange]
  | [s, a], h =>
    by_cases hs : s = 0
    · simp [matchrange, hs]
    · have ha : a = 0 := by
        simp only [List.mem_cons, List.not_mem_nil, or_false] at h
        exact (h.resolve_left (Ne.symm hs)).symm
      simp [matchrange, ha]
  | s :: a :: b :: str, _ => rfl

/-- The end of a class. -/
theorem matchcharclass_nul : matchcharclass c prev (0 :: x) = (c == 0) := by
  have hrange : matchrange c (0 :: x) = false := by simp [matchrange]
  by_cases hc : c = 0
  · subst hc
    cases x <;> simp [matchcharclass, hrange]
  · cases x <;> simp [matchcharclass, hrange, hc]

/-- **A class is read up to its NUL**, and what lies behind does not matter. -/
theorem matchcharclass_append (h : 0 ∈ str) :
    matchcharclass c prev (str ++ x) = matchcharclass c prev (str ++ y) := by
  induction hn : str.length using Nat.strong_induction_on generalizing str prev with
  | _ n ih =>
    subst hn
    match str, h with
    | s :: str, h =>
      have hrange : matchrange c (s :: (str ++ x)) = matchrange c (s :: (str ++ y)) :=
        @matchrange_append c (s :: str) x y h
      by_cases hs : s = 0
      · subst hs
        rw [List.cons_append, List.cons_append, matchcharclass_nul, matchcharclass_nul]
      · match str, (List.mem_cons.mp h).resolve_left (Ne.symm hs) with
        | e :: str, hnul =>
          have hrest : matchcharclass c s (e :: (str ++ x)) =
              matchcharclass c s (e :: (str ++ y)) :=
            ih (e :: str).length (by simp) hnul rfl
          -- behind an escaped character that is no NUL the class goes on
          have hescaped : e ≠ 0 →
              matchcharclass c e (str ++ x) = matchcharclass c e (str ++ y) := fun he =>
            ih str.length (by simp) ((List.mem_cons.mp hnul).resolve_left (Ne.symm he)) rfl
          simp only [List.cons_append] at hrange ⊢
          rw [matchcharclass, matchcharclass, hrange, hrest]
          by_cases he : e = 0
          · simp [he]
          · simp [hescaped he]

end Classes

/-! ### Tokens -/

/-- The character that is written is read. -/
theorem setCh_ch (o : RegexObj) (c : UInt8) : (o.setCh c).ch = c := by
  apply UInt8.toBitVec_inj.mp
  ext i hi
  simp only [RegexObj.ch, RegexObj.setCh]
  simp

/-- The types that say alone what is matched. -/
def ReType.isFixed : ReType → Bool
  | .dot | .digit | .notDigit | .alpha | .notAlpha | .whitespace | .notWhitespace => true
  | _ => false

/-- What a pass can read: a class ends with a NUL and lies in the buffer. -/
inductive ReToken.Proper (idx : ℕ) : ReToken → Prop
  | plain {type : ReType} : type.isFixed || type.isQuantifier → Proper idx (.plain type)
  | char (c : UInt8) : Proper idx (.char c)
  | lone : Proper idx .lone
  | cls {type : ReType} {bytes : List UInt8} : type = .charClass ∨ type = .invCharClass →
    0 ∈ bytes → idx + bytes.length ≤ 40 → Proper idx (.cls type bytes)
  | overflow (type : ReType) (bytes : List UInt8) : Proper idx (.overflow type bytes)

/-- The characters of a class, if they fit. -/
theorem copyClass_fits {idx : ℕ} {text : List UInt8} (h : (copyClass idx text).2.1 = true) :
    0 ∈ (copyClass idx text).1 ∧ idx + (copyClass idx text).1.length ≤ 40 := by
  induction idx, text using copyClass.induct with
  | case1 idx hfull => simp [copyClass, hfull] at h
  | case2 idx hfits =>
    simp [copyClass, hfits]
    omega
  | case3 idx c text hend hfull =>
    rw [copyClass.eq_def] at h
    simp [hend, hfull] at h
  | case4 idx c text hend hfits =>
    rw [copyClass.eq_def]
    simp [hend, hfits]
    omega
  | case5 idx c text hend hescape hfull =>
    rw [copyClass.eq_def] at h
    simp [hend, hescape, hfull] at h
  | case6 idx c hend hescape hfits ih =>
    rw [copyClass.eq_def] at h ⊢
    simp only [hend, hescape, hfits, if_true, if_false] at h ⊢
    obtain ⟨-, hle⟩ := ih h
    exact ⟨by simp, by simp; omega⟩
  | case7 idx c hend hescape hfits d text ih =>
    rw [copyClass.eq_def] at h ⊢
    simp only [hend, hescape, hfits, if_true, if_false] at h ⊢
    obtain ⟨hnul, hle⟩ := ih h
    exact ⟨by simp [hnul], by simp; omega⟩
  | case8 idx c text hend hescape hfull =>
    rw [copyClass.eq_def] at h
    simp [hend, hescape, hfull] at h
  | case9 idx c text hend hescape hfits ih =>
    rw [copyClass.eq_def] at h ⊢
    simp only [hend, hescape, hfits, if_false] at h ⊢
    obtain ⟨hnul, hle⟩ := ih h
    exact ⟨by simp [hnul], by simp; omega⟩

theorem reToken_proper (idx : ℕ) (c : UInt8) (text : List UInt8) :
    (reToken idx c text).1.Proper idx := by
  have hescape : ∀ e, (escapeToken e).Proper idx := by
    intro e
    unfold escapeToken
    split_ifs <;> first | exact .plain rfl | exact .char e
  have hcls : ∀ {type : ReType} {text : List UInt8}, type = .charClass ∨ type = .invCharClass →
      (if (copyClass idx text).2.1 then ReToken.cls type (copyClass idx text).1
        else .overflow type (copyClass idx text).1).Proper idx := by
    intro type text htype
    split_ifs with hfits
    · exact .cls htype (copyClass_fits hfits).1 (copyClass_fits hfits).2
    · exact .overflow ..
  unfold reToken
  split_ifs
  · exact .plain rfl
  · exact .plain rfl
  · exact .plain rfl
  · exact .plain rfl
  · exact hescape _
  · exact .lone
  · exact hcls (.inr rfl)
  · exact hcls (.inl rfl)
  · exact .char c

/-! ### The array and the buffer behind a pattern -/

section Compiling

variable {base : UInt64}

/-- The passes of the loop over an array from an index of the buffer on, with what they make of
the array and the buffer and with what they read. -/
inductive LoopRun (base : UInt64) :
    List RegexObj → ℕ → List RegexObj × List UInt8 × Bool → List ReToken → Prop
  | stop (o : RegexObj) (os : List RegexObj) (idx : ℕ) :
    LoopRun base (o :: os) idx ({ o with type := .unused } :: os, [], true) []
  | overflow (o : RegexObj) (os : List RegexObj) (idx : ℕ) (type : ReType) (bytes : List UInt8) :
    LoopRun base (o :: os) idx ({ o with type := type } :: os, bytes, false)
      [.overflow type bytes]
  | cons {o : RegexObj} {os : List RegexObj} {idx : ℕ} {t : ReToken}
      {r : List RegexObj × List UInt8 × Bool} {ts : List ReToken} :
    t.isOverflow = false → t.Proper idx → LoopRun base os (idx + t.bytes.length) r ts →
      LoopRun base (o :: os) idx (t.store base idx o :: r.1, t.bytes ++ r.2.1, r.2.2) (t :: ts)

/-- **The loop is a run**, pass by pass. -/
theorem loopRun {os : List RegexObj} {n : ℕ} (hlen : os.length = n + 1) (idx : ℕ)
    (text : List UInt8) :
    LoopRun base os idx (reCompileLoop base os idx text) (reTokens n idx text) := by
  induction n generalizing os idx text with
  | zero =>
    obtain ⟨o, rfl⟩ := List.length_eq_one_iff.mp hlen
    exact .stop o [] idx
  | succ n ih =>
    match os, hlen with
    | o :: o' :: os, hlen =>
      rw [reCompileLoop, reTokens]
      split_ifs with hend
      · exact .stop o (o' :: os) idx
      · have hproper := reToken_proper idx (text.getD 0 0) (text.drop 1)
        generalize reToken idx (text.getD 0 0) (text.drop 1) = p at hproper ⊢
        obtain ⟨t, rest⟩ := p
        have hrest := @ih (o' :: os) (by simpa using hlen) (idx + t.bytes.length) rest
        cases t with
        | overflow type bytes => exact .overflow o (o' :: os) idx type bytes
        | _ => exact .cons rfl hproper hrest

variable {os : List RegexObj} {idx j : ℕ} {r : List RegexObj × List UInt8 × Bool}
  {ts : List ReToken}

theorem LoopRun.length (h : LoopRun base os idx r ts) : r.1.length = os.length := by
  induction h with
  | stop => rfl
  | overflow => rfl
  | cons _ _ _ ih => simp [ih]

theorem LoopRun.bytes (h : LoopRun base os idx r ts) : r.2.1 = ts.flatMap (·.bytes) := by
  induction h with
  | stop => rfl
  | overflow => simp [ReToken.bytes]
  | cons _ _ _ ih => simp [ih]

theorem LoopRun.ok_iff (h : LoopRun base os idx r ts) :
    r.2.2 = true ↔ ∀ t ∈ ts, t.isOverflow = false := by
  induction h with
  | stop => simp
  | overflow => simp [ReToken.isOverflow]
  | cons ht _ _ ih => simp [ht, ih]

/-- **A union that no token writes is kept.** -/
theorem LoopRun.union_kept (h : LoopRun base os idx r ts)
    (hts : ∀ t : ReToken, ts[j]? = some t → t.writesUnion = false) :
    (r.1[j]?).map (·.union) = (os[j]?).map (·.union) := by
  induction h generalizing j with
  | stop => cases j <;> rfl
  | overflow => cases j <;> rfl
  | @cons o os idx t r ts _ _ _ ih =>
    cases j with
    | zero =>
      have ht := hts t rfl
      cases t <;> first | rfl | cases ht
    | succ j => exact ih hts

/-- **An unused object that no token is stored in stays unused.** -/
theorem LoopRun.unused_kept (h : LoopRun base os idx r ts)
    (hts : ∀ t : ReToken, ts[j]? = some t → t = .lone)
    (hos : ∀ o : RegexObj, os[j]? = some o → o.type = .unused) :
    ∀ o : RegexObj, r.1[j]? = some o → o.type = .unused := by
  induction h generalizing j with
  | stop o os =>
    cases j with
    | zero =>
      intro o' ho'
      cases ho'
      rfl
    | succ j => exact hos
  | overflow => 
    cases j with
    | zero => cases hts _ rfl
    | succ j => exact hos
  | @cons o os idx t r ts _ _ _ ih =>
    cases j with
    | zero =>
      obtain rfl := hts t rfl
      exact hos
    | succ j => exact ih hts hos

/-! ### Two compilations of a pattern -/

/-- The type that is stored, but for a backslash at the end. -/
theorem store_type {o o' : RegexObj} {t : ReToken} (hlone : t ≠ .lone) :
    (t.store base idx o).type = (t.store base idx o').type := by
  cases t <;> first | rfl | exact absurd rfl hlone

/-- A class is read from its place in the buffer. -/
theorem classAt {pre bytes post x : List UInt8} (hle : pre.length + 1 + bytes.length ≤ 40) :
    (base + UInt64.ofNat (pre.length + 1) - base).toNat = pre.length + 1 ∧
      (0 :: (pre ++ (bytes ++ post)) ++ x).drop (pre.length + 1) = bytes ++ (post ++ x) ∧
      (0 :: (pre ++ (bytes ++ post)) ++ x).getD pre.length 0 = (0 :: pre).getD pre.length 0 := by
  refine ⟨?_, ?_, ?_⟩
  · rw [UInt64.add_comm, UInt64.add_sub_cancel, UInt64.toNat_ofNat']
    omega
  · simp [List.append_assoc]
  · have hlt : pre.length < (0 :: pre).length := by simp
    have hsplit : 0 :: (pre ++ (bytes ++ post)) ++ x = (0 :: pre) ++ ((bytes ++ post) ++ x) := by
      simp
    rw [hsplit, List.getD_append _ _ _ _ hlt]

/-- **What an object says of characters**, wherever it is stored: a quantifier compares with the
character that it finds, and a class lies in the buffer. -/
theorem matchone_store {o o' : RegexObj} {t : ReToken} {pre post x x' : List UInt8}
    (hproper : t.Proper (pre.length + 1)) (hlone : t ≠ .lone) (hfits : t.isOverflow = false)
    (hch : t.isQuantifier = true → o.ch = o'.ch) :
    matchone base (0 :: (pre ++ (t.bytes ++ post)) ++ x) (t.store base (pre.length + 1) o) =
      matchone base (0 :: (pre ++ (t.bytes ++ post)) ++ x')
        (t.store base (pre.length + 1) o') := by
  funext c
  cases hproper with
  | @plain type htype =>
    rcases Bool.or_eq_true_iff.mp htype with h | h
    · cases type <;> first | rfl | cases h
    · have hsame := hch h
      have hch' : ∀ p : RegexObj, (⟨type, p.union⟩ : RegexObj).ch = p.ch := fun _ => rfl
      cases type <;>
        first
        | exact absurd h (by decide)
        | simp [ReToken.store, matchone, hch', hsame]
  | char d =>
    have hread : ∀ p : RegexObj, (decide (c < 0x80) && (p.setCh d).ch == c) =
        (decide (c < 0x80) && d == c) := fun p => by rw [setCh_ch]
    exact (hread o).trans (hread o').symm
  | lone => exact absurd rfl hlone
  | @cls type bytes htype hnul hle =>
    obtain ⟨hpos, hdrop, hprev⟩ := @classAt base pre bytes post x hle
    obtain ⟨-, hdrop', hprev'⟩ := @classAt base pre bytes post x' hle
    have hclass : ∀ prev, matchcharclass c prev (bytes ++ (post ++ x)) =
        matchcharclass c prev (bytes ++ (post ++ x')) := fun prev => matchcharclass_append hnul
    have hsub : pre.length + 1 - 1 = pre.length := rfl
    rcases htype with rfl | rfl <;>
      simp only [ReToken.store, ReToken.bytes, matchone, hpos, hsub, hdrop, hdrop', hprev, hprev',
        hclass]
  | overflow => cases hfits

/-- No quantifier is stored for an object that is none. -/
theorem store_isQuantifier {o : RegexObj} {t : ReToken} (hproper : t.Proper idx)
    (ht : t.isQuantifier = false) (hfits : t.isOverflow = false)
    (hlone : t = .lone → o.type = .unused) : (t.store base idx o).type.isQuantifier = false := by
  cases hproper with
  | plain => exact ht
  | char => rfl
  | lone =>
    rw [ReToken.store, hlone rfl]
    rfl
  | cls htype => rcases htype with rfl | rfl <;> rfl
  | overflow => cases hfits

/-- The object behind the one that is matched, if it is no quantifier. -/
theorem LoopRun.head_isQuantifier {q : ReToken} (h : LoopRun base os idx r (q :: ts))
    (hok : r.2.2 = true) (hq : q.isQuantifier = false)
    (hlone : q = .lone → ∀ o : RegexObj, os[0]? = some o → o.type = .unused) :
    ∀ p ∈ r.1.head?, p.type.isQuantifier = false := by
  cases h with
  | overflow => cases hok
  | cons hfits hproper _ =>
    rintro p ⟨⟩
    exact store_isQuantifier hproper hq hfits fun hq' => hlone hq' _ rfl

/-- What the array must not hold: a character for a quantifier with nothing to repeat, or an
object for a backslash at the end. -/
structure Clean (ts : List ReToken) (os os' : List RegexObj) : Prop where
  quantifier : ∀ j : ℕ, (strays ts)[j]? = some true → ∀ o o' : RegexObj, os[j]? = some o →
    os'[j]? = some o' → o.ch = o'.ch
  backslash : ∀ j : ℕ, ts[j]? = some ReToken.lone →
    (∀ o : RegexObj, os[j]? = some o → o.type = .unused) ∧
      ∀ o : RegexObj, os'[j]? = some o → o.type = .unused

theorem strays_head (t : ReToken) (ts : List ReToken) :
    (strays (t :: ts))[0]? = some t.isQuantifier := by
  cases ts with
  | nil => rfl
  | cons q ts =>
    rw [strays]
    split_ifs <;> rfl

/-- A clean array behind its first object. -/
theorem Clean.tail {t : ReToken} {o o' : RegexObj} {os os' : List RegexObj}
    (h : Clean (t :: ts) (o :: os) (o' :: os'))
    (hstrays : ∀ j : ℕ, (strays ts)[j]? = some true → (strays (t :: ts))[j + 1]? = some true) :
    Clean ts os os' where
  quantifier j hj := h.quantifier (j + 1) (hstrays j hj)
  backslash j hj := h.backslash (j + 1) hj

/-- The first object of a clean array is the end of the pattern or matches alike. -/
theorem Clean.head {t : ReToken} {o o' : RegexObj} {os os' : List RegexObj}
    {pre post x x' mem mem' : List UInt8} (h : Clean (t :: ts) (o :: os) (o' :: os'))
    (hproper : t.Proper (pre.length + 1)) (hfits : t.isOverflow = false)
    (hmem : mem = 0 :: (pre ++ (t.bytes ++ post)) ++ x)
    (hmem' : mem' = 0 :: (pre ++ (t.bytes ++ post)) ++ x') :
    ((t.store base (pre.length + 1) o).type = .unused ∧
        (t.store base (pre.length + 1) o').type = .unused) ∨
      ((t.store base (pre.length + 1) o).type = (t.store base (pre.length + 1) o').type ∧
        matchone base mem (t.store base (pre.length + 1) o) =
          matchone base mem' (t.store base (pre.length + 1) o')) := by
  by_cases hlone : t = .lone
  · subst hlone
    obtain ⟨ho, ho'⟩ := h.backslash 0 rfl
    exact .inl ⟨ho o rfl, ho' o' rfl⟩
  · refine .inr ⟨store_type hlone, ?_⟩
    rw [hmem, hmem']
    exact matchone_store hproper hlone hfits fun hquant =>
      h.quantifier 0 (by rw [strays_head, hquant]) o o' rfl rfl

/-- **Two compilations of a pattern match alike**, if its classes are in the buffer and the
arrays are clean. -/
theorem alike_of_runs {os' : List RegexObj} {r' : List RegexObj × List UInt8 × Bool}
    {pre x x' mem mem' : List UInt8} (h : LoopRun base os idx r ts)
    (h' : LoopRun base os' idx r' ts) (hidx : idx = pre.length + 1) (hok : r.2.2 = true)
    (hclean : Clean ts os os') (hmem : mem = 0 :: (pre ++ ts.flatMap (·.bytes)) ++ x)
    (hmem' : mem' = 0 :: (pre ++ ts.flatMap (·.bytes)) ++ x') :
    Alike (matchone base mem) (matchone base mem') r.1 r'.1 := by
  induction ts using strays.induct generalizing os os' r r' pre idx with
  | case1 =>
    cases h
    cases h'
    exact .unused rfl rfl
  | case2 t =>
    subst hidx
    cases h with
    | overflow => cases hok
    | cons ht hproper hrest =>
      cases h' with
      | overflow => cases ht
      | cons _ _ hrest' =>
        cases hrest
        cases hrest'
        rcases hclean.head hproper ht hmem hmem' with ⟨hu, hu'⟩ | ⟨htype, hone⟩
        · exact .unused hu hu'
        · refine .single htype hone ?_ (.unused rfl rfl)
          rintro q ⟨⟩
          rfl
  | case3 t q ts hquant ih =>
    -- the object is matched together with the quantifier behind it
    subst hidx
    cases h with
    | cons ht hproper hrest =>
      cases h' with
      | cons _ _ hrest' =>
        rcases hclean.head hproper ht hmem hmem' with ⟨hu, hu'⟩ | ⟨htype, hone⟩
        · exact .unused hu hu'
        · cases hrest with
          | overflow => cases hquant
          | cons hq hqproper hrest =>
            cases hrest' with
            | overflow => cases hquant
            | cons _ _ hrest' =>
              have hqlone : q ≠ .lone := by
                rintro rfl
                cases hquant
              have hqtype : ∀ o,
                  (q.store base (pre.length + 1 + t.bytes.length) o).type.isQuantifier = true := by
                intro o
                cases q <;> first | exact hquant | cases hquant
              have hclean' : Clean ts _ _ :=
                ⟨fun j hj => hclean.quantifier (j + 2) (by rw [strays, if_pos hquant]; exact hj),
                  fun j hj => hclean.backslash (j + 2) hj⟩
              have hidx' : pre.length + 1 + t.bytes.length + q.bytes.length =
                  (pre ++ (t.bytes ++ q.bytes)).length + 1 := by
                simp only [List.length_append]
                omega
              exact .quantified htype hone (store_type hqlone) (hqtype _)
                (ih hrest hrest' hidx' hok hclean' (by rw [hmem]; simp) (by rw [hmem']; simp))
  | case4 t q ts hquant ih =>
    subst hidx
    cases h with
    | cons ht hproper hrest =>
      cases h' with
      | cons _ _ hrest' =>
        rcases hclean.head hproper ht hmem hmem' with ⟨hu, hu'⟩ | ⟨htype, hone⟩
        · exact .unused hu hu'
        · have hclean' : Clean (q :: ts) _ _ :=
            hclean.tail fun j hj => by rw [strays, if_neg hquant]; exact hj
          have hidx' : pre.length + 1 + t.bytes.length = (pre ++ t.bytes).length + 1 := by
            simp only [List.length_append]
            omega
          refine .single htype hone ?_
            (ih hrest hrest' hidx' hok hclean' (by rw [hmem]; simp) (by rw [hmem']; simp))
          exact hrest.head_isQuantifier hok (by simpa using hquant) fun hlone =>
            (hclean'.backslash 0 (by rw [hlone]; rfl)).1

/-- A pattern has no anchor. -/
theorem LoopRun.head_ne_begin (h : LoopRun base os idx r ts) (hok : r.2.2 = true)
    (hlone : ts[0]? = some .lone → ∀ o : RegexObj, os[0]? = some o → o.type = .unused) :
    ∀ p ∈ r.1.head?, p.type ≠ .beginAnchor := by
  cases h with
  | stop =>
    rintro p ⟨⟩
    exact fun h => nomatch h
  | overflow => cases hok
  | @cons o _ _ t _ _ hfits hproper _ =>
    rintro p ⟨⟩
    cases hproper with
    | plain htype =>
      rintro rfl
      cases htype
    | char => exact fun h => nomatch h
    | lone =>
      rw [ReToken.store, hlone rfl o rfl]
      exact fun h => nomatch h
    | cls htype => rcases htype with rfl | rfl <;> exact fun h => nomatch h
    | overflow => cases hfits

end Compiling

/-- Rules that match alike have one verdict. -/
theorem reMatchp_congr {one one' : RegexObj → UInt8 → Bool} {os os' : List RegexObj}
    (h : Alike one one' os os') (hbegin : ∀ p ∈ os.head?, p.type ≠ .beginAnchor)
    (name : List UInt8) : reMatchp one (some os) name = reMatchp one' (some os') name := by
  have hmatch := matchpattern_congr h none
  match os, os', h with
  | [], [], _ => rfl
  | p :: os, p' :: os', h =>
    have hp := hbegin p rfl
    have hp' := hp
    rw [h.head_type] at hp'
    rw [reMatchp, reMatchp, if_neg hp, if_neg hp', hmatch]

/-! ### Patterns in sequence -/

section Sequence

variable {base : UInt64} {before : List (List UInt8)} {pattern : List UInt8} {j : ℕ}

theorem after_concat (before : List (List UInt8)) (pattern : List UInt8) :
    ReStatic.after base (before ++ [pattern]) =
      (reCompile base pattern (.after base before)).1 := by
  rw [ReStatic.after, List.foldl_append]
  rfl

/-- The array has thirty objects. -/
theorem length_after (before : List (List UInt8)) :
    (ReStatic.after base before).reCompiled.length = 29 + 1 := by
  induction before using List.reverseRecOn with
  | nil => rfl
  | append_singleton before pattern ih =>
    rw [after_concat]
    exact (loopRun ih 1 pattern).length.trans ih

/-- A pattern is compiled behind others. -/
theorem runAfter (before : List (List UInt8)) (pattern : List UInt8) :
    LoopRun base (ReStatic.after base before).reCompiled 1
      (reCompileLoop base (ReStatic.after base before).reCompiled 1 pattern) (tokensOf pattern) :=
  loopRun (length_after before) 1 pattern

/-- **The buffer has what the patterns have written**, one after the other. -/
theorem cclBuf_after (patterns : List (List UInt8)) :
    (ReStatic.after base patterns).cclBuf = cellsAfter patterns := by
  induction patterns using List.reverseRecOn with
  | nil => rfl
  | append_singleton before pattern ih =>
    rw [after_concat, cellsAfter, List.foldl_append, ← cellsAfter, ← ih, reCompile,
      (runAfter before pattern).bytes]
    rfl

theorem union_after (h : ∀ p ∈ before, ∀ t : ReToken, (tokensOf p)[j]? = some t →
      t.writesUnion = false) :
    ((ReStatic.after base before).reCompiled[j]?).map (·.union) =
      (ReStatic.fresh.reCompiled[j]?).map (·.union) := by
  induction before using List.reverseRecOn with
  | nil => rfl
  | append_singleton before pattern ih =>
    rw [after_concat]
    exact ((runAfter before pattern).union_kept (h pattern (by simp))).trans
      (ih fun p hp => h p (by simp [hp]))

theorem fresh_get {o : RegexObj} (h : ReStatic.fresh.reCompiled[j]? = some o) : o = .zero :=
  List.eq_of_mem_replicate (List.mem_of_getElem? h)

theorem unused_after (h : ∀ p ∈ before, ∀ t : ReToken, (tokensOf p)[j]? = some t → t = .lone) :
    ∀ o : RegexObj, (ReStatic.after base before).reCompiled[j]? = some o → o.type = .unused := by
  induction before using List.reverseRecOn with
  | nil =>
    intro o ho
    rw [fresh_get ho]
    rfl
  | append_singleton before pattern ih =>
    rw [after_concat]
    exact (runAfter before pattern).unused_kept (h pattern (by simp))
      (ih fun p hp => h p (by simp [hp]))

/-- **The array is clean** if no earlier pattern has left anything. -/
theorem NothingLeft.clean (h : NothingLeft before pattern) :
    Clean (tokensOf pattern) (ReStatic.after base before).reCompiled ReStatic.fresh.reCompiled where
  quantifier j hj o o' ho ho' := by
    have hunion := @union_after base before j (h.quantifier j hj)
    rw [ho, ho'] at hunion
    have hsame : o.union = o'.union := by simpa using hunion
    rw [RegexObj.ch, RegexObj.ch, hsame]
  backslash j hj :=
    ⟨unused_after (h.backslash j hj), fun o ho => by rw [fresh_get ho]; rfl⟩

/-- A rule is compiled if its classes fit, whatever has been compiled before. -/
theorem ruleAfter_eq (before : List (List UInt8)) (pattern : List UInt8) :
    (Compiles pattern → ruleAfter base before pattern =
        some (reCompileLoop base (ReStatic.after base before).reCompiled 1 pattern).1) ∧
      (¬ Compiles pattern → ruleAfter base before pattern = none) :=
  ⟨fun h => if_pos ((runAfter before pattern).ok_iff.mpr h),
    fun h => if_neg fun hok => h ((runAfter before pattern).ok_iff.mp hok)⟩

end Sequence

/-! ### When the law holds -/

/-- The patterns of a list leave each other alone. -/
def RulesApart (patterns : List (List UInt8)) : Prop :=
  ∀ before pattern later, before ++ pattern :: later <+: patterns → Compiles pattern →
    ClassesKept (before ++ pattern :: later) pattern ∧ NothingLeft before pattern

/-- **A list of patterns keeps the law** if, when a rule is used, the characters of its classes
are still in the buffer and it reads nothing that an earlier pattern has left. -/
theorem rulesIndependent_of (base : UInt64) (behind : List UInt8) (patterns : List (List UInt8))
    (name : List UInt8) (h : RulesApart patterns) :
    RulesIndependent base behind patterns name := by
  intro before pattern later hprefix
  by_cases hcompiles : Compiles pattern
  · obtain ⟨hkept, hleft⟩ := h before pattern later hprefix hcompiles
    have hok := (@runAfter base before pattern).ok_iff.mpr hcompiles
    -- both buffers begin with the classes of the pattern
    have hmem : (ReStatic.after base (before ++ pattern :: later)).cclBuf ++ behind =
        0 :: ([] ++ (tokensOf pattern).flatMap (·.bytes)) ++
          ((cellsAfter (before ++ pattern :: later)).drop ((classCells pattern).length + 1) ++
            behind) := by
      rw [cclBuf_after, List.nil_append, ← classCells, ← hkept, ← List.append_assoc,
        List.take_append_drop]
    have hmem' : (ReStatic.after base [pattern]).cclBuf ++ behind =
        0 :: ([] ++ (tokensOf pattern).flatMap (·.bytes)) ++
          ((List.replicate 40 0).drop (1 + (classCells pattern).length) ++ behind) := by
      rw [cclBuf_after, List.nil_append, ← classCells, ← List.append_assoc]
      rfl
    have halike := alike_of_runs (@runAfter base before pattern) (runAfter [] pattern) rfl
      hok hleft.clean hmem hmem'
    have hbegin := (@runAfter base before pattern).head_ne_begin hok fun hlone =>
      (hleft.clean.backslash 0 hlone).1
    rw [reVerdict, reVerdict, (ruleAfter_eq before pattern).1 hcompiles,
      (ruleAfter_eq [] pattern).1 hcompiles]
    exact reMatchp_congr halike hbegin name
  · rw [(ruleAfter_eq before pattern).2 hcompiles, (ruleAfter_eq [] pattern).2 hcompiles]
    rfl

/-- A pattern with an operand for each quantifier and no backslash at its end reads nothing that
another one has left. -/
theorem NothingLeft.of_plain {before : List (List UInt8)} {pattern : List UInt8}
    (hquant : true ∉ strays (tokensOf pattern)) (hlone : ReToken.lone ∉ tokensOf pattern) :
    NothingLeft before pattern where
  quantifier _ hj := absurd (List.mem_of_getElem? hj) hquant
  backslash _ hj := absurd (List.mem_of_getElem? hj) hlone

/-- Two rules of which one has a class. -/
def oneClass : List (List UInt8) := [ascii "[ab]c", ascii "d.*"]

/-- They leave each other alone. -/
theorem rulesIndependent_of_oneClass :
    RulesIndependent 0x4000 [] oneClass (ascii "ac") := by
  refine rulesIndependent_of 0x4000 [] oneClass (ascii "ac") ?_
  intro before pattern later hprefix _
  match before, later with
  | [], [] =>
    obtain ⟨rfl, -⟩ := List.cons_prefix_cons.mp hprefix
    exact ⟨by decide +kernel, .of_plain (by decide +kernel) (by decide +kernel)⟩
  | [], [p] =>
    obtain ⟨rfl, h⟩ := List.cons_prefix_cons.mp hprefix
    obtain ⟨rfl, -⟩ := List.cons_prefix_cons.mp h
    exact ⟨by decide +kernel, .of_plain (by decide +kernel) (by decide +kernel)⟩
  | [b], [] =>
    obtain ⟨rfl, h⟩ := List.cons_prefix_cons.mp hprefix
    obtain ⟨rfl, -⟩ := List.cons_prefix_cons.mp h
    exact ⟨by decide +kernel, .of_plain (by decide +kernel) (by decide +kernel)⟩
  | [], _ :: _ :: _ => exact absurd hprefix.length_le (by simp [oneClass])
  | [_], _ :: _ => exact absurd hprefix.length_le (by simp [oneClass])
  | _ :: _ :: _, _ => exact absurd hprefix.length_le (by simp [oneClass])

/-- Two rules with a class each. -/
def twoClasses : List (List UInt8) := [ascii "[ab]c", ascii "[de]f"]

/-- **The second rule takes the class of the first one away**, which alone matches "ac". -/
theorem not_rulesIndependent_twoClasses :
    ¬ RulesIndependent 0x4000 [] twoClasses (ascii "ac") := by
  intro h
  have hsame := h [] (ascii "[ab]c") [ascii "[de]f"] (List.prefix_rfl)
  exact absurd hsame (by decide +kernel)

end N2n
