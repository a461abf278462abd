import Mathlib.Data.List.Basic
import Mathlib.Tactic
import N2nTun.Lib.Bytes

/-!
# Regular expressions for the names of communities

`n2n_regex.c`: a pattern is compiled to an array of at most thirty objects, and the array is
matched against a text. An object has a type and a union that holds a character or a pointer to
the characters of a class. The array and the buffer for the characters of classes are static:
a rule is a copy of the array, but the characters of its classes stay in the buffer, and what
`re_compile` does not write is what an earlier pattern has left there.

A pattern is given as the memory from its first byte on; it ends with its first NUL, and an
unterminated class makes `re_compile` read on behind it. Memory that is not known reads as zero.
`char` is signed.

## Main definitions

* `RegexObj`, `ReStatic` — an object of a compiled pattern, and the static variables.
* `matchone`, `matchpattern`, `reMatchp` — the matcher.
* `reToken`, `reCompileLoop`, `reCompile` — the compiler.
-/

namespace N2n

open Bytes

/-! ### Objects -/

/-- The types of objects. -/
inductive ReType where
  | unused
  | dot
  | beginAnchor
  | endAnchor
  | questionmark
  | star
  | plus
  | charType
  | charClass
  | invCharClass
  | digit
  | notDigit
  | alpha
  | notAlpha
  | whitespace
  | notWhitespace
  deriving DecidableEq

/-- `?`, `*` and `+`. -/
def ReType.isQuantifier : ReType → Bool
  | .questionmark | .star | .plus => true
  | _ => false

/-- `regex_t`; the union has the size of a pointer. -/
structure RegexObj where
  type : ReType
  union : UInt64
  deriving DecidableEq

/-- An object of zeros. -/
def RegexObj.zero : RegexObj := ⟨.unused, 0⟩

/-- The character of the union is its first byte. -/
def RegexObj.ch (p : RegexObj) : UInt8 := p.union.toUInt8

/-- The first byte of the union is written. -/
def RegexObj.setCh (p : RegexObj) (c : UInt8) : RegexObj :=
  { p with type := .charType, union := (p.union &&& 0xffffffffffffff00) ||| c.toUInt64 }

/-! ### Matching a character -/

def matchdigit (c : UInt8) : Bool := 0x30 ≤ c && c ≤ 0x39

def matchalpha (c : UInt8) : Bool := (0x61 ≤ c && c ≤ 0x7a) || (0x41 ≤ c && c ≤ 0x5a)

def matchwhitespace (c : UInt8) : Bool := c == 0x20 || (0x09 ≤ c && c ≤ 0x0d)

def matchalphanum (c : UInt8) : Bool := c == 0x5f || matchalpha c || matchdigit c

def matchdot (c : UInt8) : Bool := c != 0x0a && c != 0x0d

/-- `s`, `S`, `w`, `W`, `d` and `D`. -/
def ismetachar (c : UInt8) : Bool :=
  c == 0x73 || c == 0x53 || c == 0x77 || c == 0x57 || c == 0x64 || c == 0x44

def matchmetachar (c e : UInt8) : Bool :=
  if e == 0x64 then matchdigit c
  else if e == 0x44 then !matchdigit c
  else if e == 0x77 then matchalphanum c
  else if e == 0x57 then !matchalphanum c
  else if e == 0x73 then matchwhitespace c
  else if e == 0x53 then !matchwhitespace c
  else c == e

/-- `matchrange`: a range such as `a-z` begins here. -/
def matchrange (c : UInt8) (str : List UInt8) : Bool :=
  let at' (i : ℕ) := str.getD i 0
  c != 0x2d && at' 0 != 0 && at' 0 != 0x2d && at' 1 == 0x2d && at' 2 != 0 &&
    (at' 0).toInt8 ≤ c.toInt8 && c.toInt8 ≤ (at' 2).toInt8

/-- `matchcharclass`, with the byte before the string. -/
def matchcharclass (c : UInt8) : UInt8 → List UInt8 → Bool
  | _, [] => c == 0
  | prev, s :: str =>
    if matchrange c (s :: str) then true
    else if s == 0x5c then
      match str with
      | [] => c == 0
      | e :: str =>
        if matchmetachar c e then true
        else if c == e && !ismetachar c then true
        else if e == 0 then false
        else matchcharclass c e str
    else if c == s then
      -- a minus matches at either end of the class
      if c == 0x2d then prev == 0 || str.getD 0 0 == 0 else true
    else if s == 0 then false
    else matchcharclass c s str

/-- `matchone`; `mem` is the memory from `ccl_buf` on, whose address is `base`. -/
def matchone (base : UInt64) (mem : List UInt8) (p : RegexObj) (c : UInt8) : Bool :=
  let pos := (p.union - base).toNat
  let inClass := matchcharclass c (mem.getD (pos - 1) 0) (mem.drop pos)
  match p.type with
  | .dot => matchdot c
  | .charClass => inClass
  | .invCharClass => !inClass
  | .digit => matchdigit c
  | .notDigit => !matchdigit c
  | .alpha => matchalphanum c
  | .notAlpha => !matchalphanum c
  | .whitespace => matchwhitespace c
  | .notWhitespace => !matchwhitespace c
  -- an unsigned character is compared with a signed one
  | _ => c < 0x80 && p.ch == c

/-! ### Matching a pattern -/

/-- The second loop of `matchstar` and of `matchplus`: the texts are tried from the last one to
the first one, and `*matchlength` goes down with them. -/
def tryBack (m : List UInt8 → ℤ → Bool × ℤ) : List (List UInt8) → ℤ → Bool × ℤ
  | [], len => (false, len)
  | text :: texts, len =>
    match m text len with
    | (true, len) => (true, len)
    | (false, len) => tryBack m texts (len - 1)

/-- The rests of a text behind 0, 1, … characters that match, the longest match first. -/
def starTexts (one : UInt8 → Bool) (text : List UInt8) : List (List UInt8) :=
  let n := (text.takeWhile one).length
  (List.range (n + 1)).reverse.map text.drop

def matchstar (one : UInt8 → Bool) (m : List UInt8 → ℤ → Bool × ℤ) (text : List UInt8) (len : ℤ) :
    Bool × ℤ :=
  match tryBack m (starTexts one text) (len + (text.takeWhile one).length) with
  | (true, len) => (true, len)
  | (false, _) => (false, len)

def matchplus (one : UInt8 → Bool) (m : List UInt8 → ℤ → Bool × ℤ) (text : List UInt8) (len : ℤ) :
    Bool × ℤ :=
  tryBack m (starTexts one text).dropLast (len + (text.takeWhile one).length)

def matchquestion (one : UInt8 → Bool) (m : List UInt8 → ℤ → Bool × ℤ) (text : List UInt8)
    (len : ℤ) : Bool × ℤ :=
  match m text len with
  | (true, len) => (true, len)
  | (false, len) =>
    match text with
    | [] => (false, len)
    | c :: text =>
      if one c then
        match m text len with
        | (true, len) => (true, len + 1)
        | (false, len) => (false, len)
      else (false, len)

/-- `matchpattern`, from a pass of its loop on; `pre` is the length at its beginning. The array
of objects ends with one that is unused. -/
def matchpattern (one : RegexObj → UInt8 → Bool) (pre : Option ℤ) :
    List RegexObj → List UInt8 → ℤ → Bool × ℤ
  | [], _, len => (true, len)
  | p :: rest, text, len =>
    let pre := pre.getD len
    if p.type = .unused then (true, len)
    else
      let single (rest : List UInt8 → ℤ → Bool × ℤ) : Bool × ℤ :=
        match text with
        | [] => (false, pre)
        | c :: text => if one p c then rest text (len + 1) else (false, pre)
      match rest with
      | [] => single (matchpattern one (some pre) [])
      | q :: rest =>
        if q.type = .questionmark then matchquestion (one p) (matchpattern one none rest) text len
        else if q.type = .star then matchstar (one p) (matchpattern one none rest) text len
        else if q.type = .plus then matchplus (one p) (matchpattern one none rest) text len
        else if p.type = .endAnchor ∧ q.type = .unused then (text.isEmpty, len)
        else single (matchpattern one (some pre) (q :: rest))

/-- The loop of `re_matchp`: the pattern is tried at each position. -/
def reMatchpLoop (m : List UInt8 → ℤ → Bool × ℤ) : List UInt8 → ℤ → ℤ → ℤ × ℤ
  | [], _, len => (-1, (m [] len).2)
  | c :: text, idx, len =>
    match m (c :: text) len with
    | (true, len) => (idx, len)
    | (false, len) => reMatchpLoop m text (idx + 1) len

/-- `re_matchp`: where the pattern matches, and the length of the match; `none` for `NULL`. -/
def reMatchp (one : RegexObj → UInt8 → Bool) (pattern : Option (List RegexObj))
    (text : List UInt8) : ℤ × ℤ :=
  match pattern with
  | none => (-1, 0)
  | some [] => (-1, 0)
  | some (p :: rest) =>
    if p.type = .beginAnchor then
      match matchpattern one none rest text 0 with
      | (true, len) => (0, len)
      | (false, len) => (-1, len)
    else reMatchpLoop (matchpattern one none (p :: rest)) text 0 0

/-! ### Compiling a pattern -/

/-- What one pass of `re_compile` reads from the pattern. -/
inductive ReToken where
  /-- only the type of the object is written -/
  | plain (type : ReType)
  /-- a character -/
  | char (c : UInt8)
  /-- a backslash at the end of the pattern: nothing is written -/
  | lone
  /-- a class, with the bytes that are written to the buffer -/
  | cls (type : ReType) (bytes : List UInt8)
  /-- a class that does not fit the buffer, with the bytes that are written all the same -/
  | overflow (type : ReType) (bytes : List UInt8)
  deriving DecidableEq

/-- The bytes that go to the buffer. -/
def ReToken.bytes : ReToken → List UInt8
  | .cls _ bytes | .overflow _ bytes => bytes
  | _ => []

/-- What is written to the object; `idx` is where the bytes go. -/
def ReToken.store (base : UInt64) (idx : ℕ) (o : RegexObj) : ReToken → RegexObj
  | .plain type => { o with type := type }
  | .char c => o.setCh c
  | .lone => o
  | .cls type _ => { o with type := type, union := base + UInt64.ofNat idx }
  | .overflow type _ => { o with type := type }

/-- The characters of a class, from index `idx` of the buffer on: the bytes that are written,
whether they fit, and the pattern from the byte on that ends the class. -/
def copyClass (idx : ℕ) : List UInt8 → List UInt8 × Bool × List UInt8
  | [] => if 40 ≤ idx then ([], false, []) else ([0], true, [])
  | c :: text =>
    if c == 0x5d || c == 0 then
      if 40 ≤ idx then ([], false, c :: text) else ([0], true, c :: text)
    else if c == 0x5c then
      if 39 ≤ idx then ([], false, c :: text)
      else
        -- the byte behind the backslash is copied, whatever it is
        match text with
        | [] =>
          let r := copyClass (idx + 2) []
          (c :: 0 :: r.1, r.2)
        | d :: text =>
          let r := copyClass (idx + 2) text
          (c :: d :: r.1, r.2)
    else if 40 ≤ idx then ([], false, c :: text)
    else
      let r := copyClass (idx + 1) text
      (c :: r.1, r.2)

/-- The object of an escaped character. -/
def escapeToken (c : UInt8) : ReToken :=
  if c == 0x64 then .plain .digit
  else if c == 0x44 then .plain .notDigit
  else if c == 0x77 then .plain .alpha
  else if c == 0x57 then .plain .notAlpha
  else if c == 0x73 then .plain .whitespace
  else if c == 0x53 then .plain .notWhitespace
  else .char c

/-- One pass of the loop, from the byte `c` of the pattern on: what is read, and the pattern
behind it. -/
def reToken (idx : ℕ) (c : UInt8) (text : List UInt8) : ReToken × List UInt8 :=
  if c == 0x2e then (.plain .dot, text)
  else if c == 0x2a then (.plain .star, text)
  else if c == 0x2b then (.plain .plus, text)
  else if c == 0x3f then (.plain .questionmark, text)
  else if c == 0x5c then
    if text.getD 0 0 != 0 then (escapeToken (text.getD 0 0), text.drop 1) else (.lone, text)
  else if c == 0x5b then
    let type : ReType := if text.getD 0 0 == 0x5e then .invCharClass else .charClass
    let r := copyClass idx (if text.getD 0 0 == 0x5e then text.drop 1 else text)
    -- the byte that ends the class is skipped, also when it is the NUL
    (if r.2.1 then .cls type r.1 else .overflow type r.1, r.2.2.drop 1)
  else (.char c, text)

/-- The loop of `re_compile`, from an object of the array and an index of the buffer on: what it
makes of the rest of the array, the bytes it writes to the buffer, and whether it ends. -/
def reCompileLoop (base : UInt64) :
    List RegexObj → ℕ → List UInt8 → List RegexObj × List UInt8 × Bool
  | [], _, _ => ([], [], true)
  -- one object is kept for the end of the pattern
  | [o], _, _ => ([{ o with type := .unused }], [], true)
  | o :: o' :: os, idx, text =>
    if text.getD 0 0 == 0 then ({ o with type := .unused } :: o' :: os, [], true)
    else
      let t := reToken idx (text.getD 0 0) (text.drop 1)
      match t.1 with
      | .overflow type bytes =>
        (ReToken.store base idx o (.overflow type bytes) :: o' :: os, bytes, false)
      | token =>
        let r := reCompileLoop base (o' :: os) (idx + token.bytes.length) t.2
        (token.store base idx o :: r.1, token.bytes ++ r.2.1, r.2.2)

/-- The static variables of `re_compile`. -/
structure ReStatic where
  reCompiled : List RegexObj
  cclBuf : List UInt8
  deriving DecidableEq

/-- The static variables at the start of the program. -/
def ReStatic.fresh : ReStatic := ⟨List.replicate 30 .zero, List.replicate 40 0⟩

/-- `re_compile`: the copy of the array, or `none` for `NULL`. -/
def reCompile (base : UInt64) (pattern : List UInt8) (s : ReStatic) :
    ReStatic × Option (List RegexObj) :=
  let r := reCompileLoop base s.reCompiled 1 pattern
  (⟨r.1, overwrite s.cclBuf 1 r.2.1⟩, if r.2.2 then some r.1 else none)

end N2n
