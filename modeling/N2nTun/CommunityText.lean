import N2nTun.CommunityFile
import N2nTun.Lib.Decimal
import N2nTun.RuleIndependence
import N2nTun.SnPeriodic

/-!
# The text of the community file

How `load_allowed_sn_community` reads its file: `fgets` gives it lines, `sscanf` takes them
apart, and each is a community, a regular expression or a user. A line that begins with the
character of user lines is a user only if it has the right form and there is a community to add
the user to; otherwise it is read on as any other line, and since that character is one of
regular expressions, it becomes one.

## Main definitions

* `fileLines` — the lines that are looked at.
* `scanUser`, `namedLine`, `readLine` — what a line is.
* `World.loadCommunityText` — the file is loaded.

## Main results

* `namedLine_user` — **a user line that is no user is a regular expression.**
* `readLines_append`, `attachRules_append` — a file is read line by line.
-/

namespace N2n

open Bytes Tokens

/-! ### Lines -/

/-- `fgets` into a buffer of `n + 1` bytes: what is read, and the rest of the file. -/
def fgets : ℕ → List UInt8 → List UInt8 × List UInt8
  | 0, file => ([], file)
  | _ + 1, [] => ([], [])
  | n + 1, b :: file =>
    if b == 0x0a then ([b], file)
    else
      let r := fgets n file
      (b :: r.1, r.2)

/-- The calls of `fgets` with the buffer of 4096 bytes, at most `n` of them. -/
def fgetsLoop : ℕ → List UInt8 → List (List UInt8)
  | 0, _ => []
  | n + 1, file =>
    if file = [] then []
    else
      let r := fgets 4095 file
      r.1 :: fgetsLoop n r.2

/-- Newlines and carriage returns at the end are cut off, but for the first byte. -/
def stripLine : List UInt8 → List UInt8
  | [] => []
  | c :: line => c :: (line.reverse.dropWhile fun b => b == 0x0a || b == 0x0d).reverse

/-- The lines that are neither too short nor comments. A line ends with its first NUL. -/
def fileLines (file : List UInt8) : List (List UInt8) :=
  (fgetsLoop file.length file).filterMap fun chunk =>
    let line := cstr chunk
    if line.length < 2 || line.headD 0 == 0x23 then none else some (stripLine line)

/-! ### Words -/

/-- `%s` with a width: white space is skipped. The word, and the rest. -/
def scanWord (width : ℕ) (s : List UInt8) : List UInt8 × List UInt8 :=
  let s := s.dropWhile isSpace
  let word := (s.takeWhile (!isSpace ·)).take width
  (word, s.drop word.length)

/-- `N2N_USER_KEY_LINE_STARTER` begins the line. -/
def isUserLine (line : List UInt8) : Bool := line.headD 0 == 0x2a

/-- `sscanf` with the format of user lines: the user name and the key, if there are both. -/
def scanUser (line : List UInt8) : Option (List UInt8 × List UInt8) :=
  let username := scanWord 15 (line.drop 1)
  let asciiPublicKey := scanWord 43 username.2
  if username.1 = [] ∨ asciiPublicKey.1 = [] then none else some (username.1, asciiPublicKey.1)

/-- `a2b`, from 0x20 on; the rest of its 256 bytes is zero. -/
def a2bTable : List UInt8 :=
  [0xff, 0xff, 0xff, 0xff, 0xff, 0xff, 0xff, 0xff, 0xff, 0xff, 0xff, 0x3e, 0xff, 0x3f, 0xff, 0xff,
   0x00, 0x01, 0x02, 0x03, 0x04, 0x05, 0x06, 0x07, 0x08, 0x09, 0xff, 0xff, 0x3e, 0xff, 0x3f, 0xff,
   0xff, 0x0a, 0x0b, 0x0c, 0x0d, 0x0e, 0x0f, 0x10, 0x11, 0x12, 0x13, 0x14, 0x15, 0x16, 0x17, 0x18,
   0x19, 0x1a, 0x1b, 0x1c, 0x1d, 0x1e, 0x1f, 0x20, 0x21, 0x22, 0x23, 0xff, 0xff, 0xff, 0xff, 0xff,
   0xff, 0x24, 0x25, 0x26, 0x27, 0x28, 0x29, 0x2a, 0x2b, 0x2c, 0x2d, 0x2e, 0x2f, 0x30, 0x31, 0x32,
   0x33, 0x34, 0x35, 0x36, 0x37, 0x38, 0x39, 0x3a, 0x3b, 0x3c, 0x3d, 0xff, 0xff, 0xff, 0xff, 0xff]

/-- The state of the loop of `ascii_to_bin`. -/
structure AsciiDecoder where
  buf : UInt16
  bitCount : ℕ
  out : List UInt8
  outCount : ℕ

/-- One character. The check for invalid characters looks at another entry of the table than
the one that is used. -/
def AsciiDecoder.char (d : AsciiDecoder) (ch : UInt8) : AsciiDecoder :=
  let buf := d.buf <<< 6
  let buf :=
    if 0x20 < ch ∧ ch < 0x80 ∧ a2bTable.getD ch.toNat 0 ≠ 0xff then
      buf ||| (a2bTable.getD (ch.toNat - 0x20) 0).toUInt16
    else buf
  if 8 ≤ d.bitCount + 6 then
    ⟨buf, d.bitCount + 6 - 8,
      overwrite d.out d.outCount [(buf >>> UInt16.ofNat (d.bitCount + 6 - 8)).toUInt8],
      d.outCount + 1⟩
  else ⟨buf, d.bitCount + 6, d.out, d.outCount⟩

/-- `ascii_to_bin`: what is behind the key stays in the buffer. -/
def asciiToBin (out s : List UInt8) : List UInt8 :=
  (s.foldl AsciiDecoder.char ⟨0, 0, out, 0⟩).out

/-! ### What a line is -/

/-- A line of the file. -/
inductive TextLine where
  | community (name : List UInt8) (net : Option IpSubnet)
  | rule (pattern : List UInt8)
  | user (publicKey : List UInt8)
  deriving DecidableEq

/-- The characters of regular expressions. -/
def reChars : List UInt8 := ascii ".*+?[]\\"

/-- The sub-network of a community: `sscanf` and the checks. -/
def netOf (inetAddr : List UInt8 → UInt32) (netStr : List UInt8) : Option IpSubnet :=
  let ipStr := (netStr.takeWhile (· != 0x2f)).take 15
  let rest := netStr.drop ipStr.length
  let number := rest.drop 1
  let digits := if number.headD 0 == 0x2d || number.headD 0 == 0x2b then number.drop 1 else number
  if ipStr = [] ∨ rest.headD 0 ≠ 0x2f ∨ isDigit (digits.headD 0) = false then none
  else
    let bitlen := (strtoul number 10).toUInt8
    let net := inetAddr ipStr
    if net = 0xffffffff ∨ net = 0 ∨ ntohl net &&& ~~~ bitlen2mask bitlen ≠ 0 ∨
        30 < bitlen ∨ bitlen = 0 then none
    else some ⟨ntohl net, bitlen⟩

/-- "community name or regular expression" -/
def namedLine (inetAddr : List UInt8 → UInt32) (line : List UInt8) : TextLine :=
  let cmnStr := scanWord line.length line
  let netStr := scanWord line.length cmnStr.2
  if cmnStr.1.any (reChars.contains ·) then .rule cmnStr.1
  else .community cmnStr.1 (if netStr.1 = [] then none else netOf inetAddr netStr.1)

/-- The state of the loop over the lines: whether there is a community that users are added to,
and the buffer for their keys. -/
structure LineState where
  hasComm : Bool
  publicKey : List UInt8

/-- One line. -/
def readLine (inetAddr : List UInt8 → UInt32) (s : LineState) (line : List UInt8) : TextLine :=
  match scanUser line with
  | some (_, asciiPublicKey) =>
    if isUserLine line && s.hasComm then .user (asciiToBin s.publicKey asciiPublicKey)
    else namedLine inetAddr line
  | none => namedLine inetAddr line

/-- The state behind a line. -/
def LineState.next (s : LineState) : TextLine → LineState
  | .community _ _ => { s with hasComm := true }
  | .rule _ => { s with hasComm := false }
  | .user publicKey => { s with publicKey := publicKey }

/-- The lines one after the other. -/
def readLines (inetAddr : List UInt8 → UInt32) : LineState → List (List UInt8) → List TextLine
  | _, [] => []
  | s, line :: lines =>
    let t := readLine inetAddr s line
    t :: readLines inetAddr (s.next t) lines

/-! ### Loading the file -/

/-- What the text of the file is read with: `inet_addr`, what the stack holds where a key is
decoded, the static variables of the regular expressions (the address of their buffer, what lies
behind it and the patterns that have been compiled before), and the shared secrets. -/
structure FileEnv where
  inetAddr : List UInt8 → UInt32
  publicKey : List UInt8
  cclBase : UInt64
  cclBehind : List UInt8
  compiled : List (List UInt8)
  secret : List UInt8 → List UInt8

/-- The patterns among some lines. -/
def linePatterns (lines : List TextLine) : List (List UInt8) :=
  lines.filterMap fun line =>
    match line with
    | .rule pattern => some pattern
    | _ => none

/-- The rules for some patterns, once all of them are compiled. -/
def FileEnv.rules (env : FileEnv) (patterns : List (List UInt8)) : List Rule :=
  (List.range patterns.length).map fun i =>
    { matchp := reVerdict env.cclBase env.cclBehind
        (.after env.cclBase (env.compiled ++ patterns))
        (ruleAfter env.cclBase (env.compiled ++ patterns.take i) (patterns.getD i [])) }

/-- No rule at all. -/
def noRule : Rule := ⟨fun _ => (-1, 0)⟩

/-- The lines with their rules. -/
def attachRules : List Rule → List TextLine → List CommunityLine
  | _, [] => []
  | rules, .community name net :: lines => .community name net :: attachRules rules lines
  | rules, .rule _ :: lines => .rule (rules.headD noRule) :: attachRules rules.tail lines
  | rules, .user publicKey :: lines => .user publicKey noRule :: attachRules rules lines

/-- The lines of a file as they are read. -/
def FileEnv.read (env : FileEnv) (lines : List (List UInt8)) : List TextLine :=
  readLines env.inetAddr ⟨false, env.publicKey⟩ lines

/-- `load_allowed_sn_community`, on the lines of the file. -/
def World.loadCommunityLines (w : World) (env : FileEnv) (lines : List (List UInt8)) : World × ℤ :=
  let read := env.read lines
  w.loadAllowedSnCommunity (attachRules (env.rules (linePatterns read)) read) env.secret

/-- `load_allowed_sn_community`, on the text of the file. -/
def World.loadCommunityText (w : World) (env : FileEnv) (file : List UInt8) : World × ℤ :=
  w.loadCommunityLines env (fileLines file)

/-! ### Reading line by line -/

section Reading

variable {inetAddr : List UInt8 → UInt32} {s : LineState} {line : List UInt8}

/-- The first word of a line that begins with the character of user lines. -/
theorem scanWord_user (h : isUserLine line = true) :
    ∃ word, (scanWord line.length line).1 = 0x2a :: word := by
  match line with
  | c :: line =>
    obtain rfl : c = 0x2a := eq_of_beq h
    have hspace : isSpace 0x2a = false := by decide
    simp [scanWord, hspace]

/-- **A user line that is no user is a regular expression.** -/
theorem namedLine_user (h : isUserLine line = true) :
    ∃ pattern, namedLine inetAddr line = .rule pattern := by
  obtain ⟨word, hword⟩ := scanWord_user h
  refine ⟨0x2a :: word, ?_⟩
  have hspecial : (0x2a :: word).any (reChars.contains ·) = true := by
    rw [List.any_cons, Bool.or_eq_true]
    exact .inl (by decide)
  rw [namedLine, hword, if_pos hspecial]

/-- A line that is no user line does not depend on the lines before it. -/
theorem readLine_other (h : isUserLine line = false) :
    readLine inetAddr s line = namedLine inetAddr line := by
  unfold readLine
  rw [h]
  cases scanUser line <;> rfl

/-- A user line is a user or a regular expression. -/
theorem readLine_user (h : isUserLine line = true) :
    (((scanUser line).isSome && s.hasComm) = true ∧
        ∃ key, readLine inetAddr s line = .user key) ∨
      (((scanUser line).isSome && s.hasComm) = false ∧
        ∃ pattern, readLine inetAddr s line = .rule pattern) := by
  unfold readLine
  rw [h]
  cases scanUser line with
  | none => exact .inr ⟨rfl, namedLine_user h⟩
  | some p =>
    cases hcomm : s.hasComm with
    | false => exact .inr ⟨rfl, namedLine_user h⟩
    | true => exact .inl ⟨rfl, _, rfl⟩

/-- The state behind some lines. -/
def LineState.after (inetAddr : List UInt8 → UInt32) (s : LineState)
    (lines : List (List UInt8)) : LineState :=
  lines.foldl (fun s line => s.next (readLine inetAddr s line)) s

/-- **Lines are read one after the other.** -/
theorem readLines_append (lines lines' : List (List UInt8)) :
    readLines inetAddr s (lines ++ lines') =
      readLines inetAddr s lines ++ readLines inetAddr (s.after inetAddr lines) lines' := by
  induction lines generalizing s with
  | nil => rfl
  | cons line lines ih =>
    rw [List.cons_append, readLines, readLines, ih]
    rfl

/-- The rules are attached one after the other. -/
theorem attachRules_append (rules : List Rule) (ts ts' : List TextLine) :
    attachRules rules (ts ++ ts') =
      attachRules rules ts ++ attachRules (rules.drop (linePatterns ts).length) ts' := by
  induction ts generalizing rules with
  | nil => rfl
  | cons t ts ih =>
    cases t with
    | rule pattern =>
      rw [List.cons_append, attachRules, attachRules, ih, List.cons_append]
      simp [linePatterns]
    | _ =>
      rw [List.cons_append, attachRules, attachRules, ih, List.cons_append]
      rfl

end Reading

end N2n
