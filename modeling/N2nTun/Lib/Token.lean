import Mathlib.Algebra.Group.Nat.Defs
import Mathlib.Data.List.TakeWhile

/-!
# Tokens and numbers of the C library

`strtok`, `strtoul` and `strstr` on the bytes of a C string.  `strtok` changes the string it
works on and remembers where it stands; here it gives the rest of the string with the token.

## Main results

* `strtok_eq_none_iff` — **there is no token if and only if there are only delimiters.**
-/

namespace Tokens

/-- The bytes of a text. -/
def ascii (s : String) : List UInt8 := s.toList.map fun c => c.toNat.toUInt8

/-- `strtok`: the first token, and what follows the delimiter behind it; `none` for `NULL`. -/
def strtok (delims s : List UInt8) : Option (List UInt8 × List UInt8) :=
  match s.dropWhile (delims.contains ·) with
  | [] => none
  | b :: rest =>
    let token := (b :: rest).takeWhile (!delims.contains ·)
    some (token, ((b :: rest).dropWhile (!delims.contains ·)).drop 1)

theorem strtok_eq_none_iff {delims s : List UInt8} :
    strtok delims s = none ↔ ∀ b ∈ s, b ∈ delims := by
  have hnil : s.dropWhile (delims.contains ·) = [] ↔ ∀ b ∈ s, b ∈ delims := by
    simp [List.dropWhile_eq_nil_iff]
  rw [← hnil]
  unfold strtok
  cases s.dropWhile (delims.contains ·) <;> simp

/-- The token, and the rest of the string, when there is one. -/
theorem strtok_eq_some {delims s token rest : List UInt8}
    (h : strtok delims s = some (token, rest)) :
    s.dropWhile (delims.contains ·) ≠ [] ∧
      token = (s.dropWhile (delims.contains ·)).takeWhile (!delims.contains ·) ∧
      rest = ((s.dropWhile (delims.contains ·)).dropWhile (!delims.contains ·)).drop 1 := by
  unfold strtok at h
  split at h
  · cases h
  · next b l hs =>
    cases h
    rw [hs]
    exact ⟨List.cons_ne_nil b l, rfl, rfl⟩

theorem strtok_ne_nil {delims s : List UInt8} {t : List UInt8 × List UInt8}
    (h : strtok delims s = some t) : s ≠ [] := by
  rintro rfl
  cases h

/-- The token, and what is left, are no longer than the string. -/
theorem strtok_length_le {delims s token rest : List UInt8}
    (h : strtok delims s = some (token, rest)) :
    token.length ≤ s.length ∧ rest.length ≤ s.length := by
  obtain ⟨-, rfl, rfl⟩ := strtok_eq_some h
  have hskip := (List.dropWhile_suffix (delims.contains ·) (l := s)).length_le
  have htoken := (List.takeWhile_prefix (!delims.contains ·)
    (l := s.dropWhile (delims.contains ·))).length_le
  have hrest := (List.dropWhile_suffix (!delims.contains ·)
    (l := s.dropWhile (delims.contains ·))).length_le
  rw [List.length_drop]
  omega

/-- `isspace`. -/
def isSpace (b : UInt8) : Bool := b == 0x20 || (0x09 ≤ b && b ≤ 0x0d)

/-- The value of a digit; 36 for a byte that is none. -/
def digitValue (b : UInt8) : ℕ :=
  if 0x30 ≤ b ∧ b ≤ 0x39 then b.toNat - 0x30
  else if 0x61 ≤ b ∧ b ≤ 0x7a then b.toNat - 0x61 + 10
  else if 0x41 ≤ b ∧ b ≤ 0x5a then b.toNat - 0x41 + 10
  else 36

/-- The base that the digits are read in, and the digits without their prefix. -/
def basePrefix (base : ℕ) (s : List UInt8) : ℕ × List UInt8 :=
  match s with
  | 0x30 :: x :: rest =>
    if (x = 0x78 ∨ x = 0x58) ∧ (base = 0 ∨ base = 16) ∧ digitValue (rest.headD 0) < 16 then
      (16, rest)
    else (if base = 0 then 8 else base, s)
  | 0x30 :: [] => (if base = 0 then 8 else base, s)
  | _ => (if base = 0 then 10 else base, s)

/-- `strtoul`: what is too large becomes the largest number. -/
def strtoul (s : List UInt8) (base : ℕ) : UInt64 :=
  let s := s.dropWhile isSpace
  let neg := s.headD 0 == 0x2d
  let s := if neg || s.headD 0 == 0x2b then s.drop 1 else s
  let (base, s) := basePrefix base s
  let digits := (s.map digitValue).takeWhile (· < base)
  let v := digits.foldl (fun n d => n * base + d) 0
  if 2 ^ 64 ≤ v then 0xffffffffffffffff
  else if neg then 0 - UInt64.ofNat v
  else UInt64.ofNat v

/-- `strstr`, as a test: the second text occurs in the first. -/
def strstr : List UInt8 → List UInt8 → Bool
  | [], t => t.isPrefixOf []
  | c :: s, t => t.isPrefixOf (c :: s) || strstr s t

/-- A decimal, a hexadecimal and an octal number, and one with a sign. -/
example : strtoul (ascii "17 x") 0 = 17 ∧ strtoul (ascii " 0x1g") 0 = 1 ∧
    strtoul (ascii "017") 0 = 15 ∧ strtoul (ascii "-1") 16 = 0xffffffffffffffff := by
  decide

end Tokens
