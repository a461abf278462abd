import Mathlib.Data.Nat.Digits.Lemmas
import N2nTun.Lib.Token

/-!
# Decimal numbers as text

The digits of a number as `printf` writes them, the value of digits, and `atoi`.

## Main definitions

* `decimal` — `%d` for a number that is not negative.
* `decimalValue` — the value of some digits.
* `atoi` — the number at the start of a text.

## Main results

* `decimalValue_decimal`, `atoi_digits` — **what is written is read back.**
* `length_decimal_le` — how many digits there are.
* `headD_decimal` — there are no leading zeros.
-/

namespace Tokens

/-- A decimal digit. -/
def isDigit (b : UInt8) : Bool := 0x30 ≤ b && b ≤ 0x39

/-- The value of some digits. -/
def decimalValue (ds : List UInt8) : ℕ := ds.foldl (fun n d => n * 10 + (d.toNat - 0x30)) 0

/-- The decimal digits of a number. -/
def decimal (n : ℕ) : List UInt8 :=
  if n = 0 then [0x30] else ((Nat.digits 10 n).map fun d => UInt8.ofNat (d + 0x30)).reverse

/-- `atoi`: white space, a sign, and digits up to the first byte that is none. -/
def atoi (s : List UInt8) : ℤ :=
  let s := s.dropWhile isSpace
  let neg := s.headD 0 == 0x2d
  let s := if neg || s.headD 0 == 0x2b then s.drop 1 else s
  let v : ℤ := decimalValue (s.takeWhile isDigit)
  if neg then -v else v

/-- A number with a sign, and one with something behind it. -/
example : atoi (ascii " -17") = -17 ∧ atoi (ascii "80,") = 80 ∧ atoi (ascii "") = 0 := by decide

theorem decimalValue_concat (ds : List UInt8) (d : UInt8) :
    decimalValue (ds ++ [d]) = decimalValue ds * 10 + (d.toNat - 0x30) := by
  rw [decimalValue, List.foldl_append, List.foldl_cons, List.foldl_nil, ← decimalValue]

/-- The byte of a digit. -/
theorem toNat_digitByte {d : ℕ} (h : d < 10) : (UInt8.ofNat (d + 0x30)).toNat = d + 0x30 := by
  rw [UInt8.toNat_ofNat']
  omega

theorem isDigit_digitByte {d : ℕ} (h : d < 10) : isDigit (UInt8.ofNat (d + 0x30)) = true := by
  have hbyte := toNat_digitByte h
  have hlow : (0x30 : UInt8).toNat = 0x30 := rfl
  have hhigh : (0x39 : UInt8).toNat = 0x39 := rfl
  simp only [isDigit, Bool.and_eq_true, decide_eq_true_eq, UInt8.le_iff_toNat_le, hbyte, hlow,
    hhigh]
  omega

/-- Only digits are written. -/
theorem isDigit_decimal (n : ℕ) : ∀ b ∈ decimal n, isDigit b = true := by
  intro b hb
  rw [decimal] at hb
  split_ifs at hb
  · rw [List.mem_singleton.mp hb]
    decide
  · obtain ⟨d, hd, rfl⟩ := List.mem_map.mp (List.mem_reverse.mp hb)
    exact isDigit_digitByte (Nat.digits_lt_base (by decide) hd)

/-- Digits in little-endian order. -/
theorem decimalValue_reverse {ds : List ℕ} (h : ∀ d ∈ ds, d < 10) :
    decimalValue (ds.map fun d => UInt8.ofNat (d + 0x30)).reverse = Nat.ofDigits 10 ds := by
  induction ds with
  | nil => rfl
  | cons d ds ih =>
    have hd := toNat_digitByte (h d List.mem_cons_self)
    rw [List.map_cons, List.reverse_cons, decimalValue_concat,
      ih fun d' hd' => h d' (List.mem_cons_of_mem _ hd'), hd, Nat.ofDigits_cons]
    omega

/-- **The value of what is written.** -/
theorem decimalValue_decimal (n : ℕ) : decimalValue (decimal n) = n := by
  rw [decimal]
  split_ifs with hzero
  · rw [hzero]
    rfl
  · rw [decimalValue_reverse fun d hd => Nat.digits_lt_base (by decide) hd, Nat.ofDigits_digits]

/-- A number below a power of ten has so many digits at most. -/
theorem length_decimal_le {n k : ℕ} (h : n < 10 ^ k) (hk : 0 < k) : (decimal n).length ≤ k := by
  rw [decimal]
  split_ifs
  · exact hk
  · rw [List.length_reverse, List.length_map]
    exact (Nat.digits_length_le_iff (by decide) n).mpr h

theorem decimal_ne_nil (n : ℕ) : decimal n ≠ [] := by
  rw [decimal]
  split_ifs with hzero
  · exact List.cons_ne_nil _ _
  · simpa [Nat.digits_eq_nil_iff_eq_zero] using hzero

/-- The last digit is written behind the others. -/
theorem decimal_concat {n : ℕ} (h : 10 ≤ n) :
    decimal n = decimal (n / 10) ++ [UInt8.ofNat (n % 10 + 0x30)] := by
  rw [decimal, if_neg (by omega), decimal, if_neg (by omega),
    Nat.digits_def' (by decide) (by omega), List.map_cons, List.reverse_cons]

theorem decimal_of_lt {n : ℕ} (h : n < 10) : decimal n = [UInt8.ofNat (n + 0x30)] := by
  rw [decimal]
  split_ifs with hzero
  · rw [hzero]
    rfl
  · rw [Nat.digits_of_lt 10 n hzero h]
    rfl

/-- There are no leading zeros. -/
theorem headD_decimal {n : ℕ} (h : n ≠ 0) : (decimal n).headD 0 ≠ 0x30 := by
  induction n using Nat.strong_induction_on with
  | _ n ih =>
    by_cases hsmall : n < 10
    · rw [decimal_of_lt hsmall]
      intro hzero
      have hbyte := congrArg UInt8.toNat hzero
      rw [List.headD_cons, toNat_digitByte hsmall] at hbyte
      exact h (Nat.add_right_cancel hbyte)
    · have hprev := ih (n / 10) (by omega) (by omega)
      rw [decimal_concat (not_lt.mp hsmall)]
      obtain ⟨d, ds, hds⟩ := List.exists_cons_of_ne_nil (decimal_ne_nil (n / 10))
      rw [hds] at hprev ⊢
      exact hprev

/-- How many digits a number below 1000 has. -/
theorem length_decimal_small {n : ℕ} (h : n < 1000) :
    (decimal n).length = if n < 10 then 1 else if n < 100 then 2 else 3 := by
  split_ifs with hone htwo
  · rw [decimal_of_lt hone]
    rfl
  · rw [decimal_concat (not_lt.mp hone), decimal_of_lt (by omega)]
    rfl
  · rw [decimal_concat (by omega), decimal_concat (by omega), decimal_of_lt (by omega)]
    rfl

/-- A digit is neither white space nor a sign. -/
theorem not_space_of_isDigit {b : UInt8} (h : isDigit b = true) :
    isSpace b = false ∧ b ≠ 0x2d ∧ b ≠ 0x2b := by
  have hlow : (0x30 : UInt8).toNat = 0x30 := rfl
  simp only [isDigit, Bool.and_eq_true, decide_eq_true_eq, UInt8.le_iff_toNat_le, hlow] at h
  refine ⟨?_, ?_, ?_⟩
  · have hblank : (0x0d : UInt8).toNat = 0x0d := rfl
    have hne : b ≠ 0x20 := by
      rintro rfl
      exact absurd h.1 (by decide)
    have hgt : ¬ b ≤ 0x0d := by
      rw [UInt8.le_iff_toNat_le, hblank]
      omega
    simp [isSpace, hne, hgt]
  · rintro rfl
    exact absurd h.1 (by decide)
  · rintro rfl
    exact absurd h.1 (by decide)

/-- **`atoi` of digits is their value.** -/
theorem atoi_digits {ds : List UInt8} (h : ∀ b ∈ ds, isDigit b = true) :
    atoi ds = decimalValue ds := by
  have htake : ds.takeWhile isDigit = ds := List.takeWhile_eq_self_iff.mpr h
  unfold atoi
  cases ds with
  | nil => rfl
  | cons b ds =>
    obtain ⟨hspace, hminus, hplus⟩ := not_space_of_isDigit (h b List.mem_cons_self)
    simp [hspace, hminus, hplus, htake]

end Tokens
