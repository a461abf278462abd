import Mathlib.Logic.Function.Basic
import N2nTun.Lib.Bytes
import N2nTun.Lib.Decimal

/-!
# Addresses as text

`intoa` writes the text of an address into the end of a buffer, from its last character back to
its first.  It writes a dot before every number, the first one included, and leaves that dot out of
what it returns.

## Main definitions

* `TextWriter` — the buffer and the pointer, with the offsets that have been written.
* `intoa` — the function.
* `dottedDecimal` — the text of an address.
* `IntoaMeets` — it writes inside the buffer, and returns the text.

## Main results

* `holds_intoa` — what is in the buffer at the end.
* `intoaMeets_iff` — **a buffer of 16 bytes is large enough unless all four numbers have three
  digits.**
-/

namespace N2n

open Tokens

/-! ### The function -/

/-- `cp`, as an offset into `buf`, the bytes in memory, and the offsets written so far. -/
structure TextWriter where
  bytes : ℤ → UInt8
  cp : ℤ
  written : List ℤ

namespace TextWriter

/-- `*--cp = b`. -/
def put (w : TextWriter) (b : UInt8) : TextWriter where
  bytes := Function.update w.bytes (w.cp - 1) b
  cp := w.cp - 1
  written := w.written ++ [w.cp - 1]

/-- One turn of the loop: the digits of a byte, and the separator. -/
def putByte (w : TextWriter) (byteval : UInt8) : TextWriter :=
  let w := w.put (byteval % 10 + 0x30)
  let byteval := byteval / 10
  let w :=
    if byteval > 0 then
      let w := w.put (byteval % 10 + 0x30)
      let byteval := byteval / 10
      if byteval > 0 then w.put (byteval + 0x30) else w
    else w
  w.put 0x2e

/-- The loop of `intoa`. -/
def putBytes (w : TextWriter) : ℕ → UInt32 → TextWriter
  | 0, _ => w
  | n + 1, addr => (w.putByte (addr &&& 0xff).toUInt8).putBytes n (addr >>> 8)

end TextWriter

/-- `intoa` with a buffer of `bufLen` bytes, on top of what is in memory: the buffer afterwards,
and `retStr`. -/
def intoa (addr : UInt32) (mem : ℤ → UInt8) (bufLen : ℕ) : TextWriter × ℤ :=
  let w : TextWriter := ⟨mem, bufLen, []⟩
  let w := (w.put 0).putBytes 4 addr
  (w, w.cp + 1)

/-- `sizeof(ipstr_t)`: `INET_ADDRSTRLEN`. -/
def ipstrSize : ℕ := 16

/-! ### What it is to do -/

/-- The four numbers of an address, the highest first. -/
def octets (addr : UInt32) : List ℕ :=
  [addr.toNat / 256 ^ 3 % 256, addr.toNat / 256 ^ 2 % 256, addr.toNat / 256 % 256,
    addr.toNat % 256]

/-- The text of an address: the numbers, with dots between them. -/
def dottedDecimal (addr : UInt32) : List UInt8 :=
  [0x2e].intercalate ((octets addr).map decimal)

/-- `intoa` writes inside the buffer only, and what it returns is the text, terminated, in which no
number has a leading zero. -/
structure IntoaMeets (addr : UInt32) (mem : ℤ → UInt8) (bufLen : ℕ) : Prop where
  inside : ∀ k ∈ (intoa addr mem bufLen).1.written, 0 ≤ k ∧ k < bufLen
  text : ∀ i < (dottedDecimal addr).length,
    (intoa addr mem bufLen).1.bytes ((intoa addr mem bufLen).2 + i) =
      (dottedDecimal addr).getD i 0
  terminated : (intoa addr mem bufLen).1.bytes
    ((intoa addr mem bufLen).2 + (dottedDecimal addr).length) = 0
  noLeadingZeros : ∀ octet ∈ octets addr, octet ≠ 0 → (decimal octet).headD 0 ≠ 0x30

/-! ### What is written -/

namespace TextWriter

/-- From `cp` to the end of the buffer there are the bytes of a list, and nothing else has been
written. -/
structure Holds (bufLen : ℕ) (out : List UInt8) (w : TextWriter) : Prop where
  cp : w.cp + out.length = bufLen
  bytes : ∀ i < out.length, w.bytes (w.cp + i) = out.getD i 0
  written : ∀ k, k ∈ w.written ↔ w.cp ≤ k ∧ k < bufLen

variable {bufLen : ℕ} {out : List UInt8} {w : TextWriter}

theorem Holds.put (h : w.Holds bufLen out) (b : UInt8) : (w.put b).Holds bufLen (b :: out) where
  cp := by
    have hcp := h.cp
    show w.cp - 1 + ((out.length + 1 : ℕ) : ℤ) = bufLen
    omega
  bytes i hi := by
    show Function.update w.bytes (w.cp - 1) b (w.cp - 1 + i) = _
    cases i with
    | zero => simp
    | succ i =>
      rw [Function.update_of_ne (by omega), List.getD_cons_succ,
        show w.cp - 1 + ((i + 1 : ℕ) : ℤ) = w.cp + i by omega]
      exact h.bytes i (Nat.lt_of_succ_lt_succ hi)
  written k := by
    have hcp := h.cp
    show k ∈ w.written ++ [w.cp - 1] ↔ w.cp - 1 ≤ k ∧ k < bufLen
    rw [List.mem_append, h.written, List.mem_singleton]
    omega

/-- The quotient and the remainder of a byte, as digits. -/
theorem digit_mod (b : UInt8) : b % 10 + 0x30 = UInt8.ofNat (b.toNat % 10 + 0x30) := by
  have hlt := b.toNat_lt
  apply UInt8.toNat_inj.mp
  rw [UInt8.toNat_add, UInt8.toNat_mod, UInt8.toNat_ofNat']
  rfl

theorem toNat_div_ten (b : UInt8) : (b / 10).toNat = b.toNat / 10 := UInt8.toNat_div b 10

theorem pos_iff (b : UInt8) : b > 0 ↔ b.toNat ≠ 0 := by
  rw [gt_iff_lt, UInt8.lt_iff_toNat_lt, UInt8.toNat_zero, Nat.pos_iff_ne_zero]

/-- **One turn of the loop** writes the number, and a dot before it. -/
theorem Holds.putByte (h : w.Holds bufLen out) (b : UInt8) :
    (w.putByte b).Holds bufLen (0x2e :: (decimal b.toNat ++ out)) := by
  have hlt := b.toNat_lt
  have hten := toNat_div_ten b
  have hhundred := toNat_div_ten (b / 10)
  unfold TextWriter.putByte
  dsimp only
  refine Holds.put ?_ _
  have hone := h.put (b % 10 + 0x30)
  rw [digit_mod b] at hone ⊢
  by_cases htwo : b / 10 > 0
  · rw [if_pos htwo]
    rw [pos_iff, hten] at htwo
    have hdigits := hone.put (b / 10 % 10 + 0x30)
    rw [digit_mod (b / 10), hten] at hdigits ⊢
    rw [decimal_concat (by omega), List.append_assoc, List.singleton_append]
    by_cases hthree : b / 10 / 10 > 0
    · rw [if_pos hthree]
      rw [pos_iff, hhundred, hten] at hthree
      have hlast : b / 10 / 10 + 0x30 = UInt8.ofNat (b.toNat / 10 / 10 + 0x30) := by
        apply UInt8.toNat_inj.mp
        rw [UInt8.toNat_add, hhundred, hten, UInt8.toNat_ofNat']
        rfl
      rw [decimal_concat (by omega), decimal_of_lt (by omega), ← hlast, List.append_assoc]
      exact hdigits.put _
    · rw [if_neg hthree]
      rw [pos_iff, hhundred, hten, not_not] at hthree
      have hsmall : b.toNat / 10 % 10 = b.toNat / 10 := by omega
      rw [hsmall] at hdigits ⊢
      rw [decimal_of_lt (by omega)]
      exact hdigits
  · rw [if_neg htwo]
    rw [pos_iff, hten, not_not] at htwo
    have hsmall : b.toNat % 10 = b.toNat := by omega
    rw [hsmall] at hone ⊢
    rw [decimal_of_lt (by omega)]
    exact hone

end TextWriter

/-- The low byte of an address. -/
theorem toNat_lowByte (addr : UInt32) : (addr &&& 0xff).toUInt8.toNat = addr.toNat % 256 := by
  rw [UInt32.toNat_toUInt8, UInt32.toNat_and]
  have hand : addr.toNat &&& 255 = addr.toNat % 2 ^ 8 := Nat.and_two_pow_sub_one_eq_mod addr.toNat 8
  rw [show (0xff : UInt32).toNat = 255 from rfl, hand]
  omega

theorem toNat_shiftByte (addr : UInt32) : (addr >>> 8).toNat = addr.toNat / 256 := by
  rw [UInt32.toNat_shiftRight, Nat.shiftRight_eq_div_pow]
  rfl

/-- **What is in the buffer at the end**: a dot, the text, and the terminator. -/
theorem holds_intoa (addr : UInt32) (mem : ℤ → UInt8) (bufLen : ℕ) :
    (intoa addr mem bufLen).1.Holds bufLen (0x2e :: (dottedDecimal addr ++ [0])) := by
  have hstart : TextWriter.Holds bufLen [] ⟨mem, bufLen, []⟩ := by
    refine ⟨by simp, fun i hi => absurd hi (Nat.not_lt_zero i), fun k => ?_⟩
    simp only [List.not_mem_nil, false_iff]
    omega
  have h := ((((hstart.put 0).putByte (addr &&& 0xff).toUInt8).putByte
    (addr >>> 8 &&& 0xff).toUInt8).putByte (addr >>> 8 >>> 8 &&& 0xff).toUInt8).putByte
    (addr >>> 8 >>> 8 >>> 8 &&& 0xff).toUInt8
  simp only [toNat_lowByte, toNat_shiftByte, Nat.div_div_eq_div_mul] at h
  have hout : 0x2e :: (dottedDecimal addr ++ [0]) =
      0x2e :: (decimal (addr.toNat / (256 * 256 * 256) % 256) ++
        0x2e :: (decimal (addr.toNat / (256 * 256) % 256) ++
          0x2e :: (decimal (addr.toNat / 256 % 256) ++
            0x2e :: (decimal (addr.toNat % 256) ++ [0])))) := by
    simp [dottedDecimal, octets, List.intercalate]
  rw [hout]
  exact h

/-- The length of the text. -/
theorem length_dottedDecimal (addr : UInt32) :
    (dottedDecimal addr).length = ((octets addr).map fun n => (decimal n).length).sum + 3 := by
  simp [dottedDecimal, octets, List.intercalate]
  omega

/-- **When the buffer is large enough.** -/
theorem intoaMeets_length_iff {addr : UInt32} {mem : ℤ → UInt8} {bufLen : ℕ} :
    IntoaMeets addr mem bufLen ↔ (dottedDecimal addr).length + 2 ≤ bufLen := by
  have h := holds_intoa addr mem bufLen
  have hcp := h.cp
  have hlen : (0x2e :: (dottedDecimal addr ++ [0])).length = (dottedDecimal addr).length + 2 := by
    simp
  have hret : (intoa addr mem bufLen).2 = (intoa addr mem bufLen).1.cp + 1 := rfl
  rw [hlen] at hcp
  constructor
  · intro hmeets
    -- the dot before the first number
    have hdot := (hmeets.inside _ ((h.written _).mpr ⟨le_refl _, by omega⟩)).1
    omega
  · intro hroom
    refine ⟨fun k hk => ?_, fun i hi => ?_, ?_, fun _ _ => headD_decimal⟩
    · have hrange := (h.written k).mp hk
      omega
    · have hbyte := h.bytes (i + 1) (by omega)
      rw [List.getD_cons_succ, List.getD_append _ _ _ _ hi] at hbyte
      rw [hret, ← hbyte]
      congr 1
      omega
    · have hbyte := h.bytes ((dottedDecimal addr).length + 1) (by omega)
      rw [List.getD_cons_succ, List.getD_append_right _ _ _ _ (le_refl _), Nat.sub_self] at hbyte
      rw [hret, ← show _ = (0 : UInt8) from hbyte]
      congr 1
      omega

/-- **The buffer of the callers is large enough unless all four numbers have three digits.** -/
theorem intoaMeets_iff (addr : UInt32) (mem : ℤ → UInt8) :
    IntoaMeets addr mem ipstrSize ↔ ∃ octet ∈ octets addr, octet < 100 := by
  rw [intoaMeets_length_iff, length_dottedDecimal]
  have hlt : ∀ n, n % 256 < 1000 := fun n => by omega
  simp only [octets, ipstrSize, List.map_cons, List.map_nil, List.sum_cons, List.sum_nil,
    length_decimal_small (hlt _), List.mem_cons, List.not_mem_nil, or_false, exists_eq_or_imp,
    exists_eq_left]
  split_ifs <;> omega

/-- The text of 100.100.100.100 fits, but not the dot before it. -/
theorem not_intoaMeets_long : ¬ IntoaMeets 0x64646464 (fun _ => 0) ipstrSize := by
  rw [intoaMeets_length_iff]
  decide

end N2n
