import N2nTun.Lib.Decimal

/-!
# Formatted text

`snprintf` of the C library: the text of a format and its arguments, and what of it finds room in a
buffer.  A format is given by its lines, and an argument by the text that its conversion makes of
it.

## Main definitions

* `printf` — the text, whose length is what `snprintf` returns.
* `snprintf` — what is in the buffer.
* `signed`, `padded`, `hexByte` — the texts of `%d`, `%8d` and `%02X`.

## Main results

* `length_printf` — **the length of the text**: what the format says itself, and the arguments.
-/

namespace Printf

open Tokens

/-! ### Formats -/

/-- The letter that ends a conversion. -/
def isConversion (c : Char) : Bool :=
  c == 's' || c == 'd' || c == 'i' || c == 'u' || c == 'X'

/-- The text of the rest of a format, in a conversion or not. -/
def expand : Bool → List Char → List (List UInt8) → List UInt8
  | _, [], _ => []
  | false, c :: cs, args =>
    if c = '%' then expand true cs args else c.toNat.toUInt8 :: expand false cs args
  | true, c :: cs, args =>
    if isConversion c then args.headD [] ++ expand false cs args.tail else expand true cs args

/-- How many characters a format has outside of its conversions. -/
def fixedLength : Bool → List Char → ℕ
  | _, [] => 0
  | false, c :: cs => if c = '%' then fixedLength true cs else fixedLength false cs + 1
  | true, c :: cs => if isConversion c then fixedLength false cs else fixedLength true cs

/-- How many conversions a format has. -/
def conversions : Bool → List Char → ℕ
  | _, [] => 0
  | false, c :: cs => if c = '%' then conversions true cs else conversions false cs
  | true, c :: cs => if isConversion c then conversions false cs + 1 else conversions true cs

/-- The characters of a format. -/
def chars (fmt : List String) : List Char := fmt.flatMap String.toList

/-- The text of a format and its arguments. -/
def printf (fmt : List String) (args : List (List UInt8)) : List UInt8 :=
  expand false (chars fmt) args

/-- What of a text is in a buffer, in front of the zero. -/
def snprintf (size : ℕ) (text : List UInt8) : List UInt8 := text.take (size - 1)

/-- The length of some arguments. -/
def total (args : List (List UInt8)) : ℕ := (args.map List.length).sum

@[simp] theorem total_nil : total [] = 0 := rfl

@[simp] theorem total_cons (a : List UInt8) (args : List (List UInt8)) :
    total (a :: args) = a.length + total args := rfl

theorem length_expand {cs : List Char} {conv : Bool} {args : List (List UInt8)}
    (h : conversions conv cs = args.length) :
    (expand conv cs args).length = fixedLength conv cs + total args := by
  induction cs generalizing conv args with
  | nil =>
    rw [List.eq_nil_of_length_eq_zero h.symm]
    cases conv <;> rfl
  | cons c cs ih =>
    cases conv with
    | false =>
      unfold conversions at h
      unfold expand fixedLength
      split_ifs at h ⊢
      · exact ih h
      · rw [List.length_cons, ih h]
        omega
    | true =>
      unfold conversions at h
      unfold expand fixedLength
      split_ifs at h ⊢
      · cases args with
        | nil => cases h
        | cons a args =>
          rw [List.length_append, List.tail_cons, ih (Nat.succ_injective h), List.headD_cons,
            total_cons]
          omega
      · exact ih h

/-- **The length of a text** is what the format says itself, and the arguments. -/
theorem length_printf {fmt : List String} {args : List (List UInt8)} {n k : ℕ}
    (hfixed : fixedLength false (chars fmt) = n) (hconv : conversions false (chars fmt) = k)
    (hargs : args.length = k) : (printf fmt args).length = n + total args := by
  rw [← hfixed]
  exact length_expand (hconv.trans hargs.symm)

theorem total_le {args : List (List UInt8)} {k : ℕ} (h : ∀ a ∈ args, a.length ≤ k) :
    total args ≤ args.length * k := by
  induction args with
  | nil => exact Nat.zero_le _
  | cons a args ih =>
    rw [List.forall_mem_cons] at h
    have htail := ih h.2
    rw [total_cons, List.length_cons, Nat.succ_mul]
    omega

theorem length_snprintf_le (size : ℕ) (text : List UInt8) :
    (snprintf size text).length ≤ size - 1 := List.length_take_le _ _

/-! ### Arguments -/

/-- `%d`, `%i` and `%ld`. -/
def signed (v : ℤ) : List UInt8 := if v < 0 then 0x2d :: decimal v.natAbs else decimal v.natAbs

/-- A text with blanks in front of it, as for `%8ld`. -/
def padded (width : ℕ) (text : List UInt8) : List UInt8 :=
  List.replicate (width - text.length) 0x20 ++ text

/-- A digit of `%X`. -/
def hexDigit (d : UInt8) : UInt8 := if d < 10 then d + 0x30 else d - 10 + 0x41

/-- `%02X` -/
def hexByte (b : UInt8) : List UInt8 := [hexDigit (b >>> 4), hexDigit (b &&& 0xf)]

theorem length_signed_le {v : ℤ} {k : ℕ} (h : v.natAbs < 10 ^ k) (hk : 0 < k) :
    (signed v).length ≤ k + 1 := by
  have hdigits := length_decimal_le h hk
  unfold signed
  split_ifs
  · exact Nat.succ_le_succ hdigits
  · exact Nat.le_succ_of_le hdigits

end Printf
