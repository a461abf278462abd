import Mathlib.Data.Vector.Basic
import Mathlib.Data.Nat.Bitwise

/-!
# Byte buffers and fixed-width words

A buffer is a `List UInt8`; a fixed-size array is a `List.Vector UInt8 n`, so
that its size travels with it.  Words are assembled from and cut into bytes with
the shifts and masks a C program uses, and each such expression is given its
arithmetic reading once, after which `omega` deals with it.

## Main definitions

* `slice base i n` — the `n` bytes at offset `i`.
* `overwrite base i p` — `base` after a copy of `p` to offset `i`.
* `copyTo out p` — the memory at `out` after a copy of `p` to its start.  The
  result is longer than `out` exactly when the copy runs past its end.
* `be16`, `be32`, `le32` and `be16At`, …, `le64At` — words from bytes.
* `bytes16`, `bytes32`, `bytes64`, `leBytes32`, `leBytes64` — bytes of words.
-/

namespace Bytes

/-- The `n` bytes of `base` at offset `i`. -/
def slice (base : List UInt8) (i n : ℕ) : List UInt8 :=
  (List.range n).map fun k => base.getD (i + k) 0

/-- `base` after `p` has been copied to offset `i`. -/
def overwrite (base : List UInt8) (i : ℕ) (p : List UInt8) : List UInt8 :=
  base.take i ++ p ++ base.drop (i + p.length)

/-- The memory that starts at the array `out` after `p` has been copied to its
start: bytes of `p` beyond the end of the array are kept, so that an overlong
copy shows as a longer list. -/
def copyTo (out p : List UInt8) : List UInt8 :=
  p ++ out.drop p.length

/-- The array of the `n` bytes of `base` at offset `i`. -/
def sliceVec (base : List UInt8) (i n : ℕ) : List.Vector UInt8 n :=
  ⟨slice base i n, by simp [slice]⟩

@[simp] theorem length_slice (base : List UInt8) (i n : ℕ) : (slice base i n).length = n := by
  simp [slice]

@[simp] theorem slice_zero (base : List UInt8) (i : ℕ) : slice base i 0 = [] := rfl

/-- Inside the buffer a slice is what `drop` and `take` cut out. -/
theorem slice_eq_take_drop {base : List UInt8} {i n : ℕ} (h : i + n ≤ base.length) :
    slice base i n = (base.drop i).take n := by
  apply List.ext_getElem
  · simp only [length_slice, List.length_take, List.length_drop]
    omega
  · intro k hk _
    rw [length_slice] at hk
    have hik : i + k < base.length := by omega
    simp [slice, hik]

/-- A slice only depends on the bytes it covers. -/
theorem slice_congr {base base' : List UInt8} {i n : ℕ}
    (h : ∀ k, i ≤ k → k < i + n → base.getD k 0 = base'.getD k 0) :
    slice base i n = slice base' i n := by
  apply List.map_congr_left
  intro k hk
  exact h (i + k) (by omega) (by have := List.mem_range.mp hk; omega)

theorem getD_append_add (x y : List UInt8) (k : ℕ) :
    (x ++ y).getD (x.length + k) 0 = y.getD k 0 := by
  rw [List.getD_append_right _ _ _ _ (Nat.le_add_right _ _), Nat.add_sub_cancel_left]

theorem slice_append (x y : List UInt8) (k n : ℕ) :
    slice (x ++ y) (x.length + k) n = slice y k n := by
  simp only [slice, Nat.add_assoc, getD_append_add]

theorem slice_left (x y : List UInt8) : slice (x ++ y) 0 x.length = x := by
  rw [slice_eq_take_drop (by simp), List.drop_zero, List.take_left' rfl]

/-- The middle one of three parts. -/
theorem slice_middle {x y z : List UInt8} {i n : ℕ} (hi : x.length = i) (hn : y.length = n) :
    slice (x ++ y ++ z) i n = y := by
  have hcut := slice_append x (y ++ z) 0 n
  rw [Nat.add_zero, hi, ← List.append_assoc] at hcut
  rw [hcut, ← hn, slice_left]

/-- A slice in two parts. -/
theorem slice_add (base : List UInt8) (i m n : ℕ) :
    slice base i (m + n) = slice base i m ++ slice base (i + m) n := by
  simp [slice, List.range_add, Function.comp_def, Nat.add_assoc]

theorem slice_drop (base : List UInt8) (j i n : ℕ) :
    slice (base.drop j) i n = slice base (j + i) n := by
  simp [slice, List.getD_eq_getElem?_getD, Nat.add_assoc]

@[simp] theorem length_copyTo (out p : List UInt8) :
    (copyTo out p).length = max p.length out.length := by
  simp only [copyTo, List.length_append, List.length_drop]
  omega

/-- Writing at the end of what has been written appends. -/
theorem take_overwrite_end {base : List UInt8} {i : ℕ} {p : List UInt8} (h : i ≤ base.length) :
    (overwrite base i p).take (i + p.length) = base.take i ++ p := by
  have hlen : (base.take i ++ p).length = i + p.length := by
    simp only [List.length_append, List.length_take]
    omega
  rw [overwrite, ← hlen, List.take_left']
  rfl

/-- A part of the buffer is replaced by as many bytes. -/
theorem overwrite_append {x y z p : List UInt8} (h : y.length = p.length) :
    overwrite (x ++ y ++ z) x.length p = x ++ p ++ z := by
  rw [overwrite, ← h, List.append_assoc x y z, List.take_left' rfl, ← List.append_assoc x y,
    ← List.length_append, List.drop_left' rfl]

theorem length_overwrite {base : List UInt8} {i : ℕ} {p : List UInt8}
    (h : i + p.length ≤ base.length) : (overwrite base i p).length = base.length := by
  simp only [overwrite, List.length_append, List.length_take, List.length_drop]
  omega

/-! ### Big-endian words -/

/-- A 16-bit word from its high and low byte. -/
def be16 (hi lo : UInt8) : UInt16 := (hi.toUInt16 <<< 8) ||| lo.toUInt16

/-- A 32-bit word from its four bytes, the highest first. -/
def be32 (b₀ b₁ b₂ b₃ : UInt8) : UInt32 :=
  (b₀.toUInt32 <<< 24) ||| (b₁.toUInt32 <<< 16) ||| (b₂.toUInt32 <<< 8) ||| b₃.toUInt32

/-- The 16-bit big-endian word of a buffer at offset `i`. -/
def be16At (base : List UInt8) (i : ℕ) : UInt16 := be16 (base.getD i 0) (base.getD (i + 1) 0)

/-- The 32-bit big-endian word of a buffer at offset `i`. -/
def be32At (base : List UInt8) (i : ℕ) : UInt32 :=
  be32 (base.getD i 0) (base.getD (i + 1) 0) (base.getD (i + 2) 0) (base.getD (i + 3) 0)

/-- The bytes of a 16-bit word, the high one first. -/
def bytes16 (v : UInt16) : List UInt8 := [(v >>> 8).toUInt8, v.toUInt8]

/-- The bytes of a 32-bit word, the highest first. -/
def bytes32 (v : UInt32) : List UInt8 :=
  [(v >>> 24).toUInt8, (v >>> 16).toUInt8, (v >>> 8).toUInt8, v.toUInt8]

/-- The bytes of a 64-bit word, the highest first. -/
def bytes64 (v : UInt64) : List UInt8 :=
  [(v >>> 56).toUInt8, (v >>> 48).toUInt8, (v >>> 40).toUInt8, (v >>> 32).toUInt8,
    (v >>> 24).toUInt8, (v >>> 16).toUInt8, (v >>> 8).toUInt8, v.toUInt8]

/-- The 64-bit big-endian word of a buffer at offset `i`. -/
def be64At (base : List UInt8) (i : ℕ) : UInt64 :=
  ((be32At base i).toUInt64 <<< 32) ||| (be32At base (i + 4)).toUInt64

/-- A 32-bit word from its four bytes, the lowest first. -/
def le32 (b₀ b₁ b₂ b₃ : UInt8) : UInt32 :=
  b₀.toUInt32 ||| (b₁.toUInt32 <<< 8) ||| (b₂.toUInt32 <<< 16) ||| (b₃.toUInt32 <<< 24)

/-- The 32-bit little-endian word of a buffer at offset `i`. -/
def le32At (base : List UInt8) (i : ℕ) : UInt32 :=
  le32 (base.getD i 0) (base.getD (i + 1) 0) (base.getD (i + 2) 0) (base.getD (i + 3) 0)

/-- The 64-bit little-endian word of a buffer at offset `i`. -/
def le64At (base : List UInt8) (i : ℕ) : UInt64 :=
  (le32At base i).toUInt64 ||| ((le32At base (i + 4)).toUInt64 <<< 32)

/-- The bytes of a 32-bit word, the lowest first. -/
def leBytes32 (v : UInt32) : List UInt8 := (bytes32 v).reverse

/-- The bytes of a 64-bit word, the lowest first. -/
def leBytes64 (v : UInt64) : List UInt8 := (bytes64 v).reverse

/-- Byte-wise exclusive or. -/
def xorBytes (p q : List UInt8) : List UInt8 := p.zipWith (· ^^^ ·) q

@[simp] theorem length_bytes16 (v : UInt16) : (bytes16 v).length = 2 := rfl

@[simp] theorem length_bytes32 (v : UInt32) : (bytes32 v).length = 4 := rfl

theorem be16At_append (x y : List UInt8) (k : ℕ) :
    be16At (x ++ y) (x.length + k) = be16At y k := by
  simp only [be16At, Nat.add_assoc, getD_append_add]

theorem be32At_append (x y : List UInt8) (k : ℕ) :
    be32At (x ++ y) (x.length + k) = be32At y k := by
  simp only [be32At, Nat.add_assoc, getD_append_add]

theorem be64At_append (x y : List UInt8) (k : ℕ) :
    be64At (x ++ y) (x.length + k) = be64At y k := by
  simp only [be64At, Nat.add_assoc, be32At_append]

theorem le64At_append (x y : List UInt8) (k : ℕ) :
    le64At (x ++ y) (x.length + k) = le64At y k := by
  simp only [le64At, le32At, Nat.add_assoc, getD_append_add]

/-- A word only depends on the bytes it covers. -/
theorem le64At_left {x : List UInt8} {k : ℕ} (h : k + 8 ≤ x.length) (y : List UInt8) :
    le64At (x ++ y) k = le64At x k := by
  have hbyte : ∀ i, i < k + 8 → (x ++ y).getD i 0 = x.getD i 0 :=
    fun i hi => List.getD_append _ _ _ _ (by omega)
  simp only [le64At, le32At]
  rw [hbyte _ (by omega), hbyte _ (by omega), hbyte _ (by omega), hbyte _ (by omega),
    hbyte _ (by omega), hbyte _ (by omega), hbyte _ (by omega), hbyte _ (by omega)]

theorem toNat_be16 (hi lo : UInt8) : (be16 hi lo).toNat = hi.toNat * 256 + lo.toNat := by
  have hhi := hi.toNat_lt
  have hlo := lo.toNat_lt
  have hshift : hi.toNat <<< 8 % 2 ^ 16 = hi.toNat <<< 8 := by
    rw [Nat.shiftLeft_eq]
    omega
  simp only [be16, UInt16.toNat_or, UInt16.toNat_shiftLeft, UInt8.toNat_toUInt16]
  rw [show (8 : UInt16).toNat % 16 = 8 from rfl, hshift,
    ← Nat.shiftLeft_add_eq_or_of_lt hlo, Nat.shiftLeft_eq]

/-- The lower bits of a word are put beside the higher ones. -/
theorem shiftLeft_or {a b k : ℕ} (h : b < 2 ^ k) : a <<< k ||| b = a * 2 ^ k + b := by
  rw [← Nat.shiftLeft_add_eq_or_of_lt h, Nat.shiftLeft_eq]

theorem toNat_be32 (b₀ b₁ b₂ b₃ : UInt8) :
    (be32 b₀ b₁ b₂ b₃).toNat =
      ((b₀.toNat * 256 + b₁.toNat) * 256 + b₂.toNat) * 256 + b₃.toNat := by
  have h₀ := b₀.toNat_lt
  have h₁ := b₁.toNat_lt
  have h₂ := b₂.toNat_lt
  have h₃ := b₃.toNat_lt
  have hsmall : ∀ {b : UInt8} {k : ℕ}, k ≤ 24 → b.toNat <<< k % 2 ^ 32 = b.toNat <<< k := by
    intro b k hk
    rw [Nat.shiftLeft_eq]
    refine Nat.mod_eq_of_lt ?_
    have hb := b.toNat_lt
    calc b.toNat * 2 ^ k ≤ b.toNat * 2 ^ 24 :=
          Nat.mul_le_mul_left _ (Nat.pow_le_pow_right (by omega) hk)
      _ < 2 ^ 32 := by omega
  simp only [be32, UInt32.toNat_or, UInt32.toNat_shiftLeft, UInt8.toNat_toUInt32]
  rw [show (24 : UInt32).toNat % 32 = 24 from rfl, show (16 : UInt32).toNat % 32 = 16 from rfl,
    show (8 : UInt32).toNat % 32 = 8 from rfl, hsmall (by omega), hsmall (by omega),
    hsmall (by omega), Nat.or_assoc, Nat.or_assoc, shiftLeft_or (a := b₂.toNat) h₃,
    shiftLeft_or (a := b₁.toNat) (by omega), shiftLeft_or (by omega)]
  omega

theorem toNat_word64 (hi lo : UInt32) :
    ((hi.toUInt64 <<< 32) ||| lo.toUInt64).toNat = hi.toNat * 2 ^ 32 + lo.toNat := by
  have hhi := hi.toNat_lt
  have hsmall : hi.toNat <<< 32 % 2 ^ 64 = hi.toNat <<< 32 := by
    rw [Nat.shiftLeft_eq]
    omega
  simp only [UInt64.toNat_or, UInt64.toNat_shiftLeft, UInt32.toNat_toUInt64]
  rw [show (32 : UInt64).toNat % 64 = 32 from rfl, hsmall, shiftLeft_or lo.toNat_lt]

/-- Assembling the bytes of a 16-bit word gives the word back. -/
theorem be16_bytes16 (v : UInt16) : be16 (v >>> 8).toUInt8 v.toUInt8 = v := by
  apply UInt16.toNat_inj.mp
  have hv := v.toNat_lt
  rw [toNat_be16]
  simp only [UInt16.toNat_toUInt8, UInt16.toNat_shiftRight]
  rw [show (8 : UInt16).toNat % 16 = 8 from rfl, Nat.shiftRight_eq_div_pow]
  omega

/-- Cutting an assembled 16-bit word gives its bytes back. -/
theorem bytes16_be16 (hi lo : UInt8) : bytes16 (be16 hi lo) = [hi, lo] := by
  have hhi := hi.toNat_lt
  have hlo := lo.toNat_lt
  have h₁ : (be16 hi lo >>> 8).toUInt8 = hi := by
    apply UInt8.toNat_inj.mp
    simp only [UInt16.toNat_toUInt8, UInt16.toNat_shiftRight, toNat_be16]
    rw [show (8 : UInt16).toNat % 16 = 8 from rfl, Nat.shiftRight_eq_div_pow]
    omega
  have h₂ : (be16 hi lo).toUInt8 = lo := by
    apply UInt8.toNat_inj.mp
    simp only [UInt16.toNat_toUInt8, toNat_be16]
    omega
  rw [bytes16, h₁, h₂]

/-- Assembling the bytes of a 32-bit word gives the word back. -/
theorem be32At_bytes32 (v : UInt32) (y : List UInt8) : be32At (bytes32 v ++ y) 0 = v := by
  show be32 (v >>> 24).toUInt8 (v >>> 16).toUInt8 (v >>> 8).toUInt8 v.toUInt8 = v
  apply UInt32.toNat_inj.mp
  have hv := v.toNat_lt
  rw [toNat_be32]
  simp only [UInt32.toNat_toUInt8, UInt32.toNat_shiftRight]
  rw [show (24 : UInt32).toNat % 32 = 24 from rfl, show (16 : UInt32).toNat % 32 = 16 from rfl,
    show (8 : UInt32).toNat % 32 = 8 from rfl]
  simp only [Nat.shiftRight_eq_div_pow]
  omega

/-- Cutting an assembled 32-bit word gives its bytes back. -/
theorem bytes32_be32 (b₀ b₁ b₂ b₃ : UInt8) : bytes32 (be32 b₀ b₁ b₂ b₃) = [b₀, b₁, b₂, b₃] := by
  have h := toNat_be32 b₀ b₁ b₂ b₃
  generalize be32 b₀ b₁ b₂ b₃ = v at h
  have h₀ := b₀.toNat_lt
  have h₁ := b₁.toNat_lt
  have h₂ := b₂.toNat_lt
  have h₃ := b₃.toNat_lt
  have hbyte : ∀ (k : UInt32) (b : UInt8), v.toNat / 2 ^ (k.toNat % 32) % 2 ^ 8 = b.toNat →
      (v >>> k).toUInt8 = b := by
    intro k b hb
    apply UInt8.toNat_inj.mp
    rw [UInt32.toNat_toUInt8, UInt32.toNat_shiftRight, Nat.shiftRight_eq_div_pow, hb]
  have hlow : v.toUInt8 = b₃ := by
    apply UInt8.toNat_inj.mp
    rw [UInt32.toNat_toUInt8]
    omega
  rw [bytes32, hbyte 24 b₀ (by simp; omega), hbyte 16 b₁ (by simp; omega),
    hbyte 8 b₂ (by simp; omega), hlow]

theorem be16At_bytes16 (v : UInt16) (y : List UInt8) : be16At (bytes16 v ++ y) 0 = v :=
  be16_bytes16 v

/-- Assembling the bytes of a 64-bit word gives the word back. -/
theorem be64At_bytes64 (v : UInt64) (y : List UInt8) : be64At (bytes64 v ++ y) 0 = v := by
  show (be32 (v >>> 56).toUInt8 (v >>> 48).toUInt8 (v >>> 40).toUInt8
      (v >>> 32).toUInt8).toUInt64 <<< 32 |||
    (be32 (v >>> 24).toUInt8 (v >>> 16).toUInt8 (v >>> 8).toUInt8 v.toUInt8).toUInt64 = v
  apply UInt64.toNat_inj.mp
  have hv := v.toNat_lt
  rw [toNat_word64, toNat_be32, toNat_be32]
  simp only [UInt64.toNat_toUInt8, UInt64.toNat_shiftRight]
  rw [show (56 : UInt64).toNat % 64 = 56 from rfl, show (48 : UInt64).toNat % 64 = 48 from rfl,
    show (40 : UInt64).toNat % 64 = 40 from rfl, show (32 : UInt64).toNat % 64 = 32 from rfl,
    show (24 : UInt64).toNat % 64 = 24 from rfl, show (16 : UInt64).toNat % 64 = 16 from rfl,
    show (8 : UInt64).toNat % 64 = 8 from rfl]
  simp only [Nat.shiftRight_eq_div_pow]
  omega

/-- Cutting an assembled 64-bit word gives its bytes back. -/
theorem bytes64_be64 (b₀ b₁ b₂ b₃ b₄ b₅ b₆ b₇ : UInt8) :
    bytes64 (((be32 b₀ b₁ b₂ b₃).toUInt64 <<< 32) ||| (be32 b₄ b₅ b₆ b₇).toUInt64) =
      [b₀, b₁, b₂, b₃, b₄, b₅, b₆, b₇] := by
  have h := toNat_word64 (be32 b₀ b₁ b₂ b₃) (be32 b₄ b₅ b₆ b₇)
  rw [toNat_be32, toNat_be32] at h
  generalize ((be32 b₀ b₁ b₂ b₃).toUInt64 <<< 32) ||| (be32 b₄ b₅ b₆ b₇).toUInt64 = v at h
  have h₀ := b₀.toNat_lt
  have h₁ := b₁.toNat_lt
  have h₂ := b₂.toNat_lt
  have h₃ := b₃.toNat_lt
  have h₄ := b₄.toNat_lt
  have h₅ := b₅.toNat_lt
  have h₆ := b₆.toNat_lt
  have h₇ := b₇.toNat_lt
  have hbyte : ∀ (k : UInt64) (b : UInt8), v.toNat / 2 ^ (k.toNat % 64) % 2 ^ 8 = b.toNat →
      (v >>> k).toUInt8 = b := by
    intro k b hb
    apply UInt8.toNat_inj.mp
    rw [UInt64.toNat_toUInt8, UInt64.toNat_shiftRight, Nat.shiftRight_eq_div_pow, hb]
  have hlow : v.toUInt8 = b₇ := by
    apply UInt8.toNat_inj.mp
    rw [UInt64.toNat_toUInt8]
    omega
  rw [bytes64, hbyte 56 b₀ (by simp; omega), hbyte 48 b₁ (by simp; omega),
    hbyte 40 b₂ (by simp; omega), hbyte 32 b₃ (by simp; omega), hbyte 24 b₄ (by simp; omega),
    hbyte 16 b₅ (by simp; omega), hbyte 8 b₆ (by simp; omega), hlow]

/-! ### Exclusive or -/

@[simp] theorem length_xorBytes (p q : List UInt8) :
    (xorBytes p q).length = min p.length q.length := List.length_zipWith

theorem xorBytes_comm (p q : List UInt8) : xorBytes p q = xorBytes q p :=
  List.zipWith_comm_of_comm fun x y => UInt8.xor_comm x y

theorem xorBytes_assoc (p q r : List UInt8) :
    xorBytes (xorBytes p q) r = xorBytes p (xorBytes q r) := by
  induction p generalizing q r with
  | nil => simp [xorBytes]
  | cons x p ih =>
    cases q with
    | nil => simp [xorBytes]
    | cons y q =>
      cases r with
      | nil => simp [xorBytes]
      | cons z r => simpa [xorBytes, UInt8.xor_assoc] using ih q r

theorem xorBytes_right_comm (p q r : List UInt8) :
    xorBytes (xorBytes p q) r = xorBytes (xorBytes p r) q := by
  rw [xorBytes_assoc, xorBytes_comm q r, ← xorBytes_assoc]

/-- What is added twice cancels. -/
theorem xorBytes_cancel {p q : List UInt8} (h : p.length ≤ q.length) :
    xorBytes (xorBytes p q) q = p := by
  induction p generalizing q with
  | nil => rfl
  | cons x p ih =>
    cases q with
    | nil => simp at h
    | cons y q =>
      have hrest := ih (q := q) (by simpa using h)
      simpa [xorBytes, UInt8.xor_assoc] using hrest

/-! ### Little-endian words -/

theorem le32_eq_be32 (b₀ b₁ b₂ b₃ : UInt8) : le32 b₀ b₁ b₂ b₃ = be32 b₃ b₂ b₁ b₀ := by
  unfold le32 be32
  rw [UInt32.or_comm _ (b₃.toUInt32 <<< 24), UInt32.or_comm _ (b₂.toUInt32 <<< 16),
    UInt32.or_comm b₀.toUInt32, ← UInt32.or_assoc, ← UInt32.or_assoc]

theorem le64At_leBytes64 (v : UInt64) (y : List UInt8) : le64At (leBytes64 v ++ y) 0 = v := by
  refine Eq.trans ?_ (be64At_bytes64 v [])
  unfold le64At le32At
  rw [le32_eq_be32, le32_eq_be32, UInt64.or_comm]
  rfl

theorem leBytes64_le64At {x : List UInt8} (h : x.length = 8) (y : List UInt8) :
    leBytes64 (le64At (x ++ y) 0) = x := by
  match x, h with
  | [b₀, b₁, b₂, b₃, b₄, b₅, b₆, b₇], _ =>
    have hword : le64At ([b₀, b₁, b₂, b₃, b₄, b₅, b₆, b₇] ++ y) 0 =
        ((be32 b₇ b₆ b₅ b₄).toUInt64 <<< 32) ||| (be32 b₃ b₂ b₁ b₀).toUInt64 := by
      rw [UInt64.or_comm, ← le32_eq_be32, ← le32_eq_be32]
      rfl
    rw [leBytes64, hword, bytes64_be64]
    rfl

end Bytes
