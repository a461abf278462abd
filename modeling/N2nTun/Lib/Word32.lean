import Mathlib.Data.List.Basic
import N2nTun.Lib.Bytes

/-!
# Words of 32 bits

Words are rotated, taken apart with `b0` to `b3` and put together with `be32`.  They are equal if
their bytes are; exclusive or works on each byte.  A table has an entry for every byte, and what
holds of all of them can be looked through.

## Main definitions

* `rol32` — a rotation to the left.
* `b0`, `b1`, `b2`, `b3` — the bytes of a word, the lowest first.
* `look`, `table` — the entry of a table for a byte, and the table with the values of a function.

## Main results

* `toNat_rol32` — a rotation, read as arithmetic.
* `xor_eq_rol32` — a rotation made with exclusive or.
* `be32_b` — a word is made of its bytes.
* `be32_xor` — exclusive or works on each byte.
* `forall_byte` — **what holds of the 256 bytes holds of every byte.**
* `look_table` — a table that was filled.
-/

namespace Bytes

theorem xorBytes_append {p q : List UInt8} (h : p.length = q.length) (p' q' : List UInt8) :
    xorBytes (p ++ p') (q ++ q') = xorBytes p q ++ xorBytes p' q' := List.zipWith_append h

/-! ### Rotations -/

/-- A rotation to the left. -/
def rol32 (x r : UInt32) : UInt32 := (x <<< r) ||| (x >>> (32 - r))

/-- The bits of a rotation come from two places that do not meet. -/
theorem shiftLeft_xor_shiftRight {r : ℕ} (h : r ≤ 32) (x : BitVec 32) :
    (x <<< r) ^^^ (x >>> (32 - r)) = (x <<< r) ||| (x >>> (32 - r)) := by
  apply BitVec.eq_of_getLsbD_eq
  intro i hi
  simp only [BitVec.getLsbD_xor, BitVec.getLsbD_or, BitVec.getLsbD_shiftLeft,
    BitVec.getLsbD_ushiftRight]
  by_cases hlow : i < r
  · simp [hlow]
  · have hhigh : x.getLsbD (32 - r + i) = false := BitVec.getLsbD_of_ge _ _ (by omega)
    rw [hhigh, Bool.xor_false, Bool.or_false]

theorem toNat_thirtyTwo_sub {r : UInt32} (h : r.toNat < 32) : (32 - r).toNat = 32 - r.toNat :=
  UInt32.toNat_sub_of_le _ _ (by rw [UInt32.le_iff_toNat_le]; exact h.le)

theorem xor_eq_rol32 {r : UInt32} (h : 0 < r.toNat) (h' : r.toNat < 32) (x : UInt32) :
    (x <<< r) ^^^ (x >>> (32 - r)) = rol32 x r := by
  have hsub := toNat_thirtyTwo_sub h'
  have hbits := shiftLeft_xor_shiftRight h'.le x.toBitVec
  have hleft : (x <<< r).toBitVec = x.toBitVec <<< r.toNat := by
    simp [Nat.mod_eq_of_lt h']
  have hright : (x >>> (32 - r)).toBitVec = x.toBitVec >>> (32 - r.toNat) := by
    rw [UInt32.toBitVec_shiftRight, BitVec.ushiftRight_eq', BitVec.toNat_umod,
      UInt32.toNat_toBitVec, hsub, show (32 : BitVec 32).toNat = 32 from rfl,
      Nat.mod_eq_of_lt (by omega)]
  apply UInt32.toBitVec_inj.mp
  rw [rol32, UInt32.toBitVec_xor, UInt32.toBitVec_or, hleft, hright, hbits]

/-- A rotation, read as arithmetic. -/
theorem toNat_rol32 {r : UInt32} (h : 0 < r.toNat) (h' : r.toNat < 32) (x : UInt32) :
    (rol32 x r).toNat =
      x.toNat % 2 ^ (32 - r.toNat) * 2 ^ r.toNat + x.toNat / 2 ^ (32 - r.toNat) := by
  have hpow : 2 ^ (32 - r.toNat) * 2 ^ r.toNat = 2 ^ 32 := by
    rw [← Nat.pow_add, Nat.sub_add_cancel h'.le]
  have hlow : x.toNat / 2 ^ (32 - r.toNat) < 2 ^ r.toNat := by
    rw [Nat.div_lt_iff_lt_mul (Nat.two_pow_pos _), Nat.mul_comm, hpow]
    exact x.toNat_lt
  have hhigh : x.toNat <<< r.toNat % 2 ^ 32 = (x.toNat % 2 ^ (32 - r.toNat)) <<< r.toNat := by
    rw [Nat.shiftLeft_eq, Nat.shiftLeft_eq, ← hpow, Nat.mul_mod_mul_right]
  rw [rol32, UInt32.toNat_or, UInt32.toNat_shiftLeft, UInt32.toNat_shiftRight,
    toNat_thirtyTwo_sub h', Nat.mod_eq_of_lt h', Nat.mod_eq_of_lt (by omega : 32 - r.toNat < 32),
    hhigh, Nat.shiftRight_eq_div_pow, shiftLeft_or hlow]

/-- A rotation by more bits than are left is one by the rest, to the right. -/
theorem rol32_rol32 {r t : UInt32} (h : 0 < r.toNat) (h' : r.toNat < 32)
    (ht : t.toNat = 32 - r.toNat) (x : UInt32) : rol32 (rol32 x r) t = x := by
  apply UInt32.toNat_inj.mp
  rw [toNat_rol32 (by omega) (by omega), toNat_rol32 h h', ht, Nat.sub_sub_self h'.le]
  have hpow : 2 ^ (32 - r.toNat) * 2 ^ r.toNat = 2 ^ 32 := by
    rw [← Nat.pow_add, Nat.sub_add_cancel h'.le]
  have hlow : x.toNat / 2 ^ (32 - r.toNat) < 2 ^ r.toNat := by
    rw [Nat.div_lt_iff_lt_mul (Nat.two_pow_pos _), Nat.mul_comm, hpow]
    exact x.toNat_lt
  rw [Nat.mul_comm _ (2 ^ r.toNat), Nat.mul_add_mod, Nat.mod_eq_of_lt hlow,
    Nat.mul_add_div (Nat.two_pow_pos _), Nat.div_eq_of_lt hlow, Nat.add_zero, Nat.add_comm,
    Nat.mul_comm, Nat.mod_add_div]

/-! ### The bytes of a word -/

def b0 (x : UInt32) : UInt8 := x.toUInt8

def b1 (x : UInt32) : UInt8 := (x >>> 8).toUInt8

def b2 (x : UInt32) : UInt8 := (x >>> 16).toUInt8

def b3 (x : UInt32) : UInt8 := (x >>> 24).toUInt8

theorem bytes32_eq (x : UInt32) : bytes32 x = [b3 x, b2 x, b1 x, b0 x] := rfl

theorem leBytes32_eq (x : UInt32) : leBytes32 x = [b0 x, b1 x, b2 x, b3 x] := rfl

/-- A word is made of its bytes. -/
@[simp] theorem be32_b (x : UInt32) : be32 (b3 x) (b2 x) (b1 x) (b0 x) = x := be32At_bytes32 x []

/-- The bytes of a word that is made of bytes. -/
theorem b_be32 (c₃ c₂ c₁ c₀ : UInt8) : b3 (be32 c₃ c₂ c₁ c₀) = c₃ ∧ b2 (be32 c₃ c₂ c₁ c₀) = c₂ ∧
    b1 (be32 c₃ c₂ c₁ c₀) = c₁ ∧ b0 (be32 c₃ c₂ c₁ c₀) = c₀ := by
  have h := bytes32_be32 c₃ c₂ c₁ c₀
  rw [bytes32_eq] at h
  simpa using h

@[simp] theorem b3_be32 (c₃ c₂ c₁ c₀ : UInt8) : b3 (be32 c₃ c₂ c₁ c₀) = c₃ := (b_be32 ..).1

@[simp] theorem b2_be32 (c₃ c₂ c₁ c₀ : UInt8) : b2 (be32 c₃ c₂ c₁ c₀) = c₂ := (b_be32 ..).2.1

@[simp] theorem b1_be32 (c₃ c₂ c₁ c₀ : UInt8) : b1 (be32 c₃ c₂ c₁ c₀) = c₁ := (b_be32 ..).2.2.1

@[simp] theorem b0_be32 (c₃ c₂ c₁ c₀ : UInt8) : b0 (be32 c₃ c₂ c₁ c₀) = c₀ := (b_be32 ..).2.2.2

@[simp] theorem b0_xor (x y : UInt32) : b0 (x ^^^ y) = b0 x ^^^ b0 y := UInt32.toUInt8_xor x y

@[simp] theorem b1_xor (x y : UInt32) : b1 (x ^^^ y) = b1 x ^^^ b1 y := by
  rw [b1, UInt32.shiftRight_xor, UInt32.toUInt8_xor]
  rfl

@[simp] theorem b2_xor (x y : UInt32) : b2 (x ^^^ y) = b2 x ^^^ b2 y := by
  rw [b2, UInt32.shiftRight_xor, UInt32.toUInt8_xor]
  rfl

@[simp] theorem b3_xor (x y : UInt32) : b3 (x ^^^ y) = b3 x ^^^ b3 y := by
  rw [b3, UInt32.shiftRight_xor, UInt32.toUInt8_xor]
  rfl

@[simp] theorem b0_and (x y : UInt32) : b0 (x &&& y) = b0 x &&& b0 y := UInt32.toUInt8_and x y

@[simp] theorem b1_and (x y : UInt32) : b1 (x &&& y) = b1 x &&& b1 y := by
  rw [b1, UInt32.shiftRight_and, UInt32.toUInt8_and]
  rfl

@[simp] theorem b2_and (x y : UInt32) : b2 (x &&& y) = b2 x &&& b2 y := by
  rw [b2, UInt32.shiftRight_and, UInt32.toUInt8_and]
  rfl

@[simp] theorem b3_and (x y : UInt32) : b3 (x &&& y) = b3 x &&& b3 y := by
  rw [b3, UInt32.shiftRight_and, UInt32.toUInt8_and]
  rfl

/-- Words with the same bytes are equal. -/
theorem word_ext {x y : UInt32} (h₃ : b3 x = b3 y) (h₂ : b2 x = b2 y) (h₁ : b1 x = b1 y)
    (h₀ : b0 x = b0 y) : x = y := by
  rw [← be32_b x, h₃, h₂, h₁, h₀, be32_b]

/-- A word is masked for one of its bytes. -/
theorem and_mask (x : UInt32) : x &&& 0xff000000 = be32 (b3 x) 0 0 0 ∧
    x &&& 0x00ff0000 = be32 0 (b2 x) 0 0 ∧ x &&& 0x0000ff00 = be32 0 0 (b1 x) 0 ∧
      x &&& 0x000000ff = be32 0 0 0 (b0 x) := by
  have hff : ∀ a : UInt8, a &&& 0xff = a := fun a => UInt8.and_neg_one
  have h3 : (0xff000000 : UInt32) = be32 0xff 0 0 0 := rfl
  have h2 : (0x00ff0000 : UInt32) = be32 0 0xff 0 0 := rfl
  have h1 : (0x0000ff00 : UInt32) = be32 0 0 0xff 0 := rfl
  have h0 : (0x000000ff : UInt32) = be32 0 0 0 0xff := rfl
  refine ⟨?_, ?_, ?_, ?_⟩
  · rw [h3]
    apply word_ext <;> simp [hff]
  · rw [h2]
    apply word_ext <;> simp [hff]
  · rw [h1]
    apply word_ext <;> simp [hff]
  · rw [h0]
    apply word_ext <;> simp [hff]

/-- Exclusive or works on each byte. -/
theorem be32_xor (a b c d a' b' c' d' : UInt8) :
    be32 a b c d ^^^ be32 a' b' c' d' = be32 (a ^^^ a') (b ^^^ b') (c ^^^ c') (d ^^^ d') := by
  apply word_ext <;> simp

/-- Bytes that are put at their places with exclusive or. -/
theorem be32_eq_xor (a b c d : UInt8) :
    (a.toUInt32 <<< 24) ^^^ (b.toUInt32 <<< 16) ^^^ (c.toUInt32 <<< 8) ^^^ d.toUInt32 =
      be32 a b c d := by
  have hplace : ∀ x : UInt8, x.toUInt32 <<< 24 = be32 x 0 0 0 ∧ x.toUInt32 <<< 16 = be32 0 x 0 0 ∧
      x.toUInt32 <<< 8 = be32 0 0 x 0 ∧ x.toUInt32 = be32 0 0 0 x := by
    intro x
    simp [be32]
  rw [(hplace a).1, (hplace b).2.1, (hplace c).2.2.1, (hplace d).2.2.2]
  simp [be32_xor]

/-! ### Words of a buffer -/

theorem le32At_eq (p : List UInt8) (i : ℕ) :
    le32At p i = be32 (p.getD (i + 3) 0) (p.getD (i + 2) 0) (p.getD (i + 1) 0) (p.getD i 0) :=
  le32_eq_be32 ..

/-- The bytes of a word of a buffer. -/
theorem leBytes32_le32At (p : List UInt8) (i : ℕ) : leBytes32 (le32At p i) = slice p i 4 := by
  rw [le32At_eq, leBytes32_eq]
  simp [slice, List.range_succ]

/-- The bytes of a word of a buffer, the highest first. -/
theorem bytes32_be32At (p : List UInt8) (i : ℕ) : bytes32 (be32At p i) = slice p i 4 := by
  rw [be32At, bytes32_eq]
  simp [slice, List.range_succ]

theorem le32At_leBytes32 (v : UInt32) (y : List UInt8) : le32At (leBytes32 v ++ y) 0 = v := by
  rw [le32At_eq, leBytes32_eq]
  simp

theorem leBytes32_xor (x y : UInt32) :
    leBytes32 (x ^^^ y) = xorBytes (leBytes32 x) (leBytes32 y) := by
  simp [leBytes32_eq, xorBytes]

theorem bytes32_xor (x y : UInt32) : bytes32 (x ^^^ y) = xorBytes (bytes32 x) (bytes32 y) := by
  simp [bytes32_eq, xorBytes]

@[simp] theorem length_leBytes32 (v : UInt32) : (leBytes32 v).length = 4 := rfl

/-! ### Tables -/

/-- **What holds of the 256 bytes holds of every byte.** -/
theorem forall_byte {p : UInt8 → Bool}
    (h : (List.range 256).all (fun i => p (UInt8.ofNat i)) = true) (x : UInt8) : p x = true := by
  have hx := List.all_eq_true.mp h x.toNat (List.mem_range.mpr x.toNat_lt)
  rwa [UInt8.ofNat_toNat] at hx

variable {α : Type*} [Inhabited α]

/-- The entry of a table for a byte. -/
def look (t : List α) (x : UInt8) : α := t.getD x.toNat default

/-- A table whose entries are made from those of another one. -/
theorem look_map {β : Type*} [Inhabited β] {t : List α} (h : t.length = 256) (f : α → β)
    (x : UInt8) : look (t.map f) x = f (look t x) := by
  have hx : x.toNat < 256 := x.toNat_lt
  simp [look, List.getD_eq_getElem?_getD, h, hx]

/-- The table with the values of a function. -/
def table (f : UInt8 → α) : List α := (List.range 256).map fun i => f (UInt8.ofNat i)

@[simp] theorem look_table (f : UInt8 → α) (x : UInt8) : look (table f) x = f x := by
  have hx : x.toNat < 256 := x.toNat_lt
  simp [look, table, List.getD_eq_getElem?_getD, hx]

end Bytes
