import Mathlib.Tactic
import N2nTun.Lib.Rounds
import N2nTun.Lib.Word32

/-!
# The Advanced Encryption Standard

The cipher as the standard states it: bytes are multiplied in the field with 256 elements, the S-box
is an inverse and an affine map, a state has four columns of four bytes, and a round substitutes
the bytes, shifts the rows, mixes the columns and adds a key.

A column is a word whose highest byte is in the first row.

## Main definitions

* `mul`, `Sbox` — the field and the S-box.
* `State`, `State.sub`, `State.shift`, `State.mix`, `State.add` — the steps, and their inverses.
* `cipher`, `invCipher`, `eqInvCipher` — the cipher, its inverse, and the inverse with the keys mixed
  beforehand.
* `keyWord`, `roundKey` — the expanded key.

## Main results

* `mixColumn_xor` — the columns are mixed linearly.
* `invMixColumn_mixColumn` — mixing is undone.
* `invCipher_cipher` — **the inverse cipher undoes the cipher.**
* `eqInvCipher_eq` — **with the keys mixed beforehand it is the same.**
-/

namespace Rijndael

open Bytes

/-! ### The field -/

/-- The product with the polynomial `x`. -/
def xtime (a : UInt8) : UInt8 := (a <<< 1) ^^^ (a >>> 7) * 0x1b

/-- The products with the lowest `n` bits of `a`. -/
def mulBits : ℕ → ℕ → UInt8 → UInt8
  | 0, _, _ => 0
  | n + 1, a, b => (if a % 2 = 1 then b else 0) ^^^ mulBits n (a / 2) (xtime b)

/-- The product in the field. -/
def mul (a b : UInt8) : UInt8 := mulBits 8 a.toNat b

theorem shiftRight_seven (a : UInt8) : a >>> 7 = 0 ∨ a >>> 7 = 1 := by
  have hbit := forall_byte (p := fun a => a >>> 7 == 0 || a >>> 7 == 1) (by decide +kernel) a
  simpa using hbit

/-- **The product with `x` is linear.** -/
theorem xtime_xor (a b : UInt8) : xtime (a ^^^ b) = xtime a ^^^ xtime b := by
  have hcarry : (a >>> 7 ^^^ b >>> 7) * (0x1b : UInt8) =
      (a >>> 7) * (0x1b : UInt8) ^^^ (b >>> 7) * (0x1b : UInt8) := by
    rcases shiftRight_seven a with ha | ha <;> rcases shiftRight_seven b with hb | hb <;>
      simp [ha, hb]
  rw [xtime, UInt8.shiftLeft_xor, UInt8.shiftRight_xor, hcarry, xtime, xtime, UInt8.xor_assoc,
    UInt8.xor_assoc, ← UInt8.xor_assoc (b <<< 1), UInt8.xor_comm (b <<< 1), UInt8.xor_assoc]

theorem xor_xor_xor_comm (a b c d : UInt8) : a ^^^ b ^^^ (c ^^^ d) = a ^^^ c ^^^ (b ^^^ d) := by
  rw [UInt8.xor_assoc, ← UInt8.xor_assoc b, UInt8.xor_comm b, UInt8.xor_assoc, ← UInt8.xor_assoc]

theorem mulBits_xor (n a : ℕ) (b c : UInt8) :
    mulBits n a (b ^^^ c) = mulBits n a b ^^^ mulBits n a c := by
  induction n generalizing a b c with
  | zero => simp [mulBits]
  | succ n ih =>
    rw [mulBits, mulBits, mulBits, xtime_xor, ih, xor_xor_xor_comm]
    split_ifs with hbit
    · rfl
    · simp

/-- **A product is linear in its second factor.** -/
theorem mul_xor (a b c : UInt8) : mul a (b ^^^ c) = mul a b ^^^ mul a c := mulBits_xor 8 a.toNat b c

@[simp] theorem mul_zero (a : UInt8) : mul a 0 = 0 := by
  have hzero := mul_xor a 0 0
  rw [UInt8.xor_self, UInt8.xor_self] at hzero
  exact hzero

/-! ### The S-box -/

/-- A byte is rotated to the left. -/
def rotl (x k : UInt8) : UInt8 := (x <<< k) ||| (x >>> (8 - k))

/-- The affine map of the S-box, undone. -/
def unaffine (x : UInt8) : UInt8 := rotl x 1 ^^^ rotl x 3 ^^^ rotl x 6 ^^^ 0x05

/-- The S-box: an affine map after the inverse of a byte, which of zero is zero; and its inverse. -/
structure Sbox where
  sub : UInt8 → UInt8
  invSub : UInt8 → UInt8
  zero : unaffine (sub 0) = 0
  inverse : ∀ x, x ≠ 0 → mul x (unaffine (sub x)) = 1
  invSub_sub : ∀ x, invSub (sub x) = x

/-! ### Columns -/

/-- A function is applied to each byte of a word. -/
def onBytes (f : UInt8 → UInt8) (c : UInt32) : UInt32 :=
  be32 (f (b3 c)) (f (b2 c)) (f (b1 c)) (f (b0 c))

/-- A column is multiplied with a circulant matrix, whose first row is given. -/
def circulant (m₀ m₁ m₂ m₃ : UInt8) (c : UInt32) : UInt32 :=
  be32 (mul m₀ (b3 c) ^^^ mul m₁ (b2 c) ^^^ (mul m₂ (b1 c) ^^^ mul m₃ (b0 c)))
    (mul m₃ (b3 c) ^^^ mul m₀ (b2 c) ^^^ (mul m₁ (b1 c) ^^^ mul m₂ (b0 c)))
    (mul m₂ (b3 c) ^^^ mul m₃ (b2 c) ^^^ (mul m₀ (b1 c) ^^^ mul m₁ (b0 c)))
    (mul m₁ (b3 c) ^^^ mul m₂ (b2 c) ^^^ (mul m₃ (b1 c) ^^^ mul m₀ (b0 c)))

/-- The bytes of a word go round. -/
def rotWord (c : UInt32) : UInt32 := be32 (b2 c) (b1 c) (b0 c) (b3 c)

/-- A column is mixed. -/
def mixColumn (c : UInt32) : UInt32 := circulant 2 3 1 1 c

/-- The inverse of that. -/
def invMixColumn (c : UInt32) : UInt32 := circulant 14 11 13 9 c

/-- **A matrix acts linearly.** -/
theorem circulant_xor (m₀ m₁ m₂ m₃ : UInt8) (c d : UInt32) :
    circulant m₀ m₁ m₂ m₃ (c ^^^ d) = circulant m₀ m₁ m₂ m₃ c ^^^ circulant m₀ m₁ m₂ m₃ d := by
  have hrow : ∀ a b c d a' b' c' d' : UInt8, a ^^^ a' ^^^ (b ^^^ b') ^^^ (c ^^^ c' ^^^ (d ^^^ d')) =
      a ^^^ b ^^^ (c ^^^ d) ^^^ (a' ^^^ b' ^^^ (c' ^^^ d')) := by
    intro a b c d a' b' c' d'
    rw [xor_xor_xor_comm a a', xor_xor_xor_comm c c', xor_xor_xor_comm (a ^^^ b)]
  simp only [circulant, b3_xor, b2_xor, b1_xor, b0_xor, mul_xor, be32_xor, hrow]

theorem mixColumn_xor (c d : UInt32) : mixColumn (c ^^^ d) = mixColumn c ^^^ mixColumn d :=
  circulant_xor ..

theorem invMixColumn_xor (c d : UInt32) :
    invMixColumn (c ^^^ d) = invMixColumn c ^^^ invMixColumn d := circulant_xor ..

/-- A word is the sum of its bytes at their places. -/
theorem be32_sum (a b c d : UInt8) :
    be32 a b c d = be32 a 0 0 0 ^^^ be32 0 b 0 0 ^^^ (be32 0 0 c 0 ^^^ be32 0 0 0 d) := by
  simp [be32_xor]

/-- What is linear is known from its values on single bytes. -/
theorem linear_be32 {f : UInt32 → UInt32} (hf : ∀ c d, f (c ^^^ d) = f c ^^^ f d)
    (a b c d : UInt8) : f (be32 a b c d) =
      f (be32 a 0 0 0) ^^^ f (be32 0 b 0 0) ^^^ (f (be32 0 0 c 0) ^^^ f (be32 0 0 0 d)) := by
  rw [be32_sum, hf, hf, hf]

/-- The products that the matrices need, by doubling. -/
theorem mul_consts (x : UInt8) :
    (mul 1 x = x ∧ mul 2 x = xtime x ∧ mul 3 x = x ^^^ xtime x) ∧
      (mul 9 x = x ^^^ xtime (xtime (xtime x)) ∧
        mul 11 x = x ^^^ (xtime x ^^^ xtime (xtime (xtime x)))) ∧
      mul 13 x = x ^^^ (xtime (xtime x) ^^^ xtime (xtime (xtime x))) ∧
      mul 14 x = xtime x ^^^ (xtime (xtime x) ^^^ xtime (xtime (xtime x))) := by
  simp [mul, mulBits]

@[simp] theorem mul_one_left (x : UInt8) : mul 1 x = x := (mul_consts x).1.1

/-- The products of the two matrices, on a byte. -/
theorem circulant_products (x : UInt8) :
    mul 14 (mul 2 x) ^^^ mul 11 x ^^^ (mul 13 x ^^^ mul 9 (mul 3 x)) = x ∧
      mul 9 (mul 2 x) ^^^ mul 14 x ^^^ (mul 11 x ^^^ mul 13 (mul 3 x)) = 0 ∧
      mul 13 (mul 2 x) ^^^ mul 9 x ^^^ (mul 14 x ^^^ mul 11 (mul 3 x)) = 0 ∧
      mul 11 (mul 2 x) ^^^ mul 13 x ^^^ (mul 9 x ^^^ mul 14 (mul 3 x)) = 0 := by
  have hleft : ∀ a b c : UInt8, a ^^^ (b ^^^ c) = b ^^^ (a ^^^ c) := fun a b c => by
    rw [← UInt8.xor_assoc, UInt8.xor_comm a, UInt8.xor_assoc]
  have hself : ∀ a b : UInt8, a ^^^ (a ^^^ b) = b := fun a b => by
    rw [← UInt8.xor_assoc, UInt8.xor_self, UInt8.zero_xor]
  simp only [mul_consts, xtime_xor]
  -- what is left are sums of repeated doubles that cancel in pairs
  generalize xtime x = x₁
  generalize xtime x₁ = x₂
  generalize xtime x₂ = x₃
  generalize xtime x₃ = x₄
  refine ⟨?_, ?_, ?_, ?_⟩ <;> simp [UInt8.xor_comm, hleft, hself]

/-- A circulant matrix does not see where the column starts. -/
theorem circulant_rotWord (m₀ m₁ m₂ m₃ : UInt8) (c : UInt32) :
    circulant m₀ m₁ m₂ m₃ (rotWord c) = rotWord (circulant m₀ m₁ m₂ m₃ c) := by
  have hrow : ∀ a b c d : UInt8, a ^^^ b ^^^ (c ^^^ d) = d ^^^ a ^^^ (b ^^^ c) := by
    intro a b c d
    rw [← UInt8.xor_assoc, UInt8.xor_comm _ d, UInt8.xor_assoc a b c, ← UInt8.xor_assoc d]
  simp only [circulant, rotWord, b3_be32, b2_be32, b1_be32, b0_be32]
  rw [hrow (mul m₀ (b2 c)), hrow (mul m₃ (b2 c)), hrow (mul m₂ (b2 c)), hrow (mul m₁ (b2 c))]

/-- Mixing is undone on a byte in the first row. -/
theorem invMixColumn_first (x : UInt8) :
    invMixColumn (mixColumn (be32 x 0 0 0)) = be32 x 0 0 0 := by
  obtain ⟨h0, h1, h2, h3⟩ := circulant_products x
  simp [mixColumn, invMixColumn, circulant, h0, h1, h2, h3]

/-- **Mixing a column is undone.** -/
@[simp] theorem invMixColumn_mixColumn (c : UInt32) : invMixColumn (mixColumn c) = c := by
  have hrot : ∀ c, invMixColumn (mixColumn c) = c →
      invMixColumn (mixColumn (rotWord c)) = rotWord c := by
    intro c hc
    rw [mixColumn, circulant_rotWord, invMixColumn, circulant_rotWord]
    exact congrArg rotWord hc
  have h₀ : ∀ x, invMixColumn (mixColumn (be32 0 0 0 x)) = be32 0 0 0 x := fun x => by
    simpa [rotWord] using hrot _ (invMixColumn_first x)
  have h₁ : ∀ x, invMixColumn (mixColumn (be32 0 0 x 0)) = be32 0 0 x 0 := fun x => by
    simpa [rotWord] using hrot _ (h₀ x)
  have h₂ : ∀ x, invMixColumn (mixColumn (be32 0 x 0 0)) = be32 0 x 0 0 := fun x => by
    simpa [rotWord] using hrot _ (h₁ x)
  have hlinear := linear_be32 (f := fun c => invMixColumn (mixColumn c))
    (fun c d => by rw [mixColumn_xor, invMixColumn_xor]) (b3 c) (b2 c) (b1 c) (b0 c)
  rwa [invMixColumn_first, h₂, h₁, h₀, ← be32_sum, be32_b] at hlinear

/-! ### States -/

/-- The four columns of a state. -/
structure State where
  c0 : UInt32
  c1 : UInt32
  c2 : UInt32
  c3 : UInt32
  deriving DecidableEq

namespace State

/-- A function is applied to each column. -/
def map (f : UInt32 → UInt32) (s : State) : State := ⟨f s.c0, f s.c1, f s.c2, f s.c3⟩

/-- A key is added. -/
def add (s k : State) : State := ⟨s.c0 ^^^ k.c0, s.c1 ^^^ k.c1, s.c2 ^^^ k.c2, s.c3 ^^^ k.c3⟩

/-- The bytes are substituted. -/
def sub (f : UInt8 → UInt8) (s : State) : State := s.map (onBytes f)

/-- The rows are shifted. -/
def shift (s : State) : State :=
  ⟨be32 (b3 s.c0) (b2 s.c1) (b1 s.c2) (b0 s.c3), be32 (b3 s.c1) (b2 s.c2) (b1 s.c3) (b0 s.c0),
    be32 (b3 s.c2) (b2 s.c3) (b1 s.c0) (b0 s.c1), be32 (b3 s.c3) (b2 s.c0) (b1 s.c1) (b0 s.c2)⟩

/-- The rows are shifted back. -/
def invShift (s : State) : State :=
  ⟨be32 (b3 s.c0) (b2 s.c3) (b1 s.c2) (b0 s.c1), be32 (b3 s.c1) (b2 s.c0) (b1 s.c3) (b0 s.c2),
    be32 (b3 s.c2) (b2 s.c1) (b1 s.c0) (b0 s.c3), be32 (b3 s.c3) (b2 s.c2) (b1 s.c1) (b0 s.c0)⟩

/-- The columns are mixed. -/
def mix (s : State) : State := s.map mixColumn

/-- The inverse of that. -/
def invMix (s : State) : State := s.map invMixColumn

@[simp] theorem add_add (s k : State) : (s.add k).add k = s := by
  simp [add, UInt32.xor_assoc]

@[simp] theorem invMix_mix (s : State) : s.mix.invMix = s := by
  simp [mix, invMix, map]

theorem invMix_add (s k : State) : (s.add k).invMix = s.invMix.add k.invMix := by
  simp [invMix, add, map, invMixColumn_xor]

@[simp] theorem invShift_shift (s : State) : s.shift.invShift = s := by
  simp [shift, invShift]

theorem sub_sub {f g : UInt8 → UInt8} (h : ∀ x, g (f x) = x) (s : State) :
    (s.sub f).sub g = s := by
  simp [sub, map, onBytes, h]

/-- The bytes may be substituted before or after the rows are shifted. -/
theorem sub_shift (f : UInt8 → UInt8) (s : State) : s.shift.sub f = (s.sub f).shift := by
  simp [sub, map, onBytes, shift]

theorem sub_invShift (f : UInt8 → UInt8) (s : State) : s.invShift.sub f = (s.sub f).invShift := by
  simp [sub, map, onBytes, invShift]

end State

/-! ### The cipher -/

section

variable (S : Sbox) (nr : ℕ) (w : ℕ → State)

/-- A round, with the key of its number. -/
def round (r : ℕ) (s : State) : State := (s.sub S.sub).shift.mix.add (w r)

/-- The rounds but the first and the last one. -/
def middle : List ℕ := List.range' 1 (nr - 1)

/-- The cipher with `nr` rounds. -/
def cipher (s : State) : State :=
  ((Rounds.run (round S w) (middle nr) (s.add (w 0))).sub S.sub).shift.add (w nr)

/-- A round of the inverse cipher. -/
def invRound (r : ℕ) (s : State) : State := ((s.invShift.sub S.invSub).add (w r)).invMix

/-- The inverse cipher. -/
def invCipher (s : State) : State :=
  ((Rounds.run (invRound S w) (middle nr).reverse (s.add (w nr))).invShift.sub S.invSub).add (w 0)

/-- A round of the inverse cipher with its key mixed beforehand. -/
def eqInvRound (dw : ℕ → State) (r : ℕ) (s : State) : State :=
  (s.sub S.invSub).invShift.invMix.add (dw r)

/-- The inverse cipher with the keys `dw` in the order of their use, those in the middle mixed. -/
def eqInvCipher (dw : ℕ → State) (s : State) : State :=
  ((Rounds.run (eqInvRound S dw) (middle nr) (s.add (dw 0))).sub S.invSub).invShift.add (dw nr)

/-- The cipher knows its round keys only up to the last one. -/
theorem cipher_congr {nr : ℕ} {w w' : ℕ → State} (h : ∀ r ≤ nr, w r = w' r) (s : State) :
    cipher S nr w s = cipher S nr w' s := by
  have hround : ∀ r ∈ middle nr, round S w r = round S w' r := by
    intro r hr
    rw [middle, List.mem_range'_1] at hr
    funext s
    rw [round, round, h r (by omega)]
  rw [cipher, cipher, h 0 (Nat.zero_le _), h nr le_rfl, Rounds.run_congr hround]

/-- **The inverse cipher undoes the cipher.** -/
theorem invCipher_cipher (s : State) : invCipher S nr w (cipher S nr w s) = s := by
  -- between the rounds: after the rows are shifted
  let f (r : ℕ) (s : State) : State := ((s.mix.add (w r)).sub S.sub).shift
  have hundo : ∀ r s, invRound S w r (f r s) = s := by
    intro r s
    simp [invRound, f, State.sub_sub S.invSub_sub]
  have hshifted : ∀ (rs : List ℕ) (s : State), ((Rounds.run (round S w) rs s).sub S.sub).shift =
      Rounds.run f rs (s.sub S.sub).shift := by
    intro rs
    induction rs with
    | nil => intro s; rfl
    | cons r rs ih =>
      intro s
      rw [Rounds.run_cons, ih, Rounds.run_cons, round]
  have hmiddle := Rounds.run_reverse hundo (middle nr) ((s.add (w 0)).sub S.sub).shift
  rw [invCipher, cipher, State.add_add _ (w nr), hshifted, hmiddle, State.invShift_shift,
    State.sub_sub S.invSub_sub, State.add_add]

/-- **With the keys mixed beforehand it is the same.** -/
theorem eqInvCipher_eq {nr : ℕ} {dw : ℕ → State} (hnr : 0 < nr) (hfirst : dw 0 = w nr)
    (hlast : dw nr = w 0) (hmid : ∀ r, 0 < r → r < nr → dw r = (w (nr - r)).invMix) (s : State) :
    eqInvCipher S nr dw s = invCipher S nr w s := by
  have hround : ∀ r, 0 < r → r < nr → ∀ s, eqInvRound S dw r s = invRound S w (nr - r) s := by
    intro r h h' s
    rw [eqInvRound, invRound, hmid r h h', State.invMix_add, State.sub_invShift]
  have hrev : (middle nr).reverse = (middle nr).map (nr - ·) := by
    apply List.ext_getElem
    · simp [middle]
    · intro k h₁ h₂
      simp only [middle, List.length_reverse, List.length_range'] at h₁
      simp [middle, List.getElem_reverse, List.getElem_range']
      omega
  have hrun : ∀ (rs : List ℕ), (∀ r ∈ rs, 0 < r ∧ r < nr) → ∀ s,
      Rounds.run (eqInvRound S dw) rs s = Rounds.run (invRound S w) (rs.map (nr - ·)) s := by
    intro rs
    induction rs with
    | nil => intro _ s; rfl
    | cons r rs ih =>
      intro hmem s
      obtain ⟨h, h'⟩ := hmem r List.mem_cons_self
      rw [Rounds.run_cons, hround r h h', List.map_cons, Rounds.run_cons,
        ih fun r hr => hmem r (List.mem_cons_of_mem _ hr)]
  rw [eqInvCipher, invCipher, hfirst, hlast, hrev, State.sub_invShift, hrun]
  intro r hr
  rw [middle, List.mem_range'_1] at hr
  omega

end

/-! ### The expanded key -/

section

variable (S : Sbox) (key : ℕ → UInt32) (nk : ℕ)

/-- The word with the constant of a round: the powers of `x` in the first row. -/
def rconWord (j : ℕ) : UInt32 := be32 (xtime^[j - 1] 1) 0 0 0

/-- What the word before becomes before it is added. -/
def keyTemp (i : ℕ) (t : UInt32) : UInt32 :=
  if i % nk = 0 then onBytes S.sub (rotWord t) ^^^ rconWord (i / nk)
  else if 6 < nk ∧ i % nk = 4 then onBytes S.sub t
  else t

/-- The words of the expanded key, for a key of `nk` words. -/
def keyWord (i : ℕ) : UInt32 :=
  if i < nk ∨ nk = 0 then key i
  else keyWord (i - nk) ^^^ keyTemp S nk i (keyWord (i - 1))
  termination_by i
  decreasing_by all_goals omega

variable {nk} {i : ℕ}

theorem keyWord_of_lt (h : i < nk) : keyWord S key nk i = key i := by
  rw [keyWord, if_pos (Or.inl h)]

theorem keyWord_of_le (hnk : 0 < nk) (h : nk ≤ i) : keyWord S key nk i =
    keyWord S key nk (i - nk) ^^^ keyTemp S nk i (keyWord S key nk (i - 1)) := by
  rw [keyWord, if_neg (by omega)]

variable (nk) in
/-- The key of a round. -/
def roundKey (r : ℕ) : State :=
  ⟨keyWord S key nk (4 * r), keyWord S key nk (4 * r + 1), keyWord S key nk (4 * r + 2),
    keyWord S key nk (4 * r + 3)⟩

end

end Rijndael
