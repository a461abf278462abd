import N2nTun.Curve25519Prime
import N2nTun.Lib.Montgomery

/-!
# What `curve25519` computes

`mainloop` is the ladder of the curve `y² = x³ + 486662 x² + x`, with the numbers modulo the prime,
and `recip` divides.  The bytes of the result are those of the `x`-coordinate.

## Main definitions

* `bitsOf` — the bits of the multiplier in the order of the loop.
* `pointOf` — the `x`-coordinate that the bytes of a point stand for.

## Main results

* `mainloop_spec` — the loop is the ladder.
* `recip_spec` — the chain of squarings and multiplications inverts.
* `bytesValue_curve25519` — the result in terms of the ladder.
* `curve25519_multiple` — **the result is the `x`-coordinate of the multiple of the point.**
* `curve25519_swap` — **multipliers may be exchanged.**
-/

namespace N2n.Curve25519

open Montgomery

/-! ### One pass -/

/-- The fraction that two arrays stand for. -/
def residues (f : Fraction) : ZMod prime × ZMod prime := (value f.1, value f.2)

/-- Both arrays are such that they can be added and subtracted. -/
structure Small (f : Fraction) : Prop where
  num : Within 128 f.1
  den : Within 128 f.2

theorem selectWords_one {r s : Number} (hr : r.length = 32) (hs : s.length = 32) :
    selectWords r s 1 = (s, r) := by
  unfold selectWords
  rw [show (1 : UInt32) - 1 = 0 from rfl]
  simp only [UInt32.zero_and, UInt32.xor_zero, map_word hr, map_word hs]

theorem selectWords_zero {r s : Number} (hr : r.length = 32) (hs : s.length = 32) :
    selectWords r s 0 = (r, s) := by
  have hones : ∀ x : UInt32, (0 - 1 : UInt32) &&& x = x := fun x =>
    UInt32.and_comm _ _ ▸ UInt32.and_neg_one
  have hback : ∀ x y : UInt32, x ^^^ (y ^^^ x) = y := fun x y => by
    rw [UInt32.xor_comm y, ← UInt32.xor_assoc, UInt32.xor_self, UInt32.zero_xor]
  have hback' : ∀ x y : UInt32, x ^^^ (x ^^^ y) = y := fun x y => by
    rw [← UInt32.xor_assoc, UInt32.xor_self, UInt32.zero_xor]
  unfold selectWords
  simp only [hones, hback, hback', map_word hr, map_word hs]

theorem Small.select_one {r s : Fraction} (hr : Small r) (hs : Small s) :
    select r s 1 = (s, r) := by
  unfold select
  rw [selectWords_one hr.num.length hs.num.length, selectWords_one hr.den.length hs.den.length]

theorem Small.select_zero {r s : Fraction} (hr : Small r) (hs : Small s) :
    select r s 0 = (r, s) := by
  unfold select
  rw [selectWords_zero hr.num.length hs.num.length, selectWords_zero hr.den.length hs.den.length]

/-- A sum and a difference, modulo the prime. -/
theorem add_sub_spec {a b : Number} (ha : Within 128 a) (hb : Within 128 b) :
    Within 511 (add a b) ∧ Within 511 (sub a b) ∧
      (value (add a b) : ZMod prime) = value a + value b ∧
      (value (sub a b) : ZMod prime) = value a - value b := by
  obtain ⟨hadd, hadd'⟩ := add_spec ha hb
  obtain ⟨hsub, hsub'⟩ := sub_spec ha hb
  refine ⟨hadd.mono (by decide), hsub, by rw [hadd']; push_cast; rfl, ?_⟩
  have hcast := congrArg (Nat.cast : ℕ → ZMod prime) hsub'
  push_cast at hcast
  rw [ZMod.natCast_self] at hcast
  linear_combination hcast

/-- The bit as a boolean. -/
def bitSet (e : List UInt8) (pos : ℕ) : Bool := bitOf e pos == 1

theorem bitOf_eq (e : List UInt8) (pos : ℕ) : bitOf e pos = if bitSet e pos then 1 else 0 := by
  have hbit : ∀ x : UInt8, (x &&& 1).toUInt32 = 0 ∨ (x &&& 1).toUInt32 = 1 := by
    intro x
    have hx : (x &&& 1).toUInt32.toNat = x.toNat % 2 := by
      rw [UInt8.toNat_toUInt32, UInt8.toNat_and]
      exact Nat.and_one_is_mod _
    rcases Nat.mod_two_eq_zero_or_one x.toNat with h0 | h1
    · exact Or.inl (UInt32.toNat_inj.mp (hx.trans h0))
    · exact Or.inr (UInt32.toNat_inj.mp (hx.trans h1))
  unfold bitSet
  rcases hbit (e.getD (pos / 8) 0 >>> UInt8.ofNat (pos % 8)) with h | h
  · rw [show bitOf e pos = 0 from h]
    rfl
  · rw [show bitOf e pos = 1 from h]
    rfl

/-- **The sums and products** are a doubling and an addition. -/
theorem doubleAdd_spec {work : Number} (hwork : Within 511 work) {p q : Fraction} (hp : Small p)
    (hq : Small q) :
    (Small (doubleAdd work p q).1 ∧ Small (doubleAdd work p q).2) ∧
      residues (doubleAdd work p q).1 = double 121665 (residues p) ∧
      residues (doubleAdd work p q).2 =
        addDiff (value work : ZMod prime) (residues p) (residues q) := by
  obtain ⟨ha0, ha0', ea0, ea0'⟩ := add_sub_spec hp.num hp.den
  obtain ⟨ha1, ha1', ea1, ea1'⟩ := add_sub_spec hq.num hq.den
  obtain ⟨hb0, eb0⟩ := square_spec ha0
  obtain ⟨hb0', eb0'⟩ := square_spec ha0'
  obtain ⟨hb1, eb1⟩ := mult_spec ha1 ha0'
  obtain ⟨hb1', eb1'⟩ := mult_spec ha1' ha0
  obtain ⟨hc1, hc1', ec1, ec1'⟩ := add_sub_spec hb1 hb1'
  obtain ⟨hr, er⟩ := square_spec hc1'
  obtain ⟨-, hs, -, es⟩ := add_sub_spec hb0 hb0'
  obtain ⟨ht, et⟩ := mult121665_spec hs
  obtain ⟨hu, -, eu, -⟩ := add_sub_spec ht hb0
  obtain ⟨hx, ex⟩ := mult_spec (hb0.mono (by decide)) (hb0'.mono (by decide) : Within 511 _)
  obtain ⟨hz, ez⟩ := mult_spec hs hu
  obtain ⟨hx', ex'⟩ := square_spec hc1
  obtain ⟨hz', ez'⟩ := mult_spec (hr.mono (by decide)) hwork
  refine ⟨⟨⟨hx, hz⟩, ⟨hx', hz'⟩⟩, Prod.ext ?_ ?_, Prod.ext ?_ ?_⟩
  · refine ex.trans ?_
    rw [eb0, eb0', ea0, ea0']
    rfl
  · refine ez.trans ?_
    rw [eu, et, es, eb0, eb0', ea0, ea0']
    rfl
  · refine ex'.trans ?_
    rw [ec1, eb1, eb1', ea0, ea0', ea1, ea1']
    rfl
  · refine ez'.trans ?_
    rw [er, ec1', eb1, eb1', ea0, ea0', ea1, ea1']
    rfl

/-- **One pass of the loop** is one step of the ladder. -/
theorem mainstep_spec {work : Number} (hwork : Within 128 work) (e : List UInt8)
    {s : Fraction × Fraction} (hs : Small s.1) (hs' : Small s.2) (pos : ℕ) :
    (Small (mainstep work e s pos).1 ∧ Small (mainstep work e s pos).2) ∧
      (residues (mainstep work e s pos).1, residues (mainstep work e s pos).2) =
        ladderStep (121665 : ZMod prime) (value work) (residues s.1, residues s.2)
          (bitSet e pos) := by
  have hwork' : Within 511 work := hwork.mono (by decide)
  unfold mainstep
  dsimp only
  rw [bitOf_eq]
  cases bitSet e pos with
  | false =>
    obtain ⟨⟨hb, hb'⟩, eb, eb'⟩ := doubleAdd_spec hwork' hs hs'
    rw [if_neg Bool.false_ne_true, hs.select_zero hs', hb.select_zero hb']
    exact ⟨⟨hb, hb'⟩, Prod.ext eb eb'⟩
  | true =>
    obtain ⟨⟨hb, hb'⟩, eb, eb'⟩ := doubleAdd_spec hwork' hs' hs
    rw [if_pos rfl, hs.select_one hs', hb.select_one hb']
    exact ⟨⟨hb', hb⟩, Prod.ext eb' eb⟩

/-- **The passes of the loop** are the steps of the ladder. -/
theorem foldl_mainstep_spec {work : Number} (hwork : Within 128 work) (e : List UInt8)
    (ps : List ℕ) {s : Fraction × Fraction}
    (hs : s = ps.foldl (mainstep work e) ((one, zero), (work, one))) :
    (Small s.1 ∧ Small s.2) ∧ (residues s.1, residues s.2) =
      ladder (121665 : ZMod prime) (value work) (ps.map (bitSet e)) := by
  induction ps using List.reverseRecOn generalizing s with
  | nil =>
    have hone : Within 128 one := ⟨rfl, by decide, by decide⟩
    have hzero : Within 128 zero := ⟨rfl, by decide, by decide⟩
    have eone : value one = 1 := by decide
    have ezero : value zero = 0 := by decide
    rw [hs]
    refine ⟨⟨⟨hone, hzero⟩, ⟨hwork, hone⟩⟩, ?_⟩
    simp [residues, eone, ezero, ladder]
  | append_singleton ps pos ih =>
    rw [List.foldl_append, List.foldl_cons, List.foldl_nil] at hs
    obtain ⟨⟨hx, hx'⟩, heq⟩ := ih rfl
    have hstep := mainstep_spec hwork e hx hx' pos
    rw [List.map_append, List.map_cons, List.map_nil, ladder_append_singleton, ← heq, hs]
    exact hstep

/-- The bits of the multiplier in the order of the loop. -/
def bitsOf (e : List UInt8) : List Bool := (List.range 255).reverse.map (bitSet e)

/-- **`mainloop` is the ladder.** -/
theorem mainloop_spec {work : Number} (hwork : Within 128 work) (e : List UInt8) :
    Small (mainloop work e) ∧
      residues (mainloop work e) = (ladder (121665 : ZMod prime) (value work) (bitsOf e)).1 := by
  unfold mainloop bitsOf
  generalize hs : (List.range 255).reverse.foldl (mainstep work e) ((one, zero), (work, one)) = s
  obtain ⟨⟨hsmall, -⟩, heq⟩ := foldl_mainstep_spec hwork e _ hs.symm
  rw [← heq]
  exact ⟨hsmall, rfl⟩

/-! ### The inverse -/

/-- The array stands for a power of `z`. -/
structure IsPow (z : Number) (n : ℕ) (t : Number) : Prop where
  within : Within 128 t
  value : (value t : ZMod prime) = value z ^ n

section

variable {z s t : Number} {n m : ℕ}

theorem IsPow.square (h : IsPow z n t) : IsPow z (n * 2) (square t) := by
  obtain ⟨hwithin, hvalue⟩ := square_spec (h.within.mono (by decide))
  exact ⟨hwithin, by rw [hvalue, h.value, pow_mul]⟩

theorem IsPow.mult (h : IsPow z n t) (h' : IsPow z m s) : IsPow z (n + m) (mult t s) := by
  obtain ⟨hwithin, hvalue⟩ := mult_spec (h.within.mono (by decide)) (h'.within.mono (by decide))
  exact ⟨hwithin, by rw [hvalue, h.value, h'.value, pow_add]⟩

theorem IsPow.squareTwice (h : IsPow z n t) (k : ℕ) : IsPow z (n * 4 ^ k) (squareTwice k t) := by
  induction k generalizing n t with
  | zero => simpa [Curve25519.squareTwice] using h
  | succ k ih =>
    have hstep := ih h.square.square
    rwa [mul_assoc, mul_assoc, show 2 * (2 * 4 ^ k) = 4 ^ (k + 1) by rw [pow_succ]; ring] at hstep

end

/-- **`recip` inverts**, and takes 0 to 0. -/
theorem recip_spec {z : Number} (hz : Within 128 z) :
    Within 128 (recip z) ∧ (value (recip z) : ZMod prime) = (value z : ZMod prime)⁻¹ := by
  have h1 : IsPow z 1 z := ⟨hz, (pow_one _).symm⟩
  have h2 : IsPow z 2 _ := h1.square
  have h9 : IsPow z 9 _ := h2.square.square.mult h1
  have h11 : IsPow z 11 _ := h9.mult h2
  have h5_0 : IsPow z (2 ^ 5 - 1) _ := h11.square.mult h9
  have h10_0 : IsPow z (2 ^ 10 - 1) _ := h5_0.square.square.square.square.square.mult h5_0
  have h20_0 : IsPow z (2 ^ 20 - 1) _ := (h10_0.square.square.squareTwice 4).mult h10_0
  have h40_0 : IsPow z (2 ^ 40 - 1) _ := (h20_0.square.square.squareTwice 9).mult h20_0
  have h50_0 : IsPow z (2 ^ 50 - 1) _ := (h40_0.square.square.squareTwice 4).mult h10_0
  have h100_0 : IsPow z (2 ^ 100 - 1) _ := (h50_0.square.square.squareTwice 24).mult h50_0
  have h200_0 : IsPow z (2 ^ 200 - 1) _ := (h100_0.square.square.squareTwice 49).mult h100_0
  have h250_0 : IsPow z (2 ^ 250 - 1) _ := (h200_0.square.square.squareTwice 24).mult h50_0
  have hlast : IsPow z (2 ^ 255 - 21) _ :=
    h250_0.square.square.square.square.square.mult h11
  refine ⟨hlast.within, ?_⟩
  rw [← pow_eq_inv]
  exact hlast.value

/-! ### Bytes -/

theorem sum_bytes (p : List UInt8) (n : ℕ) :
    ∑ j ∈ Finset.range n, (p.getD j 0).toNat * 256 ^ j = bytesValue (p.take n) := by
  induction n generalizing p with
  | zero => rfl
  | succ n ih =>
    cases p with
    | nil => simp [bytesValue]
    | cons b p =>
      rw [Finset.sum_range_succ', List.take_succ_cons, bytesValue, List.map_cons,
        Nat.ofDigits_cons, ← bytesValue, ← ih p, Finset.mul_sum]
      simp only [List.getD_cons_succ, List.getD_cons_zero, pow_zero, mul_one, pow_succ]
      rw [add_comm]
      congr 1
      exact Finset.sum_congr rfl fun j _ => by ring

/-- The `x`-coordinate that the bytes of a point stand for. -/
def pointOf (p : List UInt8) : ZMod prime := (bytesValue (p.take 32) % 2 ^ 255 : ℕ)

theorem workOf_spec (p : List UInt8) :
    Within 128 (workOf p) ∧ value (workOf p) = bytesValue (p.take 32) % 2 ^ 255 := by
  have hlen : (workOf p).length = 32 := by simp [workOf]
  have hword : ∀ j < 31, (word (workOf p) j).toNat = (p.getD j 0).toNat := by
    intro j hj
    rw [word, List.getD_eq_getElem _ _ (by omega)]
    simp [workOf, show ¬ 31 = j by omega]
  have htop : (word (workOf p) 31).toNat = (p.getD 31 0).toNat % 128 := by
    rw [word, List.getD_eq_getElem _ _ (by omega)]
    simp only [workOf, List.getElem_modify, if_true, List.getElem_map, List.getElem_range,
      UInt32.toNat_and, UInt8.toNat_toUInt32]
    exact Nat.and_two_pow_sub_one_eq_mod _ 7
  have hwithin : Within 128 (workOf p) := by
    refine ⟨hlen, fun j hj => ?_, ?_⟩
    · rw [hword j hj]
      exact (p.getD j 0).toNat_lt
    · rw [htop]
      omega
  refine ⟨hwithin, ?_⟩
  have hsum := sum_bytes p 32
  rw [Finset.sum_range_succ] at hsum
  have hlow := hwithin.low_lt
  rw [value_eq_sum hlen, htop, ← hsum]
  rw [Finset.sum_congr rfl fun j hj => by rw [hword j (Finset.mem_range.mp hj)]] at hlow ⊢
  omega

theorem bit_toUInt32 (b : UInt8) {r : ℕ} (hr : r < 8) :
    (((b >>> UInt8.ofNat r) &&& 1).toUInt32 == 1) = b.toNat.testBit r := by
  have hbit : ((b >>> UInt8.ofNat r) &&& 1).toUInt32.toNat = b.toNat / 2 ^ r % 2 := by
    have hr' : r % 2 ^ 8 % 8 = r := by omega
    rw [UInt8.toNat_toUInt32, UInt8.toNat_and, UInt8.toNat_shiftRight, UInt8.toNat_ofNat', hr',
      Nat.shiftRight_eq_div_pow]
    exact Nat.and_one_is_mod _
  rw [Nat.testBit_eq_decide_div_mod_eq, ← hbit, Bool.eq_iff_iff, beq_iff_eq, decide_eq_true_iff,
    ← UInt32.toNat_inj]
  rfl

/-- The bits of the bytes are those of the number. -/
theorem bitSet_eq (e : List UInt8) (pos : ℕ) : bitSet e pos = (bytesValue e).testBit pos := by
  induction e generalizing pos with
  | nil => simp [bitSet, bitOf, bytesValue]
  | cons b e ih =>
    have hvalue : bytesValue (b :: e) = 2 ^ 8 * bytesValue e + b.toNat := by
      rw [bytesValue, List.map_cons, Nat.ofDigits_cons, add_comm]
      rfl
    rw [hvalue, Nat.testBit_two_pow_mul_add _ b.toNat_lt]
    by_cases hpos : pos < 8
    · rw [if_pos hpos, bitSet, bitOf, Nat.div_eq_of_lt hpos, List.getD_cons_zero,
        bit_toUInt32 b (Nat.mod_lt _ (by decide)), Nat.mod_eq_of_lt hpos]
    · rw [if_neg hpos, ← ih, bitSet, bitSet, bitOf, bitOf,
        show pos / 8 = (pos - 8) / 8 + 1 by omega, List.getD_cons_succ, show pos % 8 = (pos - 8) % 8 by omega]

theorem length_clamp (n : List UInt8) : (clamp n).length = 32 := by
  simp [clamp]

theorem bytesValue_clamp_lt (n : List UInt8) : bytesValue (clamp n) < 2 ^ 255 := by
  have hlen := length_clamp n
  have hsum := sum_bytes (clamp n) 32
  rw [List.take_of_length_le hlen.le, Finset.sum_range_succ] at hsum
  have htop : ((clamp n).getD 31 0).toNat < 128 := by
    rw [List.getD_eq_getElem _ _ (by omega)]
    simp only [clamp, List.getElem_modify, if_true, UInt8.toNat_or]
    refine Nat.or_lt_two_pow (n := 7) ?_ (by decide)
    rw [UInt8.toNat_and]
    exact Nat.and_lt_two_pow _ (by decide)
  have hlow : ∑ j ∈ Finset.range 31, ((clamp n).getD j 0).toNat * 256 ^ j < 256 ^ 31 := by
    rw [sum_bytes]
    have hlt := Nat.ofDigits_lt_base_pow_length (b := 256)
      (l := ((clamp n).take 31).map UInt8.toNat) (by decide) (by
        intro x hx
        obtain ⟨w, -, rfl⟩ := List.mem_map.mp hx
        exact w.toNat_lt)
    rwa [List.length_map, List.length_take, hlen] at hlt
  omega

/-- The bits of the multiplier in the order of the loop. -/
theorem ofBits_bitsOf (n : List UInt8) : ofBits (bitsOf (clamp n)) = bytesValue (clamp n) := by
  have hbits : bitsOf (clamp n) =
      (List.range 255).reverse.map (bytesValue (clamp n)).testBit :=
    List.map_congr_left fun pos _ => bitSet_eq _ pos
  rw [hbits, ofBits_testBit, Nat.mod_eq_of_lt (bytesValue_clamp_lt n)]

/-! ### The whole function -/

theorem length_curve25519 (n p : List UInt8) : (curve25519 n p).length = 32 := by
  simp [curve25519, freeze]

/-- **The result in terms of the ladder.** -/
theorem bytesValue_curve25519 (n p : List UInt8) :
    bytesValue (curve25519 n p) =
      (mulX (121665 : ZMod prime) (pointOf p) (bitsOf (clamp n))).val := by
  obtain ⟨hwork, ework⟩ := workOf_spec p
  obtain ⟨hsmall, hladder⟩ := mainloop_spec hwork (clamp n)
  obtain ⟨hz, ez⟩ := recip_spec hsmall.den
  obtain ⟨hx, ex⟩ := mult_spec (hsmall.num.mono (by decide)) (hz.mono (by decide) : Within 511 _)
  unfold curve25519
  dsimp only
  rw [bytesValue_freeze hx, ← ZMod.val_natCast, ex, ez, mulX, div_eq_mul_inv, pointOf, ← ework,
    ← hladder]
  rfl

theorem bytesValue_lt (n p : List UInt8) : bytesValue (curve25519 n p) < prime := by
  rw [bytesValue_curve25519]
  exact ZMod.val_lt _

/-- The result is a point again, the one that its bytes stand for. -/
theorem pointOf_curve25519 (n p : List UInt8) :
    pointOf (curve25519 n p) = mulX (121665 : ZMod prime) (pointOf p) (bitsOf (clamp n)) := by
  have hlt := bytesValue_lt n p
  have hprime : prime = 2 ^ 255 - 19 := rfl
  rw [pointOf, List.take_of_length_le (length_curve25519 n p).le, Nat.mod_eq_of_lt (by omega),
    bytesValue_curve25519, ZMod.natCast_zmod_val]

/-- **The result is the `x`-coordinate of the multiple of the point**, on the curve or on its twist:
one of them has a point with the `x`-coordinate that is given. -/
theorem curve25519_multiple (p : List UInt8) :
    ∃ C : MontgomeryCurve (ZMod prime), C.A = 486662 ∧ ∃ P : C.toAffine.Point,
      C.xCoord P = pointOf p ∧
      ∀ n, bytesValue (curve25519 n p) = (C.xCoord (bytesValue (clamp n) • P)).val := by
  obtain ⟨C, hA, P, hP⟩ := MontgomeryCurve.exists_point two_ne_zero noRoot (pointOf p)
  refine ⟨C, hA, P, hP, fun n => ?_⟩
  have ha : 4 * (121665 : ZMod prime) = C.A - 2 := by
    rw [hA]
    norm_num
  rw [bytesValue_curve25519, ← hP, mulX, MontgomeryCurve.ladder_eq ha, ofBits_bitsOf]

/-- The bytes are determined by the number. -/
theorem eq_of_bytesValue {p q : List UInt8} (hlen : p.length = q.length)
    (h : bytesValue p = bytesValue q) : p = q := by
  have hlt : ∀ l : List UInt8, ∀ d ∈ l.map UInt8.toNat, d < 256 := fun l d hd => by
    obtain ⟨b, -, rfl⟩ := List.mem_map.mp hd
    exact b.toNat_lt
  have hmap : p.map UInt8.toNat = q.map UInt8.toNat :=
    Nat.ofDigits_inj_of_len_eq (by norm_num : 1 < 256) (by simpa using hlen) (hlt p) (hlt q) h
  exact List.map_injective_iff.mpr (fun _ _ => UInt8.toNat.inj) hmap

/-- The multiplications by two multipliers exchange. -/
theorem curve25519_swap (n m p : List UInt8) :
    curve25519 n (curve25519 m p) = curve25519 m (curve25519 n p) := by
  have ha : 4 * (121665 : ZMod prime) = 486662 - 2 := by norm_num
  refine eq_of_bytesValue (by rw [length_curve25519, length_curve25519]) ?_
  rw [bytesValue_curve25519, bytesValue_curve25519, pointOf_curve25519, pointOf_curve25519,
    mulX_comm ha two_ne_zero noRoot]

end N2n.Curve25519
