import Mathlib.AlgebraicGeometry.EllipticCurve.Affine.Point
import Mathlib.Tactic.LinearCombination

/-!
# Multiples of a point from its `x`-coordinate

A Montgomery curve is `d y² = x³ + A x² + x`.  The factor `d` tells the twists apart: every `x` is
the coordinate of a point for some `d`, and the `x`-coordinates of the multiples of a point can be
computed without `d` and `y`.  The curve is looked at in the Weierstrass form that the coordinates
`d x` and `d² y` satisfy, so that the group is the one of Weierstrass curves.

## Main definitions

* `MontgomeryCurve` — the coefficients, with what makes all points nonsingular.
* `MontgomeryCurve.xCoord` — the `x`-coordinate of a point, which is 0 for the point at infinity.
* `Montgomery.double`, `Montgomery.addDiff`, `Montgomery.ladder` — the computation with fractions.

## Main results

* `Represents.double`, `Represents.addDiff` — one doubling, and one addition of two points whose
  difference is known.
* `MontgomeryCurve.ladder_eq` — **the ladder computes the `x`-coordinate of the multiple.**
* `MontgomeryCurve.exists_point` — every field element is the `x`-coordinate of a point of a twist.
-/

open WeierstrassCurve.Affine

/-! ### The computation -/

namespace Montgomery

variable {F : Type*} [Field F]

/-- A doubling of the fraction `p`; `a` is the fourth of `A - 2`. -/
def double (a : F) (p : F × F) : F × F :=
  let s := (p.1 + p.2) ^ 2 - (p.1 - p.2) ^ 2
  ((p.1 + p.2) ^ 2 * (p.1 - p.2) ^ 2, s * (a * s + (p.1 + p.2) ^ 2))

/-- The addition of the fractions `p` and `q`; `x` is the `x`-coordinate of the difference. -/
def addDiff (x : F) (p q : F × F) : F × F :=
  let b := (q.1 + q.2) * (p.1 - p.2)
  let b' := (q.1 - q.2) * (p.1 + p.2)
  ((b + b') ^ 2, (b - b') ^ 2 * x)

theorem addDiff_eq (x X Z X' Z' : F) : addDiff x (X, Z) (X', Z') =
    (4 * (X * X' - Z * Z') ^ 2, 4 * (X * Z' - X' * Z) ^ 2 * x) := by
  simp only [addDiff, Prod.mk.injEq]
  constructor <;> ring

/-- One bit of the multiplier. -/
def ladderStep (a x : F) (s : (F × F) × F × F) (bit : Bool) : (F × F) × F × F :=
  if bit then (addDiff x s.2 s.1, double a s.2) else (double a s.1, addDiff x s.1 s.2)

/-- The ladder over the bits of the multiplier, the highest first. -/
def ladder (a x : F) (bits : List Bool) : (F × F) × F × F :=
  bits.foldl (ladderStep a x) ((1, 0), (x, 1))

/-- The number with these bits. -/
def ofBits (bits : List Bool) : ℕ := bits.foldl (fun n bit => 2 * n + bit.toNat) 0

theorem ofBits_append_singleton (bits : List Bool) (bit : Bool) :
    ofBits (bits ++ [bit]) = 2 * ofBits bits + bit.toNat := by
  simp [ofBits]

theorem ofBits_cons (bit : Bool) (bits : List Bool) :
    ofBits (bit :: bits) = 2 ^ bits.length * bit.toNat + ofBits bits := by
  induction bits using List.reverseRecOn with
  | nil => simp [ofBits]
  | append_singleton bits bit' ih =>
    rw [← List.cons_append, ofBits_append_singleton, ih, ofBits_append_singleton,
      List.length_append, List.length_singleton, pow_succ]
    ring

/-- The bits of a number, the highest first. -/
theorem ofBits_testBit (n k : ℕ) : ofBits ((List.range k).reverse.map n.testBit) = n % 2 ^ k := by
  induction k with
  | zero => simp [ofBits, Nat.mod_one]
  | succ k ih =>
    rw [List.range_succ, List.reverse_append, List.reverse_singleton, List.singleton_append,
      List.map_cons, ofBits_cons, ih, Nat.toNat_testBit, Nat.mod_pow_succ]
    simp [add_comm]

theorem ladder_append_singleton (a x : F) (bits : List Bool) (bit : Bool) :
    ladder a x (bits ++ [bit]) = ladderStep a x (ladder a x bits) bit := by
  simp [ladder]

/-- From 0 the ladder does not get away: one part of each fraction stays 0. -/
theorem ladder_zero (a : F) (bits : List Bool) :
    (ladder a 0 bits).1.1 * (ladder a 0 bits).1.2 = 0 ∧
      (ladder a 0 bits).2.1 * (ladder a 0 bits).2.2 = 0 := by
  induction bits using List.reverseRecOn with
  | nil => simp [ladder]
  | append_singleton bits bit ih =>
    obtain ⟨hlow, hhigh⟩ := ih
    have hdouble : ∀ p : F × F, p.1 * p.2 = 0 → (double a p).1 * (double a p).2 = 0 := by
      intro p hp
      have hs : (p.1 + p.2) ^ 2 - (p.1 - p.2) ^ 2 = 0 := by linear_combination 4 * hp
      simp only [double, hs, zero_mul, mul_zero]
    have hadd : ∀ p q : F × F, (addDiff 0 p q).1 * (addDiff 0 p q).2 = 0 := by
      intro p q
      simp only [addDiff, mul_zero]
    rw [ladder_append_singleton]
    cases bit with
    | false => exact ⟨hdouble _ hlow, hadd _ _⟩
    | true => exact ⟨hadd _ _, hdouble _ hhigh⟩

end Montgomery

/-! ### The curve -/

/-- The coefficients of `d y² = x³ + A x² + x`. -/
structure MontgomeryCurve (F : Type*) [Field F] where
  A : F
  d : F
  two_ne_zero : (2 : F) ≠ 0
  d_ne_zero : d ≠ 0
  noRoot : ∀ x, x ^ 2 + A * x + 1 ≠ 0

namespace MontgomeryCurve

open Montgomery

variable {F : Type*} [Field F] (C : MontgomeryCurve F)

/-- The Weierstrass form: `y² = x³ + d A x² + d² x`. -/
def toAffine : WeierstrassCurve.Affine F := ⟨0, C.d * C.A, 0, C.d ^ 2, 0⟩

@[simp] theorem toAffine_a₁ : C.toAffine.a₁ = 0 := rfl

@[simp] theorem toAffine_a₂ : C.toAffine.a₂ = C.d * C.A := rfl

@[simp] theorem toAffine_a₃ : C.toAffine.a₃ = 0 := rfl

@[simp] theorem toAffine_a₄ : C.toAffine.a₄ = C.d ^ 2 := rfl

@[simp] theorem toAffine_a₆ : C.toAffine.a₆ = 0 := rfl

@[simp] theorem negY_eq (x y : F) : C.toAffine.negY x y = -y := by
  simp [negY]

theorem equation_iff (x y : F) :
    C.toAffine.Equation x y ↔ y ^ 2 = x ^ 3 + C.d * C.A * x ^ 2 + C.d ^ 2 * x := by
  simp [WeierstrassCurve.Affine.equation_iff]

variable {C}

/-- The right side has no root but 0. -/
theorem quadratic_ne_zero (x : F) : x ^ 2 + C.d * C.A * x + C.d ^ 2 ≠ 0 := by
  intro h
  have hd := C.d_ne_zero
  apply C.noRoot (x / C.d)
  field_simp
  linear_combination h

/-- The point with `y = 0` is the one with `x = 0`. -/
theorem x_eq_zero {x : F} (h : C.toAffine.Equation x 0) : x = 0 := by
  rw [equation_iff] at h
  have hmul : x * (x ^ 2 + C.d * C.A * x + C.d ^ 2) = 0 := by linear_combination -h
  exact (mul_eq_zero.mp hmul).resolve_right (quadratic_ne_zero x)

theorem four_ne_zero : (4 : F) ≠ 0 ↔ (2 : F) ≠ 0 := by
  rw [show (4 : F) = 2 * 2 by norm_num, mul_self_ne_zero]

theorem eq_neg_iff (h2 : (2 : F) ≠ 0) {y : F} : y = -y ↔ y = 0 := by
  constructor
  · intro h
    have hmul : 2 * y = 0 := by linear_combination h
    exact (mul_eq_zero.mp hmul).resolve_left h2
  · rintro rfl
    exact neg_zero.symm

/-- No point is singular. -/
theorem nonsingular {x y : F} (h : C.toAffine.Equation x y) : C.toAffine.Nonsingular x y := by
  refine (nonsingular_iff x y).mpr ⟨h, ?_⟩
  by_cases hy : y = 0
  · subst hy
    left
    simpa [x_eq_zero h] using (pow_ne_zero 2 C.d_ne_zero).symm
  · right
    simpa using mt (eq_neg_iff C.two_ne_zero).mp hy

variable (C) in
/-- The `x`-coordinate, for the point at infinity 0. -/
def xCoord : C.toAffine.Point → F
  | .zero => 0
  | .some x _ _ => x / C.d

/-- The fraction `p` stands for the `x`-coordinate; the point at infinity has denominator 0. -/
def Represents (p : F × F) : C.toAffine.Point → Prop
  | .zero => p.1 ≠ 0 ∧ p.2 = 0
  | .some x _ _ => p.2 ≠ 0 ∧ p.1 * C.d = x * p.2

theorem Represents.xCoord {p : F × F} {P : C.toAffine.Point} (h : Represents p P) :
    C.xCoord P = p.1 / p.2 := by
  cases P with
  | zero => rw [h.2, div_zero]; rfl
  | some x y hP => exact (div_eq_div_iff C.d_ne_zero h.1).mpr h.2.symm

@[simp] theorem xCoord_neg (P : C.toAffine.Point) : C.xCoord (-P) = C.xCoord P := by
  cases P with
  | zero => rfl
  | some x y hP => rfl

theorem Represents.xCoord_some {ξ Z x y : F} {hP : C.toAffine.Nonsingular x y}
    (h : Represents (ξ * Z, Z) (.some x y hP)) : C.xCoord (.some x y hP) = ξ := by
  rw [h.xCoord]
  exact mul_div_cancel_right₀ _ h.1

theorem Represents.neg {p : F × F} {P : C.toAffine.Point} (h : Represents p P) :
    Represents p (-P) := by
  cases P with
  | zero => exact h
  | some x y hP => exact h

/-- A fraction for a point at a finite distance. -/
theorem represents_some {X Z x y : F} {hP : C.toAffine.Nonsingular x y} :
    Represents (X, Z) (.some x y hP) ↔ Z ≠ 0 ∧ ∃ ξ, x = C.d * ξ ∧ X = ξ * Z := by
  have hd := C.d_ne_zero
  constructor
  · rintro ⟨hz, heq⟩
    refine ⟨hz, x / C.d, by field_simp, ?_⟩
    field_simp
    exact heq
  · rintro ⟨hz, ξ, rfl, rfl⟩
    exact ⟨hz, by ring⟩

/-! ### The `x`-coordinates of sums -/

/-- One of the points is the point at infinity: the other is the difference, or its inverse. -/
theorem Represents.addDiff_zero {q : F × F} {Q : C.toAffine.Point} (hq : Represents q Q) {X x : F}
    (hX : X ≠ 0) (hx : C.xCoord Q = x) (hne : x ≠ 0) :
    Represents (addDiff x (X, 0) q) Q ∧ Represents (addDiff x q (X, 0)) Q := by
  have h4 := four_ne_zero.mpr C.two_ne_zero
  obtain ⟨X', Z'⟩ := q
  cases Q with
  | zero => exact absurd hx.symm hne
  | some x' y' hQ =>
    obtain ⟨hZ', ξ', rfl, rfl⟩ := represents_some.mp hq
    rw [hq.xCoord_some] at hx
    subst hx
    rw [addDiff_eq, addDiff_eq]
    constructor <;> refine represents_some.mpr ⟨?_, ξ', rfl, by ring⟩ <;>
      simpa [h4, hX, hZ'] using hne

section

variable [DecidableEq F]

/-- The `x`-coordinate of a double. -/
theorem addX_self {ξ y : F} (h : C.toAffine.Equation (C.d * ξ) y) (hy : y ≠ 0) :
    C.toAffine.addX (C.d * ξ) (C.d * ξ) (C.toAffine.slope (C.d * ξ) (C.d * ξ) y y) * (4 * y ^ 2) =
      C.d ^ 4 * (ξ ^ 2 - 1) ^ 2 := by
  have hne : y ≠ C.toAffine.negY (C.d * ξ) y := by
    rw [negY_eq]
    exact mt (eq_neg_iff C.two_ne_zero).mp hy
  have hslope : C.toAffine.slope (C.d * ξ) (C.d * ξ) y y * (2 * y) =
      3 * (C.d * ξ) ^ 2 + 2 * (C.d * C.A) * (C.d * ξ) + C.d ^ 2 := by
    rw [slope_of_Y_ne rfl hne, negY_eq, sub_neg_eq_add, ← two_mul,
      div_mul_cancel₀ _ (mul_ne_zero C.two_ne_zero hy)]
    simp
  rw [equation_iff] at h
  generalize C.toAffine.slope (C.d * ξ) (C.d * ξ) y y = ℓ at hslope
  simp only [addX, toAffine_a₁, toAffine_a₂]
  linear_combination (ℓ * (2 * y) + 3 * (C.d * ξ) ^ 2 + 2 * (C.d * C.A) * (C.d * ξ) + C.d ^ 2) *
    hslope - 4 * (C.d * C.A + 2 * (C.d * ξ)) * h

/-- The `x`-coordinates of a sum and a difference. -/
theorem addX_mul_addX {x x' y y' : F} (h : C.toAffine.Equation x y)
    (h' : C.toAffine.Equation x' y') (hne : x ≠ x') :
    C.toAffine.addX x x' (C.toAffine.slope x x' y y') *
      C.toAffine.addX x x' (C.toAffine.slope x x' y (-y')) * (x - x') ^ 2 =
      (x * x' - C.d ^ 2) ^ 2 := by
  have hsub : x - x' ≠ 0 := sub_ne_zero.mpr hne
  have hplus : C.toAffine.slope x x' y y' * (x - x') = y - y' := by
    rw [slope_of_X_ne hne, div_mul_cancel₀ _ hsub]
  have hminus : C.toAffine.slope x x' y (-y') * (x - x') = y + y' := by
    rw [slope_of_X_ne hne, div_mul_cancel₀ _ hsub, sub_neg_eq_add]
  rw [equation_iff] at h h'
  generalize C.toAffine.slope x x' y y' = ℓ at hplus
  generalize C.toAffine.slope x x' y (-y') = ℓ' at hminus
  apply mul_right_cancel₀ (pow_ne_zero 2 hsub)
  -- both sums over the common denominator
  have hsum : C.toAffine.addX x x' ℓ * (x - x') ^ 2 =
      (y - y') ^ 2 - (C.d * C.A + x + x') * (x - x') ^ 2 := by
    simp only [addX, toAffine_a₁, toAffine_a₂]
    linear_combination (ℓ * (x - x') + y - y') * hplus
  have hdiff : C.toAffine.addX x x' ℓ' * (x - x') ^ 2 =
      (y + y') ^ 2 - (C.d * C.A + x + x') * (x - x') ^ 2 := by
    simp only [addX, toAffine_a₁, toAffine_a₂]
    linear_combination (ℓ' * (x - x') + y + y') * hminus
  calc C.toAffine.addX x x' ℓ * C.toAffine.addX x x' ℓ' * (x - x') ^ 2 * (x - x') ^ 2
      = (C.toAffine.addX x x' ℓ * (x - x') ^ 2) * (C.toAffine.addX x x' ℓ' * (x - x') ^ 2) := by
        ring
    _ = (x * x' - C.d ^ 2) ^ 2 * (x - x') ^ 2 := by
        rw [hsum, hdiff]
        linear_combination (y ^ 2 - 2 * y' ^ 2 + (x ^ 3 + C.d * C.A * x ^ 2 + C.d ^ 2 * x) -
          2 * (C.d * C.A + x + x') * (x - x') ^ 2) * h +
          (y' ^ 2 + (x' ^ 3 + C.d * C.A * x' ^ 2 + C.d ^ 2 * x') -
          2 * (C.d * C.A + x + x') * (x - x') ^ 2 -
          2 * (x ^ 3 + C.d * C.A * x ^ 2 + C.d ^ 2 * x)) * h'

/-- The points have different `x`-coordinates. -/
theorem addDiff_ne {ξ ξ' Z Z' x y y' : F} (hP : C.toAffine.Nonsingular (C.d * ξ) y)
    (hQ : C.toAffine.Nonsingular (C.d * ξ') y') (hZ : Z ≠ 0) (hZ' : Z' ≠ 0) (hξ : ξ ≠ ξ')
    (hx : C.xCoord (Point.some _ y hP - Point.some _ y' hQ) = x) (hne : x ≠ 0) :
    Represents (addDiff x (ξ * Z, Z) (ξ' * Z', Z')) (Point.some _ y hP + Point.some _ y' hQ) := by
  have hd := C.d_ne_zero
  have hx' : C.d * ξ ≠ C.d * ξ' := fun h => hξ (mul_left_cancel₀ hd h)
  have hsums := addX_mul_addX hP.1 hQ.1 hx'
  rw [sub_eq_add_neg, Point.neg_some, Point.add_of_X_ne hx'] at hx
  change C.toAffine.addX _ _ (C.toAffine.slope _ _ y (C.toAffine.negY _ y')) / C.d = x at hx
  rw [negY_eq, div_eq_iff hd] at hx
  rw [Point.add_of_X_ne hx', addDiff_eq]
  refine ⟨?_, ?_⟩
  · have hsub : ξ * Z * Z' - ξ' * Z' * Z ≠ 0 := by
      rw [show ξ * Z * Z' - ξ' * Z' * Z = (ξ - ξ') * (Z * Z') by ring]
      exact mul_ne_zero (sub_ne_zero.mpr hξ) (mul_ne_zero hZ hZ')
    exact mul_ne_zero (mul_ne_zero (four_ne_zero.mpr C.two_ne_zero) (pow_ne_zero 2 hsub)) hne
  · rw [hx] at hsums
    generalize C.toAffine.addX (C.d * ξ) (C.d * ξ')
      (C.toAffine.slope (C.d * ξ) (C.d * ξ') y y') = X at hsums ⊢
    apply mul_right_cancel₀ (pow_ne_zero 3 hd)
    linear_combination -4 * Z ^ 2 * Z' ^ 2 * hsums

/-! ### One step -/

section

variable {a : F} (ha : 4 * a = C.A - 2)

include ha

/-- **A doubling.** -/
theorem Represents.double {p : F × F} {P : C.toAffine.Point} (h : Represents p P) :
    Represents (double a p) (P + P) := by
  obtain ⟨X, Z⟩ := p
  cases P with
  | zero =>
    obtain ⟨hX, rfl⟩ := h
    refine ⟨?_, ?_⟩
    · simpa [Montgomery.double] using hX
    · simp [Montgomery.double]
  | some x y hP =>
    obtain ⟨hZ, ξ, rfl, rfl⟩ := represents_some.mp h
    have hd := C.d_ne_zero
    have heq := (C.equation_iff _ y).mp hP.1
    have hden : (Montgomery.double a (ξ * Z, Z)).2 * C.d ^ 3 = 4 * y ^ 2 * Z ^ 4 := by
      simp only [Montgomery.double]
      linear_combination 4 * C.d ^ 3 * ξ ^ 2 * Z ^ 4 * ha - 4 * Z ^ 4 * heq
    have hnum : (Montgomery.double a (ξ * Z, Z)).1 = (ξ ^ 2 - 1) ^ 2 * Z ^ 4 := by
      simp only [Montgomery.double]
      ring
    by_cases hy : y = 0
    · -- the double is the point at infinity
      subst hy
      have hξ : ξ = 0 := (mul_eq_zero.mp (x_eq_zero hP.1)).resolve_left hd
      rw [Point.add_self_of_Y_eq (by simp)]
      refine ⟨?_, ?_⟩
      · rw [hnum, hξ]
        simpa using hZ
      · simpa [hd] using hden
    · have hne : y ≠ C.toAffine.negY (C.d * ξ) y := by
        rw [negY_eq]
        exact mt (eq_neg_iff C.two_ne_zero).mp hy
      have hx := addX_self hP.1 hy
      rw [Point.add_self_of_Y_ne hne]
      refine ⟨?_, ?_⟩
      · intro h0
        rw [h0, zero_mul] at hden
        exact mul_ne_zero (mul_ne_zero (four_ne_zero.mpr C.two_ne_zero) (pow_ne_zero 2 hy))
          (pow_ne_zero 4 hZ) hden.symm
      · apply mul_right_cancel₀ (pow_ne_zero 3 hd)
        rw [mul_assoc (addX _ _ _ _), hden, hnum]
        linear_combination -Z ^ 4 * hx

/-- The points are inverse to each other. -/
theorem addDiff_neg {ξ Z Z' x y : F} (hP : C.toAffine.Nonsingular (C.d * ξ) y) (hZ : Z ≠ 0)
    (hZ' : Z' ≠ 0) (hx : C.xCoord (Point.some _ y hP + Point.some _ y hP) = x) (hne : x ≠ 0) :
    Represents (C := C) (addDiff x (ξ * Z, Z) (ξ * Z', Z')) 0 := by
  have hdouble : Represents (Montgomery.double a (ξ * Z, Z))
      (Point.some _ y hP + Point.some _ y hP) :=
    (represents_some.mpr ⟨hZ, ξ, rfl, rfl⟩ : Represents (ξ * Z, Z) (.some _ y hP)).double ha
  have hnum : (Montgomery.double a (ξ * Z, Z)).1 = (ξ ^ 2 - 1) ^ 2 * Z ^ 4 := by
    simp only [Montgomery.double]
    ring
  rw [hdouble.xCoord, hnum] at hx
  rw [addDiff_eq]
  refine ⟨?_, by ring⟩
  intro h0
  have hξ : ξ ^ 2 - 1 = 0 := by
    have hprod : ξ * Z * (ξ * Z') - Z * Z' = 0 := by
      simpa [four_ne_zero.mpr C.two_ne_zero] using h0
    apply mul_right_cancel₀ (mul_ne_zero hZ hZ')
    linear_combination hprod
  rw [hξ] at hx
  exact hne (by simpa using hx.symm)

/-- **An addition**, when the difference of the points has the `x`-coordinate `x`. -/
theorem Represents.addDiff {p q : F × F} {P Q : C.toAffine.Point} (hp : Represents p P)
    (hq : Represents q Q) {x : F} (hx : C.xCoord (P - Q) = x) (hne : x ≠ 0) :
    Represents (addDiff x p q) (P + Q) := by
  obtain ⟨X, Z⟩ := p
  obtain ⟨X', Z'⟩ := q
  match P, Q, hp, hq, hx with
  | .zero, Q, ⟨hX, hZ⟩, hq, hx =>
    dsimp only at hX hZ
    subst hZ
    rw [← Point.zero_def, zero_sub, xCoord_neg] at hx
    rw [← Point.zero_def, zero_add]
    exact (hq.addDiff_zero hX hx hne).1
  | P, .zero, hp, ⟨hX', hZ'⟩, hx =>
    dsimp only at hX' hZ'
    subst hZ'
    rw [← Point.zero_def, sub_zero] at hx
    rw [← Point.zero_def, add_zero]
    exact (hp.addDiff_zero hX' hx hne).2
  | .some x₁ y hP, .some x₂ y' hQ, hp, hq, hx =>
    obtain ⟨hZ, ξ, rfl, rfl⟩ := represents_some.mp hp
    obtain ⟨hZ', ξ', rfl, rfl⟩ := represents_some.mp hq
    by_cases hξ : ξ = ξ'
    · subst hξ
      have hsame : Point.some _ y hP = Point.some _ y' hQ ∨
          Point.some _ y hP = -Point.some _ y' hQ := Point.X_eq_iff.mp rfl
      rcases hsame with heq | heq
      · -- the difference would be the point at infinity
        rw [heq, sub_self] at hx
        exact absurd hx.symm hne
      · rw [← neg_eq_iff_eq_neg.mpr heq, sub_neg_eq_add] at hx
        rw [heq, neg_add_cancel]
        exact addDiff_neg ha hP hZ hZ' hx hne
    · exact addDiff_ne hP hQ hZ hZ' hξ hx hne

/-! ### The ladder -/

/-- **The ladder** keeps two multiples that follow each other. -/
theorem ladder_represents {P : C.toAffine.Point} (hne : C.xCoord P ≠ 0) (bits : List Bool) :
    Represents (ladder a (C.xCoord P) bits).1 (ofBits bits • P) ∧
      Represents (ladder a (C.xCoord P) bits).2 ((ofBits bits + 1) • P) := by
  induction bits using List.reverseRecOn with
  | nil =>
    refine ⟨?_, ?_⟩
    · rw [show ofBits [] = 0 from rfl, zero_smul]
      exact ⟨one_ne_zero, rfl⟩
    · rw [show ofBits [] + 1 = 1 from rfl, one_smul]
      cases P with
      | zero => exact absurd rfl hne
      | some x y hP =>
        have hx : x / C.d * C.d = x * 1 := by rw [div_mul_cancel₀ x C.d_ne_zero, mul_one]
        exact ⟨one_ne_zero, hx⟩
  | append_singleton bits bit ih =>
    obtain ⟨hlow, hhigh⟩ := ih
    rw [ladder_append_singleton, ofBits_append_singleton]
    generalize ofBits bits = n at hlow hhigh
    have hdiff : (n + 1) • P - n • P = P := by rw [add_smul, one_smul, add_sub_cancel_left]
    have hdiff' : n • P - (n + 1) • P = -P := by rw [← neg_sub, hdiff]
    cases bit with
    | false =>
      refine ⟨?_, ?_⟩
      · rw [show 2 * n + false.toNat = n + n by simp [two_mul], add_smul]
        exact hlow.double ha
      · rw [show 2 * n + false.toNat + 1 = n + (n + 1) by simp [two_mul, add_assoc], add_smul n]
        exact hlow.addDiff ha hhigh (by rw [hdiff', xCoord_neg]) hne
    | true =>
      refine ⟨?_, ?_⟩
      · rw [show 2 * n + true.toNat = n + 1 + n by simp; omega, add_smul (n + 1)]
        exact hhigh.addDiff ha hlow (by rw [hdiff]) hne
      · rw [show 2 * n + true.toNat + 1 = n + 1 + (n + 1) by simp; omega, add_smul (n + 1) (n + 1)]
        exact hhigh.double ha

end

/-- A point with `x`-coordinate 0 is its own inverse. -/
theorem add_self_eq_zero {P : C.toAffine.Point} (h : C.xCoord P = 0) : P + P = 0 := by
  cases P with
  | zero => rfl
  | some x y hP =>
    have hx : x = 0 := (div_eq_zero_iff.mp h).resolve_right C.d_ne_zero
    have hy : y ^ 2 = 0 := by
      rw [(C.equation_iff x y).mp hP.1, hx]
      ring
    refine Point.add_self_of_Y_eq ?_
    rw [negY_eq, pow_eq_zero_iff (n := 2) (by decide) |>.mp hy, neg_zero]

theorem xCoord_nsmul_eq_zero {P : C.toAffine.Point} (h : C.xCoord P = 0) (n : ℕ) :
    C.xCoord (n • P) = 0 := by
  have htwo : 2 • P = 0 := by rw [two_smul, add_self_eq_zero h]
  rcases Nat.even_or_odd' n with ⟨k, rfl | rfl⟩
  · rw [mul_comm, mul_smul, htwo, smul_zero]
    rfl
  · rw [add_smul, mul_comm, mul_smul, htwo, smul_zero, zero_add, one_smul, h]

/-- **The ladder computes the `x`-coordinate of the multiple.** -/
theorem ladder_eq {a : F} (ha : 4 * a = C.A - 2) (P : C.toAffine.Point) (bits : List Bool) :
    (ladder a (C.xCoord P) bits).1.1 / (ladder a (C.xCoord P) bits).1.2 =
      C.xCoord (ofBits bits • P) := by
  by_cases h : C.xCoord P = 0
  · rw [xCoord_nsmul_eq_zero h, h, div_eq_zero_iff]
    exact mul_eq_zero.mp (ladder_zero a bits).1
  · exact ((ladder_represents ha h bits).1.xCoord).symm

end

/-- **Every element of the field is the `x`-coordinate of a point**, of a suitable twist. -/
theorem exists_point {A : F} (h2 : (2 : F) ≠ 0) (h : ∀ x, x ^ 2 + A * x + 1 ≠ 0) (x : F) :
    ∃ C : MontgomeryCurve F, C.A = A ∧ ∃ P : C.toAffine.Point, C.xCoord P = x := by
  by_cases hx : x = 0
  · exact ⟨⟨A, 1, h2, one_ne_zero, h⟩, rfl, .zero, hx.symm⟩
  · have hd : x * (x ^ 2 + A * x + 1) ≠ 0 := mul_ne_zero hx (h x)
    let C : MontgomeryCurve F := ⟨A, x * (x ^ 2 + A * x + 1), h2, hd, h⟩
    have hP : C.toAffine.Equation (C.d * x) (C.d ^ 2) := by
      rw [equation_iff]
      change (C.d ^ 2) ^ 2 = (C.d * x) ^ 3 + C.d * A * (C.d * x) ^ 2 + C.d ^ 2 * (C.d * x)
      have hC : C.d = x * (x ^ 2 + A * x + 1) := rfl
      linear_combination C.d ^ 3 * hC
    exact ⟨C, rfl, .some _ _ (nonsingular hP), mul_div_cancel_left₀ x hd⟩

end MontgomeryCurve

namespace Montgomery

variable {F : Type*} [Field F]

/-- The `x`-coordinate of the multiple, or 0. -/
def mulX (a x : F) (bits : List Bool) : F := (ladder a x bits).1.1 / (ladder a x bits).1.2

/-- **Multipliers may be exchanged.** -/
theorem mulX_comm {a A : F} (ha : 4 * a = A - 2) (h2 : (2 : F) ≠ 0)
    (h : ∀ x, x ^ 2 + A * x + 1 ≠ 0) (x : F) (bits bits' : List Bool) :
    mulX a (mulX a x bits) bits' = mulX a (mulX a x bits') bits := by
  classical
  obtain ⟨C, rfl, P, rfl⟩ := MontgomeryCurve.exists_point h2 h x
  simp only [mulX, MontgomeryCurve.ladder_eq ha]
  rw [← mul_smul, ← mul_smul, mul_comm]

end Montgomery
