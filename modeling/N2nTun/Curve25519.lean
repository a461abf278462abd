import N2nTun.Lib.Bytes

/-!
# The functions of `curve25519.c`

A number is an array of 32 words, of which each stands for eight bits; the words may be larger.
The functions work on words of the type `unsigned int`.  A function that carries from word to word
is given the terms that it adds.

## Main definitions

* `carry` — the loop over the first 31 words.
* `add`, `sub`, `squeeze`, `freeze`, `mult`, `mult121665`, `square`, `select`, `recip` — the
  functions on numbers.
* `mainloop` — the ladder, on pairs of numbers.
* `curve25519` — the whole function.
-/

namespace N2n.Curve25519

/-- `unsigned int [32]`. -/
abbrev Number : Type := List UInt32

/-- The loop over the words but the last: the terms are added to `u`, which is carried on. -/
def carry : UInt32 → List UInt32 → List UInt32 × UInt32
  | u, [] => ([], u)
  | u, t :: ts =>
    let u := u + t
    let r := carry (u >>> 8) ts
    ((u &&& 255) :: r.1, r.2)

/-- The word with number `j`. -/
def word (a : Number) (j : ℕ) : UInt32 := a.getD j 0

/-- `add`. -/
def add (a b : Number) : Number :=
  let r := carry 0 ((List.range 31).map fun j => word a j + word b j)
  r.1 ++ [r.2 + (word a 31 + word b 31)]

/-- `sub`. -/
def sub (a b : Number) : Number :=
  let r := carry 218 ((List.range 31).map fun j => word a j + 65280 - word b j)
  r.1 ++ [r.2 + (word a 31 - word b 31)]

/-- The second half of `squeeze` and of `mult121665`: what is above 255 bits comes back 19-fold. -/
def fold (low : List UInt32) (u : UInt32) : Number :=
  let top := u &&& 127
  let high : UInt32 := u >>> 7
  let r := carry (19 * high) low
  r.1 ++ [r.2 + top]

/-- `squeeze`. -/
def squeeze (a : Number) : Number :=
  let r := carry 0 ((List.range 31).map (word a))
  fold r.1 (r.2 + word a 31)

/-- `minusp`. -/
def minusp : Number := 19 :: List.replicate 30 0 ++ [128]

/-- `freeze`. -/
def freeze (a : Number) : Number :=
  let aorig := a
  let a := add a minusp
  let negative := -((word a 31 >>> 7) &&& 1)
  (List.range 32).map fun j => word a j ^^^ (negative &&& (word aorig j ^^^ word a j))

/-- The sum that `mult` stores in the word with number `i`. -/
def multWord (a b : Number) (i : ℕ) : UInt32 :=
  let u := (List.range (i + 1)).foldl (fun u j => u + word a j * word b (i - j)) 0
  (List.range' (i + 1) (31 - i)).foldl (fun u j => u + 38 * word a j * word b (i + 32 - j)) u

/-- `mult`. -/
def mult (a b : Number) : Number := squeeze ((List.range 32).map (multWord a b))

/-- `mult121665`. -/
def mult121665 (a : Number) : Number :=
  let r := carry 0 ((List.range 31).map fun j => 121665 * word a j)
  fold r.1 (r.2 + 121665 * word a 31)

/-- The sum that `square` stores in the word with number `i`; the loops end where the two indices
meet. -/
def squareWord (a : Number) (i : ℕ) : UInt32 :=
  let u := ((List.range (i + 1)).takeWhile fun j => j < i - j).foldl
    (fun u j => u + word a j * word a (i - j)) 0
  let u := ((List.range' (i + 1) 32).takeWhile fun j => j < i + 32 - j).foldl
    (fun u j => u + 38 * word a j * word a (i + 32 - j)) u
  let u := u * 2
  if i % 2 = 0 then
    let u := u + word a (i / 2) * word a (i / 2)
    u + 38 * word a (i / 2 + 16) * word a (i / 2 + 16)
  else u

/-- `square`. -/
def square (a : Number) : Number := squeeze ((List.range 32).map (squareWord a))

/-- `select`, on the words of one number: what `p` and `q` are set to. -/
def selectWords (r s : Number) (b : UInt32) : Number × Number :=
  let bminus1 := b - 1
  ((List.range 32).map fun j => word s j ^^^ (bminus1 &&& (word r j ^^^ word s j)),
    (List.range 32).map fun j => word r j ^^^ (bminus1 &&& (word r j ^^^ word s j)))

/-- The arrays of 64 words: a fraction. -/
abbrev Fraction : Type := Number × Number

/-- `select`. -/
def select (r s : Fraction) (b : UInt32) : Fraction × Fraction :=
  let x := selectWords r.1 s.1 b
  let z := selectWords r.2 s.2 b
  ((x.1, z.1), (x.2, z.2))

/-- The bit of `e` with number `pos`. -/
def bitOf (e : List UInt8) (pos : ℕ) : UInt32 :=
  ((e.getD (pos / 8) 0 >>> UInt8.ofNat (pos % 8)) &&& 1).toUInt32

/-- The sums and products in the loop of `mainloop`: `xznb` and `xzn1b`. -/
def doubleAdd (work : Number) (xzmb xzm1b : Fraction) : Fraction × Fraction :=
  let a0 := (add xzmb.1 xzmb.2, sub xzmb.1 xzmb.2)
  let a1 := (add xzm1b.1 xzm1b.2, sub xzm1b.1 xzm1b.2)
  let b0 := (square a0.1, square a0.2)
  let b1 := (mult a1.1 a0.2, mult a1.2 a0.1)
  let c1 := (add b1.1 b1.2, sub b1.1 b1.2)
  let r := square c1.2
  let s := sub b0.1 b0.2
  let t := mult121665 s
  let u := add t b0.1
  ((mult b0.1 b0.2, mult s u), (square c1.1, mult r work))

/-- One pass of the loop of `mainloop`, on `xzm` and `xzm1`. -/
def mainstep (work : Number) (e : List UInt8) (s : Fraction × Fraction) (pos : ℕ) :
    Fraction × Fraction :=
  let b := bitOf e pos
  let (xzmb, xzm1b) := select s.1 s.2 b
  let (xznb, xzn1b) := doubleAdd work xzmb xzm1b
  select xznb xzn1b b

/-- The number 1. -/
def one : Number := 1 :: List.replicate 31 0

/-- The number 0. -/
def zero : Number := List.replicate 32 0

/-- `mainloop`: what it leaves in `work`. -/
def mainloop (work : Number) (e : List UInt8) : Fraction :=
  ((List.range 255).reverse.foldl (mainstep work e) ((one, zero), (work, one))).1

/-- The loops of `recip`: `n` times two squarings. -/
def squareTwice (n : ℕ) (t : Number) : Number := (fun t => square (square t))^[n] t

/-- `recip`. -/
def recip (z : Number) : Number :=
  let z2 := square z
  let t1 := square z2
  let t0 := square t1
  let z9 := mult t0 z
  let z11 := mult z9 z2
  let t0 := square z11
  let z2_5_0 := mult t0 z9
  let t0 := square z2_5_0
  let t1 := square t0
  let t0 := square t1
  let t1 := square t0
  let t0 := square t1
  let z2_10_0 := mult t0 z2_5_0
  let t0 := square z2_10_0
  let t1 := square t0
  let t1 := squareTwice 4 t1
  let z2_20_0 := mult t1 z2_10_0
  let t0 := square z2_20_0
  let t1 := square t0
  let t1 := squareTwice 9 t1
  let t0 := mult t1 z2_20_0
  let t1 := square t0
  let t0 := square t1
  let t0 := squareTwice 4 t0
  let z2_50_0 := mult t0 z2_10_0
  let t0 := square z2_50_0
  let t1 := square t0
  let t1 := squareTwice 24 t1
  let z2_100_0 := mult t1 z2_50_0
  let t1 := square z2_100_0
  let t0 := square t1
  let t0 := squareTwice 49 t0
  let t1 := mult t0 z2_100_0
  let t0 := square t1
  let t1 := square t0
  let t1 := squareTwice 24 t1
  let t0 := mult t1 z2_50_0
  let t1 := square t0
  let t0 := square t1
  let t1 := square t0
  let t0 := square t1
  let t1 := square t0
  mult t1 z11

/-- The multiplier: the low bits and the high bit are cleared, and the one below is set. -/
def clamp (n : List UInt8) : List UInt8 :=
  let e := (List.range 32).map fun i => n.getD i 0
  let e := e.modify 0 (· &&& 248)
  let e := e.modify 31 (· &&& 127)
  e.modify 31 (· ||| 64)

/-- The point: its bytes, less the top bit. -/
def workOf (p : List UInt8) : Number :=
  let work := (List.range 32).map fun i => (p.getD i 0).toUInt32
  work.modify 31 (· &&& 127)

/-- `curve25519`: what is written to `q`. -/
def curve25519 (n p : List UInt8) : List UInt8 :=
  let work := mainloop (workOf p) (clamp n)
  let z := recip work.2
  let x := freeze (mult work.1 z)
  x.map UInt32.toUInt8

end N2n.Curve25519
