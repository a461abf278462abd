import N2nTun.Lib.KeyStream
import N2nTun.Lib.Word32
import N2nTun.Payload

/-!
# ChaCha20

`cc20.c` on a little-endian machine: the plain C routines, and those with SSE2 or SSSE3, which hold
the rows of the state in four registers, turn the rows for the even rounds, and work on two blocks
at once.

## Main definitions

* `cc20Crypt` — `cc20_crypt` in plain C.
* `M128i`, `Cc20Rows` — a register, and the four rows of a state.
* `cc20CryptSse2` — `cc20_crypt` with registers, for both ways to rotate by whole bytes.

## Main results

* `cc20DoubleRound_words` — two rounds on the rows are two rounds on the words.
* `ssse3_eq` — whole bytes may be shuffled.
* `cc20Crypt_eq` — the bytes of the blocks are added one after the other.
* `cc20CryptSse2_eq` — **the registers do the same as plain C.**
* `cc20Crypt_implements` — it is a stream cipher.
-/

namespace N2n

open Bytes KeyStream

/-! ### Plain C -/

/-- Half a line of `CC20_QUARTERROUND`: `x[a] += x[b]; x[d] = ROL32(x[d] ^ x[a], r)`.  `ROL32` is
`rol32`. -/
def cc20Line (x : List UInt32) (a b d : ℕ) (r : UInt32) : List UInt32 :=
  let x := x.set a (x.getD a 0 + x.getD b 0)
  x.set d (rol32 (x.getD d 0 ^^^ x.getD a 0) r)

/-- `CC20_QUARTERROUND`. -/
def cc20QuarterRound (x : List UInt32) (a b c d : ℕ) : List UInt32 :=
  let x := cc20Line x a b d 16
  let x := cc20Line x c d b 12
  let x := cc20Line x a b d 8
  cc20Line x c d b 7

/-- `CC20_DOUBLE_ROUND`. -/
def cc20DoubleRound (s : List UInt32) : List UInt32 :=
  -- odd round
  let s := cc20QuarterRound s 0 4 8 12
  let s := cc20QuarterRound s 1 5 9 13
  let s := cc20QuarterRound s 2 6 10 14
  let s := cc20QuarterRound s 3 7 11 15
  -- even round
  let s := cc20QuarterRound s 0 5 10 15
  let s := cc20QuarterRound s 1 6 11 12
  let s := cc20QuarterRound s 2 7 8 13
  cc20QuarterRound s 3 4 9 14

/-- The bytes "expand 32-byte k". -/
def cc20Magic : List UInt8 :=
  [101, 120, 112, 97, 110, 100, 32, 51, 50, 45, 98, 121, 116, 101, 32, 107]

/-- `n` words from the bytes `p`. -/
def wordsLe (p : List UInt8) (n : ℕ) : List UInt32 := (List.range n).map fun i => le32At p (4 * i)

/-- The bytes of words. -/
def bytesLe (ws : List UInt32) : List UInt8 := ws.flatMap leBytes32

/-- `cc20_init_block`: the state. -/
def cc20InitBlock (key nonce : List UInt8) : List UInt32 :=
  wordsLe cc20Magic 4 ++ (wordsLe key 8 ++ wordsLe nonce 4)

/-- `cc20_block_next`: the key stream, and the state for the next block. -/
def cc20BlockNext (state : List UInt32) : List UInt32 × List UInt32 :=
  let keystream32 := cc20DoubleRound^[10] state
  (List.zipWith (· + ·) keystream32 state, state.set 12 (state.getD 12 0 + 1))

/-- The loop of `cc20_crypt` over whole blocks: what is written, and the state afterwards. -/
def cc20Blocks : ℕ → List UInt32 → List UInt8 → List UInt8 × List UInt32
  | 0, state, _ => ([], state)
  | n + 1, state, inp =>
    let (keystream32, state) := cc20BlockNext state
    let (out, state) := cc20Blocks n state (inp.drop 64)
    (xorBytes (inp.take 64) (bytesLe keystream32) ++ out, state)

/-- `cc20_crypt`. -/
def cc20Crypt (key iv inp : List UInt8) : List UInt8 :=
  let (out, state) := cc20Blocks (inp.length / 64) (cc20InitBlock key iv) inp
  let rest := inp.drop (64 * (inp.length / 64))
  if 0 < rest.length then out ++ xorBytes rest (bytesLe (cc20BlockNext state).1) else out

/-! ### Registers -/

/-- `__m128i`: four words, the lowest first. -/
structure M128i where
  e0 : UInt32
  e1 : UInt32
  e2 : UInt32
  e3 : UInt32
  deriving DecidableEq

namespace M128i

/-- The word with a number. -/
def lane (x : M128i) : Fin 4 → UInt32
  | 0 => x.e0
  | 1 => x.e1
  | 2 => x.e2
  | 3 => x.e3

def map (f : UInt32 → UInt32) (x : M128i) : M128i := ⟨f x.e0, f x.e1, f x.e2, f x.e3⟩

def map₂ (f : UInt32 → UInt32 → UInt32) (x y : M128i) : M128i :=
  ⟨f x.e0 y.e0, f x.e1 y.e1, f x.e2 y.e2, f x.e3 y.e3⟩

/-- `_mm_add_epi32`. -/
def add (x y : M128i) : M128i := map₂ (· + ·) x y

/-- `_mm_xor_si128`. -/
def xor (x y : M128i) : M128i := map₂ (· ^^^ ·) x y

/-- `ROL`, from `_mm_slli_epi32`, `_mm_srli_epi32` and `_mm_xor_si128`. -/
def rol (x : M128i) (r : UInt32) : M128i := xor (x.map (· <<< r)) (x.map (· >>> (32 - r)))

/-- `_mm_shuffle_epi32` with `_MM_SHUFFLE`. -/
def shuffle (v : M128i) (z y x w : Fin 4) : M128i := ⟨v.lane w, v.lane x, v.lane y, v.lane z⟩

def words (x : M128i) : List UInt32 := [x.e0, x.e1, x.e2, x.e3]

/-- `_mm_loadu_si128`. -/
def load (p : List UInt8) (i : ℕ) : M128i :=
  ⟨le32At p i, le32At p (i + 4), le32At p (i + 8), le32At p (i + 12)⟩

/-- The bytes that `_mm_storeu_si128` writes. -/
def bytes (x : M128i) : List UInt8 := bytesLe x.words

/-- `_mm_shuffle_epi8`: a byte of `ctl` says which byte of `x` is taken, or none. -/
def shuffleBytes (x ctl : M128i) : M128i :=
  load (ctl.bytes.map fun k => if k &&& 0x80 ≠ 0 then 0 else x.bytes.getD (k &&& 0x0f).toNat 0) 0

end M128i

/-- `ROL8` and `ROL16`. -/
structure ByteRotations where
  rol8 : M128i → M128i
  rol16 : M128i → M128i

/-- Those of SSE2. -/
def regularSse2 : ByteRotations := ⟨(·.rol 8), (·.rol 16)⟩

/-- Those of SSSE3, with `L8` and `L16`. -/
def ssse3 : ByteRotations where
  rol8 := (·.shuffleBytes ⟨0x02010003, 0x06050407, 0x0a09080b, 0x0e0d0c0f⟩)
  rol16 := (·.shuffleBytes ⟨0x01000302, 0x05040706, 0x09080b0a, 0x0d0c0f0e⟩)

/-- Four registers with the rows of a state. -/
structure Cc20Rows where
  a : M128i
  b : M128i
  c : M128i
  d : M128i

namespace Cc20Rows

/-- `CC20_PERMUTE_ROWS`. -/
def permute (k : Cc20Rows) : Cc20Rows :=
  ⟨k.a, k.b.shuffle 0 3 2 1, k.c.shuffle 1 0 3 2, k.d.shuffle 2 1 0 3⟩

/-- `CC20_PERMUTE_ROWS_INV`. -/
def permuteInv (k : Cc20Rows) : Cc20Rows :=
  ⟨k.a, k.b.shuffle 2 1 0 3, k.c.shuffle 1 0 3 2, k.d.shuffle 0 3 2 1⟩

/-- `CC20_ODD_ROUND`. -/
def oddRound (rot : ByteRotations) (k : Cc20Rows) : Cc20Rows :=
  let a := k.a.add k.b
  let d := rot.rol16 (k.d.xor a)
  let c := k.c.add d
  let b := (k.b.xor c).rol 12
  let a := a.add b
  let d := rot.rol8 (d.xor a)
  let c := c.add d
  let b := (b.xor c).rol 7
  ⟨a, b, c, d⟩

/-- `CC20_EVEN_ROUND`. -/
def evenRound (rot : ByteRotations) (k : Cc20Rows) : Cc20Rows := (oddRound rot k.permute).permuteInv

/-- `CC20_DOUBLE_ROUND`. -/
def doubleRound (rot : ByteRotations) (k : Cc20Rows) : Cc20Rows := evenRound rot (oddRound rot k)

/-- The rows are added. -/
def add (k l : Cc20Rows) : Cc20Rows := ⟨k.a.add l.a, k.b.add l.b, k.c.add l.c, k.d.add l.d⟩

/-- Ten double rounds, and the rows that they started from are added. -/
def block (rot : ByteRotations) (k : Cc20Rows) : Cc20Rows := ((doubleRound rot)^[10] k).add k

/-- `ADD(d, ONE)`, `ADD(d, TWO)`. -/
def count (k : Cc20Rows) (n : UInt32) : Cc20Rows := { k with d := k.d.add ⟨n, 0, 0, 0⟩ }

/-- Four times `STOREXOR`. -/
def storeXor (k : Cc20Rows) (inp : List UInt8) : List UInt8 :=
  xorBytes (slice inp 0 16) k.a.bytes ++ xorBytes (slice inp 16 16) k.b.bytes ++
    xorBytes (slice inp 32 16) k.c.bytes ++ xorBytes (slice inp 48 16) k.d.bytes

def words (k : Cc20Rows) : List UInt32 :=
  k.a.words ++ k.b.words ++ k.c.words ++ k.d.words

end Cc20Rows

/-- The loop of `cc20_crypt` over two blocks at once: what is written, and the rows afterwards.  The
second block has the counter increased in the row before the rounds and in the sum after them. -/
def cc20Pairs (rot : ByteRotations) : ℕ → Cc20Rows → List UInt8 → List UInt8 × Cc20Rows
  | 0, k, _ => ([], k)
  | n + 1, k, inp =>
    let first := k.block rot
    let second := (((Cc20Rows.doubleRound rot)^[10] (k.count 1)).add k).count 1
    let (out, k) := cc20Pairs rot n (k.count 2) (inp.drop 128)
    (first.storeXor inp ++ second.storeXor (inp.drop 64) ++ out, k)

/-- `cc20_crypt`, with registers. -/
def cc20CryptSse2 (rot : ByteRotations) (key iv inp : List UInt8) : List UInt8 :=
  let k : Cc20Rows := ⟨.load cc20Magic 0, .load key 0, .load key 16, .load iv 0⟩
  let (out, k) := cc20Pairs rot (inp.length / 128) k inp
  let inp := inp.drop (128 * (inp.length / 128))
  -- one more whole block
  let (out, k, inp) :=
    if 64 ≤ inp.length then (out ++ (k.block rot).storeXor inp, k.count 1, inp.drop 64)
    else (out, k, inp)
  -- the rest, from its end on
  if 0 < inp.length then out ++ xorBytes inp (bytesLe (k.block rot).words) else out

/-! ### Rotations -/

theorem M128i.rol_eq {r : UInt32} (h : 0 < r.toNat) (h' : r.toNat < 32) (x : M128i) :
    x.rol r = x.map (rol32 · r) := by
  simp only [rol, xor, map₂, map, xor_eq_rol32 h h']

/-- The bytes of a word, turned by one or by two. -/
theorem le32_turned (x : UInt32) :
    le32 (x >>> 24).toUInt8 x.toUInt8 (x >>> 8).toUInt8 (x >>> 16).toUInt8 = rol32 x 8 ∧
      le32 (x >>> 16).toUInt8 (x >>> 24).toUInt8 x.toUInt8 (x >>> 8).toUInt8 = rol32 x 16 := by
  have hx := x.toNat_lt
  have h8 := toNat_rol32 (r := 8) (by decide) (by decide) x
  have h16 := toNat_rol32 (r := 16) (by decide) (by decide) x
  constructor <;> apply UInt32.toNat_inj.mp
  · rw [le32_eq_be32, toNat_be32, h8]
    simp [Nat.shiftRight_eq_div_pow]
    omega
  · rw [le32_eq_be32, toNat_be32, h16]
    simp [Nat.shiftRight_eq_div_pow]
    omega

/-- SSSE3 only has another way to rotate. -/
theorem ssse3_eq : ssse3 = regularSse2 := by
  have hturn := le32_turned
  have h8 : ∀ x : M128i, x.shuffleBytes ⟨0x02010003, 0x06050407, 0x0a09080b, 0x0e0d0c0f⟩ =
      x.map (rol32 · 8) := by
    intro x
    simp only [M128i.map, ← (hturn _).1]
    rfl
  have h16 : ∀ x : M128i, x.shuffleBytes ⟨0x01000302, 0x05040706, 0x09080b0a, 0x0d0c0f0e⟩ =
      x.map (rol32 · 16) := by
    intro x
    simp only [M128i.map, ← (hturn _).2]
    rfl
  unfold ssse3 regularSse2
  congr 1 <;> funext x
  · rw [h8, x.rol_eq (by decide) (by decide)]
  · rw [h16, x.rol_eq (by decide) (by decide)]

/-! ### One column -/

/-- The words of a column. -/
structure Quad where
  a : UInt32
  b : UInt32
  c : UInt32
  d : UInt32

/-- A quarter round on the words of a column. -/
def Quad.round (q : Quad) : Quad :=
  let a := q.a + q.b
  let d := rol32 (q.d ^^^ a) 16
  let c := q.c + d
  let b := rol32 (q.b ^^^ c) 12
  let a := a + b
  let d := rol32 (d ^^^ a) 8
  let c := c + d
  let b := rol32 (b ^^^ c) 7
  ⟨a, b, c, d⟩

namespace Cc20Rows

/-- A column of the rows. -/
def col (k : Cc20Rows) (i : Fin 4) : Quad := ⟨k.a.lane i, k.b.lane i, k.c.lane i, k.d.lane i⟩

/-- The rows with given columns. -/
def ofCols (q : Fin 4 → Quad) : Cc20Rows :=
  ⟨⟨(q 0).a, (q 1).a, (q 2).a, (q 3).a⟩, ⟨(q 0).b, (q 1).b, (q 2).b, (q 3).b⟩,
    ⟨(q 0).c, (q 1).c, (q 2).c, (q 3).c⟩, ⟨(q 0).d, (q 1).d, (q 2).d, (q 3).d⟩⟩

/-- **An odd round on the rows** is a quarter round on each column. -/
theorem oddRound_eq (k : Cc20Rows) : oddRound regularSse2 k = ofCols fun i => (k.col i).round := by
  unfold oddRound regularSse2
  dsimp only
  simp only [M128i.rol_eq (r := 16) (by decide) (by decide),
    M128i.rol_eq (r := 12) (by decide) (by decide), M128i.rol_eq (r := 8) (by decide) (by decide),
    M128i.rol_eq (r := 7) (by decide) (by decide)]
  rfl

end Cc20Rows

/-! ### The words of the rows -/

/-- A quarter round on four of sixteen words. -/
theorem cc20QuarterRound_eq {x : List UInt32} {a b c d : ℕ}
    (h : [a, b, c, d].Nodup ∧ ∀ i ∈ [a, b, c, d], i < 16) (hx : x.length = 16) :
    let q := Quad.round ⟨x.getD a 0, x.getD b 0, x.getD c 0, x.getD d 0⟩
    cc20QuarterRound x a b c d = (((x.set a q.a).set b q.b).set c q.c).set d q.d := by
  have hself : ∀ (y : List UInt32) (i : ℕ) (v : UInt32), i < y.length →
      (y.set i v).getD i 0 = v := by
    intro y i v h
    simp [List.getD_eq_getElem?_getD, h]
  have hother : ∀ (y : List UInt32) (i j : ℕ) (v : UInt32), i ≠ j →
      (y.set i v).getD j 0 = y.getD j 0 := by
    intro y i j v h
    simp [List.getD_eq_getElem?_getD, h]
  obtain ⟨⟨hab, hac, had⟩, ⟨hbc, hbd⟩, hcd⟩ :
      (a ≠ b ∧ a ≠ c ∧ a ≠ d) ∧ (b ≠ c ∧ b ≠ d) ∧ c ≠ d := by
    simpa using h.1
  obtain ⟨ha, hb, hc, hd⟩ : a < x.length ∧ b < x.length ∧ c < x.length ∧ d < x.length := by
    simpa [hx] using h.2
  intro q
  apply List.ext_getElem?
  intro i
  unfold cc20QuarterRound cc20Line
  dsimp only
  simp only [hself, hother, List.length_set, ha, hb, hc, hd, hab, hac, had, hbc, hbd, hcd, ne_eq,
    not_false_eq_true, hab.symm, hac.symm, had.symm, hbc.symm, hbd.symm, hcd.symm,
    List.getElem?_set]
  -- which of the words is it?
  by_cases hia : a = i
  · subst hia
    simp only [hab.symm, hac.symm, had.symm, if_true, if_false]
    rfl
  by_cases hib : b = i
  · subst hib
    simp only [hbc.symm, hbd.symm, hia, if_true, if_false]
    rfl
  by_cases hic : c = i
  · subst hic
    simp only [hcd.symm, hia, hib, if_true, if_false]
    rfl
  by_cases hid : d = i
  · subst hid
    simp only [hia, hib, hic, if_true, if_false]
    rfl
  · simp only [hia, hib, hic, hid, if_false]

@[simp] theorem length_cc20QuarterRound (x : List UInt32) (a b c d : ℕ) :
    (cc20QuarterRound x a b c d).length = x.length := by
  simp [cc20QuarterRound, cc20Line]

namespace Cc20Rows

@[simp] theorem length_words (k : Cc20Rows) : k.words.length = 16 := rfl

/-- The four quarter rounds on the columns. -/
theorem columns_words (k : Cc20Rows) :
    cc20QuarterRound (cc20QuarterRound (cc20QuarterRound (cc20QuarterRound k.words 0 4 8 12)
      1 5 9 13) 2 6 10 14) 3 7 11 15 = (oddRound regularSse2 k).words := by
  rw [oddRound_eq, cc20QuarterRound_eq (a := 0) (by decide) (by simp),
    cc20QuarterRound_eq (a := 1) (by decide) (by simp),
    cc20QuarterRound_eq (a := 2) (by decide) (by simp),
    cc20QuarterRound_eq (a := 3) (by decide) (by simp)]
  simp only [words, M128i.words, List.cons_append, List.nil_append, List.getD_cons_zero,
    List.getD_cons_succ, List.set_cons_zero, List.set_cons_succ, ofCols, col, M128i.lane]

/-- The four quarter rounds on the diagonals, which are columns of the permuted rows. -/
theorem diagonals_words (k : Cc20Rows) :
    cc20QuarterRound (cc20QuarterRound (cc20QuarterRound (cc20QuarterRound k.words 0 5 10 15)
      1 6 11 12) 2 7 8 13) 3 4 9 14 = (evenRound regularSse2 k).words := by
  rw [evenRound, oddRound_eq, cc20QuarterRound_eq (a := 0) (by decide) (by simp),
    cc20QuarterRound_eq (a := 1) (by decide) (by simp),
    cc20QuarterRound_eq (a := 2) (by decide) (by simp),
    cc20QuarterRound_eq (a := 3) (by decide) (by simp)]
  simp only [words, M128i.words, List.cons_append, List.nil_append, List.getD_cons_zero,
    List.getD_cons_succ, List.set_cons_zero, List.set_cons_succ, ofCols, col, M128i.lane, permute,
    permuteInv, M128i.shuffle]

/-- **Two rounds on the rows are two rounds on the words.** -/
theorem doubleRound_words (k : Cc20Rows) :
    cc20DoubleRound k.words = (doubleRound regularSse2 k).words := by
  unfold cc20DoubleRound
  dsimp only
  rw [columns_words, diagonals_words]
  rfl

theorem doubleRounds_words (n : ℕ) (k : Cc20Rows) :
    cc20DoubleRound^[n] k.words = ((doubleRound regularSse2)^[n] k).words := by
  induction n generalizing k with
  | zero => rfl
  | succ n ih =>
    rw [Function.iterate_succ_apply, doubleRound_words, ih, Function.iterate_succ_apply]

/-- The next block and the next state. -/
theorem blockNext_words (k : Cc20Rows) :
    cc20BlockNext k.words = ((k.block regularSse2).words, (k.count 1).words) := by
  have hcount : k.words.set 12 (k.words.getD 12 0 + 1) = (k.count 1).words := by
    simp [words, M128i.words, count, M128i.add, M128i.map₂]
  rw [cc20BlockNext, doubleRounds_words, hcount]
  rfl

theorem count_count (k : Cc20Rows) (m n : UInt32) : (k.count m).count n = k.count (m + n) := by
  simp [count, M128i.add, M128i.map₂, UInt32.add_assoc]

theorem count_zero (k : Cc20Rows) : k.count 0 = k := by
  simp [count, M128i.add, M128i.map₂]

/-- The counter may be increased in the sum. -/
theorem add_count (k l : Cc20Rows) (n : UInt32) : (k.add l).count n = k.add (l.count n) := by
  simp [add, count, M128i.add, M128i.map₂, UInt32.add_assoc]

end Cc20Rows

/-! ### Bytes -/

/-- Four registers are added to 64 bytes. -/
theorem Cc20Rows.storeXor_eq (k : Cc20Rows) {inp : List UInt8} (h : 64 ≤ inp.length) :
    k.storeXor inp = xorBytes (inp.take 64) (bytesLe k.words) := by
  have hlen : ∀ (x : M128i) (i : ℕ), (slice inp i 16).length = x.bytes.length := fun x i => by
    rw [length_slice]
    rfl
  have hslice : inp.take 64 = slice inp 0 16 ++ slice inp 16 16 ++ slice inp 32 16 ++
      slice inp 48 16 := by
    have hcut := @slice_eq_take_drop inp 0 64 (by omega)
    rw [List.drop_zero] at hcut
    rw [← hcut, ← slice_add inp 0 16 16, ← slice_add inp 0 32 16, ← slice_add inp 0 48 16]
  have hwords : bytesLe k.words = k.a.bytes ++ k.b.bytes ++ k.c.bytes ++ k.d.bytes := rfl
  have hab : (slice inp 0 16 ++ slice inp 16 16).length = (k.a.bytes ++ k.b.bytes).length := by
    rw [List.length_append, List.length_append, hlen k.a, hlen k.b]
  have habc : (slice inp 0 16 ++ slice inp 16 16 ++ slice inp 32 16).length =
      (k.a.bytes ++ k.b.bytes ++ k.c.bytes).length := by
    rw [List.length_append, @List.length_append _ _ k.c.bytes, hab, hlen k.c]
  rw [storeXor, hslice, hwords, xorBytes_append habc, xorBytes_append hab,
    xorBytes_append (hlen k.a 0)]

/-! ### The stream -/

/-- The rows at the start, in either version. -/
def cc20Start (key iv : List UInt8) : Cc20Rows :=
  ⟨.load cc20Magic 0, .load key 0, .load key 16, .load iv 0⟩

theorem cc20Start_words (key iv : List UInt8) :
    (cc20Start key iv).words = cc20InitBlock key iv := rfl

/-- The bytes of the block with the number `i`, from the rows `k` of the first one. -/
def cc20KeyBlock (k : Cc20Rows) (i : ℕ) : List UInt8 :=
  bytesLe ((k.count (UInt32.ofNat i)).block regularSse2).words

@[simp] theorem length_cc20KeyBlock (k : Cc20Rows) (i : ℕ) : (cc20KeyBlock k i).length = 64 := rfl

/-- A piece of at most one block. -/
theorem crypt_cc20KeyBlock (k : Cc20Rows) (i : ℕ) {p : List UInt8} (h : p.length ≤ 64) :
    crypt 64 (cc20KeyBlock k) i p =
      xorBytes p (bytesLe ((k.count (UInt32.ofNat i)).block regularSse2).words) :=
  crypt_block (length_cc20KeyBlock k i) h

theorem Cc20Rows.count_ofNat (k : Cc20Rows) (i n : ℕ) :
    (k.count (UInt32.ofNat i)).count (UInt32.ofNat n) = k.count (UInt32.ofNat (i + n)) := by
  rw [count_count, UInt32.ofNat_add]

/-- The whole blocks in plain C. -/
theorem cc20Blocks_eq (k : Cc20Rows) {n : ℕ} (i : ℕ) {inp : List UInt8} (h : 64 * n ≤ inp.length) :
    cc20Blocks n (k.count (UInt32.ofNat i)).words inp =
      (crypt 64 (cc20KeyBlock k) i (inp.take (64 * n)),
        (k.count (UInt32.ofNat (i + n))).words) := by
  induction n generalizing i inp with
  | zero => simp [cc20Blocks]
  | succ n ih =>
    have hdrop : 64 * n ≤ (inp.drop 64).length := by
      rw [List.length_drop]
      omega
    have hfirst := crypt_cc20KeyBlock k i (inp.length_take_le 64)
    have htake : inp.take (64 * (n + 1)) = inp.take 64 ++ (inp.drop 64).take (64 * n) := by
      rw [Nat.mul_succ, Nat.add_comm, List.take_add]
    have hlen : (inp.take 64).length = 64 * 1 := by
      rw [List.length_take]
      omega
    rw [cc20Blocks, Cc20Rows.blockNext_words]
    dsimp only
    rw [show (1 : UInt32) = UInt32.ofNat 1 from rfl, Cc20Rows.count_ofNat, ih (i + 1) hdrop, htake,
      crypt_append (by omega) hlen, hfirst, Nat.add_right_comm, Nat.add_assoc i n 1]

/-- **The blocks are added one after the other.** -/
theorem cc20Crypt_eq (key iv inp : List UInt8) :
    cc20Crypt key iv inp = crypt 64 (cc20KeyBlock (cc20Start key iv)) 0 inp := by
  have hle : 64 * (inp.length / 64) ≤ inp.length := Nat.mul_div_le _ _
  have hblocks := cc20Blocks_eq (cc20Start key iv) 0 hle
  rw [show UInt32.ofNat 0 = 0 from rfl, Cc20Rows.count_zero, cc20Start_words] at hblocks
  have hrest := @crypt_cc20KeyBlock (cc20Start key iv) (0 + inp.length / 64)
    (inp.drop (64 * (inp.length / 64))) (by rw [List.length_drop]; omega)
  rw [crypt_split (by omega) hle, hrest, cc20Crypt, hblocks]
  dsimp only
  rw [Cc20Rows.blockNext_words]
  split_ifs with hpos
  · rfl
  · rw [List.length_eq_zero_iff.mp (by omega : (inp.drop (64 * (inp.length / 64))).length = 0)]
    simp [xorBytes]

/-- The counter increased in the row before the rounds and in the sum after them: the next block. -/
theorem Cc20Rows.second_block (k : Cc20Rows) :
    (((doubleRound regularSse2)^[10] (k.count 1)).add k).count 1 =
      (k.count 1).block regularSse2 := by
  rw [add_count, block]

/-- The pairs of blocks. -/
theorem cc20Pairs_eq (k : Cc20Rows) {n : ℕ} (i : ℕ) {inp : List UInt8} (h : 128 * n ≤ inp.length) :
    cc20Pairs regularSse2 n (k.count (UInt32.ofNat i)) inp =
      (crypt 64 (cc20KeyBlock k) i (inp.take (128 * n)), k.count (UInt32.ofNat (i + 2 * n))) := by
  induction n generalizing i inp with
  | zero => simp [cc20Pairs]
  | succ n ih =>
    have hdrop : 128 * n ≤ (inp.drop 128).length := by
      rw [List.length_drop]
      omega
    have hblock : ∀ (j : ℕ) (p : List UInt8), 64 ≤ p.length →
        ((k.count (UInt32.ofNat j)).block regularSse2).storeXor p =
          crypt 64 (cc20KeyBlock k) j (p.take 64) := by
      intro j p hp
      rw [Cc20Rows.storeXor_eq _ hp, crypt_cc20KeyBlock _ _ (p.length_take_le 64)]
    have htake : inp.take (128 * (n + 1)) =
        inp.take 64 ++ ((inp.drop 64).take 64 ++ (inp.drop 128).take (128 * n)) := by
      rw [show inp.drop 128 = (inp.drop 64).drop 64 by rw [List.drop_drop], ← List.take_add,
        ← List.take_add]
      congr 1
      omega
    have hlen : (inp.take 64).length = 64 * 1 := by
      rw [List.length_take]
      omega
    have hlen' : ((inp.drop 64).take 64).length = 64 * 1 := by
      rw [List.length_take, List.length_drop]
      omega
    rw [cc20Pairs, Cc20Rows.second_block, show (1 : UInt32) = UInt32.ofNat 1 from rfl,
      show (2 : UInt32) = UInt32.ofNat 2 from rfl]
    dsimp only
    rw [Cc20Rows.count_ofNat, Cc20Rows.count_ofNat, ih (i + 2) hdrop, hblock i inp (by omega),
      hblock (i + 1) (inp.drop 64) (by rw [List.length_drop]; omega), htake,
      crypt_append (by omega) hlen, crypt_append (by omega) hlen', List.append_assoc,
      Nat.add_assoc i 1 1, show i + 2 + 2 * n = i + 2 * (n + 1) by omega]

/-- **The registers do the same as plain C.** -/
theorem cc20CryptSse2_eq (key iv inp : List UInt8) :
    cc20CryptSse2 regularSse2 key iv inp = cc20Crypt key iv inp ∧
      cc20CryptSse2 ssse3 key iv inp = cc20Crypt key iv inp := by
  rw [ssse3_eq, and_self_iff]
  set k := cc20Start key iv with hk
  have hle : 128 * (inp.length / 128) ≤ inp.length := Nat.mul_div_le _ _
  have hpairs := cc20Pairs_eq k 0 hle
  rw [show UInt32.ofNat 0 = 0 from rfl, Cc20Rows.count_zero, Nat.zero_add] at hpairs
  have hsplit : crypt 64 (cc20KeyBlock k) 0 inp =
      crypt 64 (cc20KeyBlock k) 0 (inp.take (128 * (inp.length / 128))) ++
        crypt 64 (cc20KeyBlock k) (2 * (inp.length / 128))
          (inp.drop (128 * (inp.length / 128))) := by
    have hcut := @crypt_split 64 (cc20KeyBlock k) inp (2 * (inp.length / 128)) (by omega)
      (by omega) 0
    rwa [show 64 * (2 * (inp.length / 128)) = 128 * (inp.length / 128) by omega,
      Nat.zero_add] at hcut
  rw [cc20Crypt_eq, ← hk, hsplit, cc20CryptSse2]
  dsimp only
  rw [← cc20Start, ← hk, hpairs]
  set j := 2 * (inp.length / 128)
  set rest := inp.drop (128 * (inp.length / 128)) with hrest
  have hlt : rest.length < 128 := by
    rw [hrest, List.length_drop]
    omega
  have hlast : ∀ (i : ℕ) (out p : List UInt8), p.length ≤ 64 →
      (if 0 < p.length then
        out ++ xorBytes p (bytesLe ((k.count (UInt32.ofNat i)).block regularSse2).words) else out) =
        out ++ crypt 64 (cc20KeyBlock k) i p := by
    intro i out p hp
    rw [crypt_cc20KeyBlock k i hp]
    split_ifs with hpos
    · rfl
    · rw [List.length_eq_zero_iff.mp (by omega : p.length = 0)]
      simp [xorBytes]
  by_cases hwhole : 64 ≤ rest.length
  · have hblock : rest.take 64 ++ rest.drop 64 = rest := List.take_append_drop ..
    have hlen : (rest.take 64).length = 64 * 1 := by
      rw [List.length_take]
      omega
    simp only [hwhole, if_true]
    rw [show (1 : UInt32) = UInt32.ofNat 1 from rfl, Cc20Rows.count_ofNat,
      hlast _ _ _ (by rw [List.length_drop]; omega), Cc20Rows.storeXor_eq _ hwhole,
      ← crypt_cc20KeyBlock _ _ (rest.length_take_le 64), List.append_assoc,
      ← crypt_append (by omega) hlen, hblock]
  · simp only [hwhole, if_false]
    exact hlast _ _ _ (by omega)

/-- `cc20_crypt` is a stream cipher. -/
theorem cc20Crypt_implements (key : List UInt8) : StreamCipher.Implements (cc20Crypt key)
    fun iv i => (cc20KeyBlock (cc20Start key iv) (i / 64)).getD (i % 64) 0 := by
  intro iv p
  simp only [cc20Crypt_eq, crypt, Nat.zero_add]

end N2n
