import N2nTun.CommunityText

/-!
# Keys as text

`auth.c` writes binary keys as printable characters of six bits each, and reads them back.  Both
directions work on the bits of a whole string; the alignment repeats after three bytes, or four
characters.

`ascii_to_bin` looks up whether a character is valid at its code, and its value `0x20` before that.
So some characters outside the alphabet pass the test, and their entry `0xff` has two bits more
than there is room for.

## Main definitions

* `binToAscii`, `asciiToBin` — the two functions.
* `keyBits` — six bits for each character of a text, which are clear for characters outside the
  alphabet.
* `spillingChars` — the characters that pass the test without being valid.

## Main results

* `asciiToBin_binToAscii` — **what is written is read back.**
* `asciiToBin_iff` — **which texts are read as their bits say.**
-/

namespace N2n

open Bytes

/-- `b2a`. -/
def b2a : List UInt8 :=
  [0x30, 0x31, 0x32, 0x33, 0x34, 0x35, 0x36, 0x37, 0x38, 0x39, 0x41, 0x42, 0x43, 0x44, 0x45, 0x46,
   0x47, 0x48, 0x49, 0x4a, 0x4b, 0x4c, 0x4d, 0x4e, 0x4f, 0x50, 0x51, 0x52, 0x53, 0x54, 0x55, 0x56,
   0x57, 0x58, 0x59, 0x5a, 0x61, 0x62, 0x63, 0x64, 0x65, 0x66, 0x67, 0x68, 0x69, 0x6a, 0x6b, 0x6c,
   0x6d, 0x6e, 0x6f, 0x70, 0x71, 0x72, 0x73, 0x74, 0x75, 0x76, 0x77, 0x78, 0x79, 0x7a, 0x2b, 0x2d]

/-! ### `bin_to_ascii` -/

/-- The six bits from `bit_count` on, as the body of the loop collects them. The shifts are those
of `int`. -/
def binSextet (inp : List UInt8) (bitCount : ℕ) : UInt8 :=
  let buf1 := inp.getD (bitCount / 8) 0
  let buf1 := (buf1.toUInt32 <<< UInt32.ofNat (bitCount % 8)).toUInt8
  let buf2 := if bitCount + 8 < 8 * inp.length then inp.getD (bitCount / 8 + 1) 0 else 0
  let buf2 := (buf2.toUInt32 >>> UInt32.ofNat (8 - bitCount % 8)).toUInt8
  (buf1 ||| buf2) >>> 2

/-- The loop of `bin_to_ascii` from `bit_count` on. -/
def binToAsciiLoop (inp : List UInt8) (bitCount : ℕ) : List UInt8 :=
  if bitCount < 8 * inp.length then
    b2a.getD (binSextet inp bitCount).toNat 0 :: binToAsciiLoop inp (bitCount + 6)
  else []
termination_by 8 * inp.length - bitCount

/-- `bin_to_ascii`: what is written to `out`. -/
def binToAscii (inp : List UInt8) : List UInt8 := binToAsciiLoop inp 0 ++ [0]

/-! ### The bits of a text -/

/-- The bits of a word, the highest first. -/
def msbs {w : ℕ} (v : BitVec w) : List Bool := (List.range w).map v.getMsbD

/-- The six bits of a character, which are clear for one outside the alphabet. -/
def keyValue (ch : UInt8) : BitVec 6 := BitVec.ofNat 6 ((b2a.idxOf? ch).getD 0)

/-- Six bits for each character of a text. -/
def keyBits (text : List UInt8) : List Bool := text.flatMap fun ch => msbs (keyValue ch)

/-- The bits of some bytes. -/
def byteBits (bytes : List UInt8) : List Bool := bytes.flatMap fun b => msbs b.toBitVec

/-- The characters outside the alphabet that pass the test of `ascii_to_bin`, among them `!`, `,`,
`.`, `/` and `:`. -/
def spillingChars : List UInt8 :=
  [0x21, 0x22, 0x23, 0x24, 0x25, 0x26, 0x27, 0x28, 0x29, 0x2a, 0x2c, 0x2e, 0x2f, 0x3a, 0x60,
   0x7b, 0x7c, 0x7d, 0x7e, 0x7f]

/-- The characters of which any bits are written: if the last one is the fifth, the ninth and so
on, none of its bits completes a byte. -/
def usedChars (text : List UInt8) : List UInt8 :=
  if text.length % 4 = 1 then text.dropLast else text

/-- The text is read as its bits say: as many whole bytes as there are, which are the first bits of
the text. What is behind them stays in `out`. -/
def ReadAsBits (text : List UInt8) : Prop :=
  ∀ out, ∃ bytes, asciiToBin out text = bytes ++ out.drop (6 * text.length / 8) ∧
    bytes.length = 6 * text.length / 8 ∧
    byteBits bytes = (keyBits text).take (8 * (6 * text.length / 8))

@[simp] theorem length_msbs {w : ℕ} (v : BitVec w) : (msbs v).length = w := by simp [msbs]

theorem msbs_six (v : BitVec 6) : msbs v =
    [v.getMsbD 0, v.getMsbD 1, v.getMsbD 2, v.getMsbD 3, v.getMsbD 4, v.getMsbD 5] := rfl

theorem msbs_eight (v : BitVec 8) : msbs v =
    [v.getMsbD 0, v.getMsbD 1, v.getMsbD 2, v.getMsbD 3, v.getMsbD 4, v.getMsbD 5, v.getMsbD 6,
     v.getMsbD 7] := rfl

theorem msbs_injective {w : ℕ} : Function.Injective (@msbs w) := by
  intro v v' heq
  apply BitVec.eq_of_getMsbD_eq
  intro i hi
  have hbit := congrArg (·.getD i false) heq
  simpa [msbs, hi] using hbit

@[simp] theorem length_byteBits (bytes : List UInt8) :
    (byteBits bytes).length = 8 * bytes.length := by
  induction bytes with
  | nil => rfl
  | cons b bytes ih =>
    simp only [byteBits, List.flatMap_cons, List.length_append, length_msbs,
      List.length_cons] at ih ⊢
    omega

/-- Bytes can be told from their bits. -/
theorem byteBits_injective {p q : List UInt8} (h : p.length = q.length)
    (heq : byteBits p = byteBits q) : p = q := by
  induction p generalizing q with
  | nil => exact (List.length_eq_zero_iff.mp h.symm).symm
  | cons b p ih =>
    cases q with
    | nil => cases h
    | cons b' q =>
      simp only [byteBits, List.flatMap_cons] at heq
      rw [List.append_eq_append_iff_of_size_eq_left (by simp)] at heq
      rw [ih (Nat.succ.inj h) heq.2, UInt8.toBitVec_inj.mp (msbs_injective heq.1)]

/-! ### Reading -/

/-- What a character adds to `buf`. -/
def asciiValue (ch : UInt8) : UInt16 :=
  if 0x20 < ch ∧ ch < 0x80 ∧ a2bTable.getD ch.toNat 0 ≠ 0xff then
    (a2bTable.getD (ch.toNat - 0x20) 0).toUInt16
  else 0

/-- The byte that is written behind two characters, with `k` bits left over. -/
def octet (k : ℕ) (v v' : UInt16) : UInt8 := (((v <<< 6) ||| v') >>> UInt16.ofNat k).toUInt8

/-- The bytes that are written for a text. -/
def textBytes : List UInt8 → List UInt8
  | a :: b :: c :: d :: rest =>
    octet 4 (asciiValue a) (asciiValue b) :: octet 2 (asciiValue b) (asciiValue c) ::
      octet 0 (asciiValue c) (asciiValue d) :: textBytes rest
  | [a, b, c] => [octet 4 (asciiValue a) (asciiValue b), octet 2 (asciiValue b) (asciiValue c)]
  | [a, b] => [octet 4 (asciiValue a) (asciiValue b)]
  | [_] => []
  | [] => []

/-- **The table, character by character**: the value in the alphabet, or nothing, or eight bits. -/
theorem asciiValue_eq (ch : UInt8) :
    asciiValue ch = if ch ∈ spillingChars then 0xff
      else ⟨(keyValue ch).setWidth 16⟩ := by
  have hall : ∀ n < 256, asciiValue (UInt8.ofNat n) =
      if UInt8.ofNat n ∈ spillingChars then 0xff
      else ⟨(keyValue (UInt8.ofNat n)).setWidth 16⟩ := by
    decide +kernel
  have hch := hall ch.toNat ch.toNat_lt
  rwa [UInt8.ofNat_toNat] at hch

theorem keyValue_of_spills {ch : UInt8} (h : ch ∈ spillingChars) : keyValue ch = 0 := by
  have hall : ∀ ch ∈ spillingChars, keyValue ch = 0 := by decide +kernel
  exact hall ch h

/-- What was in `buf` before the two characters is not written any more. -/
theorem octet_congr (buf v v' : UInt16) (k : ℕ) (hk : k = 0 ∨ k = 2 ∨ k = 4) :
    (((((buf <<< 6) ||| v) <<< 6) ||| v') >>> UInt16.ofNat k).toUInt8 = octet k v v' := by
  unfold octet
  apply UInt8.toBitVec_inj.mp
  ext i hi
  rcases hk with rfl | rfl | rfl <;> simp <;> interval_cases i <;> simp

/-- Two characters with six bits each. -/
theorem octet_bits (k : ℕ) (hk : k = 0 ∨ k = 2 ∨ k = 4) (x y : BitVec 6) :
    msbs (octet k ⟨x.setWidth 16⟩ ⟨y.setWidth 16⟩).toBitVec =
      ((msbs x ++ msbs y).drop (4 - k)).take 8 := by
  rcases hk with rfl | rfl | rfl <;>
    simp [octet, msbs_eight, msbs_six, BitVec.getMsbD, UInt16.toBitVec_or]

/-- Eight bits in the place of six: the first bit of the byte is set, and its last one. -/
theorem octet_spill_left {k : ℕ} (hk : k = 0 ∨ k = 2 ∨ k = 4) (v : UInt16) :
    (octet k 0xff v).toBitVec.getMsbD 0 = true := by
  rcases hk with rfl | rfl | rfl <;> simp [octet, BitVec.getMsbD, UInt16.toBitVec_or]

theorem octet_spill_right {k : ℕ} (hk : k = 0 ∨ k = 2 ∨ k = 4) (v : UInt16) :
    (octet k v 0xff).toBitVec.getMsbD 7 = true := by
  rcases hk with rfl | rfl | rfl <;> simp [octet, BitVec.getMsbD, UInt16.toBitVec_or]

/-- **The byte of two characters** has the bits of the characters exactly when both stay within
their six bits. -/
theorem octet_bits_iff {k : ℕ} (hk : k = 0 ∨ k = 2 ∨ k = 4) (a b : UInt8) :
    msbs (octet k (asciiValue a) (asciiValue b)).toBitVec =
        ((msbs (keyValue a) ++ msbs (keyValue b)).drop (4 - k)).take 8 ↔
      a ∉ spillingChars ∧ b ∉ spillingChars := by
  constructor
  · intro heq
    constructor
    · intro ha
      have hbit := congrArg (·.getD 0 false) heq
      rw [asciiValue_eq a, if_pos ha, keyValue_of_spills ha] at hbit
      simp only [msbs_eight, List.getD_cons_zero, octet_spill_left hk] at hbit
      rcases hk with rfl | rfl | rfl <;> simp [msbs_six] at hbit
    · intro hb
      have hbit := congrArg (·.getD 7 false) heq
      rw [asciiValue_eq b, if_pos hb, keyValue_of_spills hb] at hbit
      simp only [msbs_eight, List.getD_cons_succ, List.getD_cons_zero, octet_spill_right hk] at hbit
      rcases hk with rfl | rfl | rfl <;> simp [msbs_six] at hbit
  · rintro ⟨ha, hb⟩
    rw [asciiValue_eq a, asciiValue_eq b, if_neg ha, if_neg hb]
    exact octet_bits k hk _ _

theorem length_textBytes (s : List UInt8) : (textBytes s).length = 6 * s.length / 8 := by
  fun_induction textBytes s with
  | case1 a b c d rest ih =>
    simp only [List.length_cons, ih]
    omega
  | case2 a b c => simp
  | case3 a b => simp
  | case4 a => simp
  | case5 => simp

/-- The first of four characters. -/
theorem AsciiDecoder.char_first (buf : UInt16) (w rest : List UInt8) (ch : UInt8) :
    AsciiDecoder.char ⟨buf, 0, w ++ rest, w.length⟩ ch =
      ⟨(buf <<< 6) ||| asciiValue ch, 6, w ++ rest, w.length⟩ := by
  unfold AsciiDecoder.char asciiValue
  dsimp only
  rw [if_neg (by decide)]
  split_ifs
  · rfl
  · simp

/-- The others: with each of them a byte is complete. -/
theorem AsciiDecoder.char_next {k : ℕ} (hk : k = 0 ∨ k = 2 ∨ k = 4) (buf v : UInt16)
    (w rest : List UInt8) (ch : UInt8) :
    ∃ buf' : UInt16, AsciiDecoder.char ⟨(buf <<< 6) ||| v, k + 2, w ++ rest, w.length⟩ ch =
      ⟨(buf' <<< 6) ||| asciiValue ch, k, (w ++ [octet k v (asciiValue ch)]) ++ rest.drop 1,
        (w ++ [octet k v (asciiValue ch)]).length⟩ := by
  refine ⟨(buf <<< 6) ||| v, ?_⟩
  have hbuf : (if 0x20 < ch ∧ ch < 0x80 ∧ a2bTable.getD ch.toNat 0 ≠ 0xff then
      (((buf <<< 6) ||| v) <<< 6) ||| (a2bTable.getD (ch.toNat - 0x20) 0).toUInt16
      else ((buf <<< 6) ||| v) <<< 6) = (((buf <<< 6) ||| v) <<< 6) ||| asciiValue ch := by
    unfold asciiValue
    split_ifs
    · rfl
    · simp
  unfold AsciiDecoder.char
  dsimp only
  rw [hbuf, if_pos (by omega), show k + 2 + 6 - 8 = k by omega, octet_congr buf v _ k hk]
  simp [overwrite]

/-- The loop, from a character on with which a byte begins. -/
theorem scan_eq (s : List UInt8) (buf : UInt16) (w rest : List UInt8) :
    (s.foldl AsciiDecoder.char ⟨buf, 0, w ++ rest, w.length⟩).out =
      w ++ textBytes s ++ rest.drop (textBytes s).length := by
  fun_induction textBytes s generalizing buf w rest with
  | case1 a b c d s ih =>
    simp only [List.foldl_cons, AsciiDecoder.char_first]
    obtain ⟨buf₁, h₁⟩ := AsciiDecoder.char_next (k := 4) (by simp) buf (asciiValue a) w rest b
    rw [h₁]
    obtain ⟨buf₂, h₂⟩ := AsciiDecoder.char_next (k := 2) (by simp) buf₁ (asciiValue b) _
      (rest.drop 1) c
    rw [h₂]
    obtain ⟨buf₃, h₃⟩ := AsciiDecoder.char_next (k := 0) (by simp) buf₂ (asciiValue c) _
      ((rest.drop 1).drop 1) d
    rw [h₃, ih]
    simp
    omega
  | case2 a b c =>
    simp only [List.foldl_cons, List.foldl_nil, AsciiDecoder.char_first]
    obtain ⟨buf₁, h₁⟩ := AsciiDecoder.char_next (k := 4) (by simp) buf (asciiValue a) w rest b
    rw [h₁]
    obtain ⟨buf₂, h₂⟩ := AsciiDecoder.char_next (k := 2) (by simp) buf₁ (asciiValue b) _
      (rest.drop 1) c
    rw [h₂]
    simp
  | case3 a b =>
    simp only [List.foldl_cons, List.foldl_nil, AsciiDecoder.char_first]
    obtain ⟨buf₁, h₁⟩ := AsciiDecoder.char_next (k := 4) (by simp) buf (asciiValue a) w rest b
    rw [h₁]
    simp
  | case4 a => simp [AsciiDecoder.char_first]
  | case5 => simp

theorem asciiToBin_eq (out s : List UInt8) :
    asciiToBin out s = textBytes s ++ out.drop (6 * s.length / 8) := by
  have hscan := scan_eq s 0 [] out
  rwa [List.nil_append, List.nil_append, length_textBytes] at hscan

theorem usedChars_four (a b c d : UInt8) (s : List UInt8) :
    usedChars (a :: b :: c :: d :: s) = a :: b :: c :: d :: usedChars s := by
  unfold usedChars
  simp only [List.length_cons]
  by_cases h : s.length % 4 = 1
  · have hne : s ≠ [] := by
      rintro rfl
      simp at h
    rw [if_pos h, if_pos (by omega)]
    simp [List.dropLast_cons_of_ne_nil hne]
  · rw [if_neg h, if_neg (by omega)]

/-- The bits of three bytes, cut out of those of four characters. -/
theorem four_bits (x y z u : BitVec 6) :
    ((msbs x ++ msbs y).drop (4 - 4)).take 8 ++ (((msbs y ++ msbs z).drop (4 - 2)).take 8 ++
      ((msbs z ++ msbs u).drop (4 - 0)).take 8) = msbs x ++ (msbs y ++ (msbs z ++ msbs u)) := by
  rfl

theorem keyBits_four (a b c d : UInt8) (s : List UInt8) (n : ℕ) :
    (keyBits (a :: b :: c :: d :: s)).take (24 + n) =
      ((msbs (keyValue a) ++ msbs (keyValue b)).drop (4 - 4)).take 8 ++
        (((msbs (keyValue b) ++ msbs (keyValue c)).drop (4 - 2)).take 8 ++
          (((msbs (keyValue c) ++ msbs (keyValue d)).drop (4 - 0)).take 8 ++
            (keyBits s).take n)) := by
  have hbits : keyBits (a :: b :: c :: d :: s) =
      (msbs (keyValue a) ++ (msbs (keyValue b) ++ (msbs (keyValue c) ++ msbs (keyValue d)))) ++
        keyBits s := by
    simp [keyBits]
  rw [hbits, ← four_bits]
  have hlen : (((msbs (keyValue a) ++ msbs (keyValue b)).drop (4 - 4)).take 8 ++
      (((msbs (keyValue b) ++ msbs (keyValue c)).drop (4 - 2)).take 8 ++
        ((msbs (keyValue c) ++ msbs (keyValue d)).drop (4 - 0)).take 8)).length = 24 := by
    simp
  rw [← hlen, List.take_length_add_append]
  simp

/-- **Four characters at a time**, the bits are those of the text if no character spills. -/
theorem textBytes_bits_iff (s : List UInt8) :
    byteBits (textBytes s) = (keyBits s).take (8 * (6 * s.length / 8)) ↔
      ∀ ch ∈ usedChars s, ch ∉ spillingChars := by
  fun_induction textBytes s with
  | case1 a b c d s ih =>
    have htake : 8 * (6 * (a :: b :: c :: d :: s).length / 8) =
        24 + 8 * (6 * s.length / 8) := by
      simp only [List.length_cons]
      omega
    rw [htake, usedChars_four, keyBits_four]
    simp only [byteBits, List.flatMap_cons] at ih ⊢
    rw [List.append_eq_append_iff_of_size_eq_left (by simp),
      List.append_eq_append_iff_of_size_eq_left (by simp),
      List.append_eq_append_iff_of_size_eq_left (by simp), octet_bits_iff (by simp),
      octet_bits_iff (by simp),
      octet_bits_iff (by simp), ih]
    simp
    tauto
  | case2 a b c =>
    have htake : (keyBits [a, b, c]).take (8 * (6 * [a, b, c].length / 8)) =
        ((msbs (keyValue a) ++ msbs (keyValue b)).drop (4 - 4)).take 8 ++
        ((msbs (keyValue b) ++ msbs (keyValue c)).drop (4 - 2)).take 8 := by
      simp [keyBits, msbs_six]
    rw [htake]
    simp only [byteBits, List.flatMap_cons, List.flatMap_nil, List.append_nil]
    rw [List.append_eq_append_iff_of_size_eq_left (by simp), octet_bits_iff (by simp),
      octet_bits_iff (by simp)]
    simp [usedChars]
    tauto
  | case3 a b =>
    have htake : (keyBits [a, b]).take (8 * (6 * [a, b].length / 8)) =
        ((msbs (keyValue a) ++ msbs (keyValue b)).drop (4 - 4)).take 8 := by
      simp [keyBits, msbs_six]
    rw [htake]
    simp only [byteBits, List.flatMap_cons, List.flatMap_nil, List.append_nil]
    rw [octet_bits_iff (by simp)]
    simp [usedChars]
  | case4 a => simp [byteBits, usedChars]
  | case5 => simp [byteBits, usedChars]
/-- **Which texts are read as their bits say**: those in which no character that is used is one
of those that pass the test without being valid. -/
theorem asciiToBin_iff (text : List UInt8) :
    ReadAsBits text ↔ ∀ ch ∈ usedChars text, ch ∉ spillingChars := by
  rw [← textBytes_bits_iff]
  constructor
  · intro hread
    obtain ⟨bytes, heq, -, hbits⟩ := hread []
    rw [asciiToBin_eq, List.drop_nil, List.append_nil, List.append_nil] at heq
    rw [heq, hbits]
  · intro hbits out
    exact ⟨textBytes text, asciiToBin_eq out text, length_textBytes text, hbits⟩

/-- A character of another encoding: the first byte of `A/` is `00101111`, and not `00101000`. -/
theorem not_readAsBits_slash : ¬ ReadAsBits [0x41, 0x2f] := by
  intro hread
  obtain ⟨bytes, heq, -, hbits⟩ := hread []
  have hbytes : asciiToBin [] [0x41, 0x2f] = [0x2f] := by decide
  rw [hbytes, List.drop_nil, List.append_nil] at heq
  rw [← heq] at hbits
  exact absurd hbits (by decide)

/-! ### Writing -/

theorem binSextet_shift (x y z : UInt8) (rest : List UInt8) (n : ℕ) :
    binSextet (x :: y :: z :: rest) (24 + n) = binSextet rest n := by
  have hdiv : (24 + n) / 8 = n / 8 + 3 := by omega
  have hmod : (24 + n) % 8 = n % 8 := by omega
  have hlast : 24 + n + 8 < 8 * (x :: y :: z :: rest).length ↔ n + 8 < 8 * rest.length := by
    simp only [List.length_cons]
    omega
  unfold binSextet
  simp only [hdiv, hmod, hlast]
  rfl

theorem binToAsciiLoop_shift (x y z : UInt8) (rest : List UInt8) (n : ℕ) :
    binToAsciiLoop (x :: y :: z :: rest) (24 + n) = binToAsciiLoop rest n := by
  fun_induction binToAsciiLoop rest n with
  | case1 n h ih =>
    rw [binToAsciiLoop, if_pos (by simp only [List.length_cons]; omega), binSextet_shift,
      Nat.add_assoc, ih]
  | case2 n h =>
    rw [binToAsciiLoop, if_neg (by simp only [List.length_cons]; omega)]

theorem length_binToAsciiLoop (inp : List UInt8) (n : ℕ) :
    (binToAsciiLoop inp n).length = (8 * inp.length - n + 5) / 6 := by
  fun_induction binToAsciiLoop inp n with
  | case1 n h ih =>
    rw [List.length_cons, ih]
    omega
  | case2 n h =>
    rw [List.length_nil]
    omega

theorem binSextet_lt (inp : List UInt8) (n : ℕ) : (binSextet inp n).toNat < 64 := by
  unfold binSextet
  rw [UInt8.toNat_shiftRight, Nat.shiftRight_eq_div_pow]
  generalize hb : (_ ||| _ : UInt8) = b
  have hlt := b.toNat_lt
  change b.toNat / 2 ^ 2 < 64
  omega

theorem mem_binToAsciiLoop {inp : List UInt8} {n : ℕ} {c : UInt8}
    (h : c ∈ binToAsciiLoop inp n) : c ∈ b2a := by
  fun_induction binToAsciiLoop inp n with
  | case1 n hn ih =>
    rcases List.mem_cons.mp h with rfl | h
    · have hlt := binSextet_lt inp n
      rw [List.getD_eq_getElem _ _ hlt]
      exact List.getElem_mem _
    · exact ih h
  | case2 n hn => cases h

/-- The bits of a character that is written. -/
theorem msbs_b2a {s : UInt8} (h : s.toNat < 64) :
    msbs (keyValue (b2a.getD s.toNat 0)) = (msbs s.toBitVec).drop 2 := by
  have hall : ∀ n < 64, msbs (keyValue (b2a.getD n 0)) = (msbs (BitVec.ofNat 8 n)).drop 2 := by
    decide +kernel
  have hs := hall s.toNat h
  rwa [← UInt8.toNat_toBitVec, BitVec.ofNat_toNat, BitVec.setWidth_eq, UInt8.toNat_toBitVec] at hs

/-- The bits of the first character from `n` on. -/
theorem keyBits_loop_cons {inp : List UInt8} {n : ℕ} (h : n < 8 * inp.length) :
    keyBits (binToAsciiLoop inp n) =
      (msbs (binSextet inp n).toBitVec).drop 2 ++ keyBits (binToAsciiLoop inp (n + 6)) := by
  rw [binToAsciiLoop, if_pos h, keyBits, List.flatMap_cons, msbs_b2a (binSextet_lt inp n)]
  rfl

theorem keyBits_loop_nil {inp : List UInt8} {n : ℕ} (h : ¬ n < 8 * inp.length) :
    keyBits (binToAsciiLoop inp n) = [] := by
  rw [binToAsciiLoop, if_neg h]
  rfl

/-- **The text has the bits of the key**, and up to four more. -/
theorem keyBits_binToAsciiLoop (inp : List UInt8) :
    ∃ pad, keyBits (binToAsciiLoop inp 0) = byteBits inp ++ pad := by
  match inp with
  | [] => exact ⟨[], keyBits_loop_nil (by simp)⟩
  | [x] =>
    refine ⟨List.replicate 4 false, ?_⟩
    rw [keyBits_loop_cons (by simp), keyBits_loop_cons (by simp), keyBits_loop_nil (by simp)]
    simp [binSextet, msbs_eight, BitVec.getMsbD, byteBits]
  | [x, y] =>
    refine ⟨List.replicate 2 false, ?_⟩
    rw [keyBits_loop_cons (by simp), keyBits_loop_cons (by simp), keyBits_loop_cons (by simp),
      keyBits_loop_nil (by simp)]
    simp [binSextet, msbs_eight, BitVec.getMsbD, byteBits]
  | x :: y :: z :: rest =>
    obtain ⟨pad, hpad⟩ := keyBits_binToAsciiLoop rest
    refine ⟨pad, ?_⟩
    have hlong : ∀ {n}, n < 24 → n < 8 * (x :: y :: z :: rest).length := by
      intro n hn
      simp only [List.length_cons]
      omega
    rw [keyBits_loop_cons (hlong (by omega)), keyBits_loop_cons (hlong (by omega)),
      keyBits_loop_cons (hlong (by omega)), keyBits_loop_cons (hlong (by omega)),
      show 0 + 6 + 6 + 6 + 6 = 24 + 0 from rfl, binToAsciiLoop_shift, hpad]
    have hy : 14 < 8 * (rest.length + 1 + 1 + 1) := by omega
    have hz : 20 < 8 * (rest.length + 1 + 1 + 1) := by omega
    simp [binSextet, msbs_eight, BitVec.getMsbD, byteBits, hy, hz]

theorem cstr_binToAscii (inp : List UInt8) : cstr (binToAscii inp) = binToAsciiLoop inp 0 := by
  have hnonzero : ∀ c ∈ binToAsciiLoop inp 0, (c != 0) = true := by
    have hall : ∀ c ∈ b2a, (c != 0) = true := by decide +kernel
    exact fun c hc => hall c (mem_binToAsciiLoop hc)
  rw [cstr, binToAscii, List.takeWhile_append_of_pos hnonzero]
  simp

/-- **What is written is read back**: `bin_to_ascii` writes as many characters of the alphabet as
the bits need, and a terminator; and from this text `ascii_to_bin` writes the same bytes. -/
theorem asciiToBin_binToAscii (inp out : List UInt8) :
    ∃ chars, binToAscii inp = chars ++ [0] ∧ chars.length = (8 * inp.length + 5) / 6 ∧
      (∀ c ∈ chars, c ∈ b2a) ∧
      asciiToBin out (cstr (binToAscii inp)) = inp ++ out.drop inp.length := by
  have hlen : (binToAsciiLoop inp 0).length = (8 * inp.length + 5) / 6 := by
    rw [length_binToAsciiLoop, Nat.sub_zero]
  have hsize : 6 * (binToAsciiLoop inp 0).length / 8 = inp.length := by
    rw [hlen]
    omega
  refine ⟨binToAsciiLoop inp 0, rfl, hlen, fun c hc => mem_binToAsciiLoop hc, ?_⟩
  -- the alphabet has none of the characters that spill
  have hvalid : ∀ ch ∈ usedChars (binToAsciiLoop inp 0), ch ∉ spillingChars := by
    have hall : ∀ ch ∈ b2a, ch ∉ spillingChars := by decide +kernel
    intro ch hch
    have hmem : ch ∈ binToAsciiLoop inp 0 := by
      unfold usedChars at hch
      split_ifs at hch
      · exact List.mem_of_mem_dropLast hch
      · exact hch
    exact hall ch (mem_binToAsciiLoop hmem)
  have hbits := (textBytes_bits_iff _).mpr hvalid
  obtain ⟨pad, hpad⟩ := keyBits_binToAsciiLoop inp
  rw [hsize, hpad, List.take_left' (length_byteBits inp)] at hbits
  have hbytes : textBytes (binToAsciiLoop inp 0) = inp :=
    byteBits_injective (by rw [length_textBytes, hsize]) hbits
  rw [cstr_binToAscii, asciiToBin_eq, hsize, hbytes]

end N2n
