import N2nTun.CipherModes
import N2nTun.Lib.Rounds
import N2nTun.Lib.Word32

/-!
# Twofish

`tf.c` on a little-endian machine.  The key fills four tables with the key-dependent part of the
round function.  The decryption in CBC mode works on three blocks at once, and a receiver that
undoes the stealing of cipher text calls it with one buffer for input and output.

## Main definitions

* `q0`, `q1`, `mult5B`, `multEF`, `rs` — the tables.
* `h`, `fullKey`, `fkh` — the function of the key schedule, and its fully keyed tables.
* `keySched`, `tfInit` — the key schedule.
* `encRound`, `decRound`, `twofishInternalEncrypt`, `twofishInternalDecrypt` — a block.
* `tfCbcEncrypt`, `tfCbcDecrypt` — the CBC mode, with three rails.

## Main results

* `mult5B_eq`, `multEF_eq` — the tables are multiplications in the field with 256 elements.
* `fkh_fullKey` — **the tables agree with the function that they were made from.**
* `twofish_decrypt_encrypt` — **decryption undoes encryption**, for every key.
* `tfCbcDecrypt_decrypts` — **three rails at once do what one does**, also with one buffer.
* `tf_implements` — it is a block cipher in CBC mode.
* `tf_cbc_undone` — **what the one side encrypts the other side decrypts.**
-/

namespace N2n.Twofish

open Bytes

/-! ### Tables -/

/-- `RS`. -/
def rs : List (List UInt8) := [
  [0x01, 0xA4, 0x55, 0x87, 0x5A, 0x58, 0xDB, 0x9E],
  [0xA4, 0x56, 0x82, 0xF3, 0x1E, 0xC6, 0x68, 0xE5],
  [0x02, 0xA1, 0xFC, 0xC1, 0x47, 0xAE, 0x3D, 0x19],
  [0xA4, 0x55, 0x87, 0x5A, 0x58, 0xDB, 0x9E, 0x03]]

/-- `Q0`. -/
def q0 : List UInt8 := [
  0xA9, 0x67, 0xB3, 0xE8, 0x04, 0xFD, 0xA3, 0x76, 0x9A, 0x92, 0x80, 0x78, 0xE4, 0xDD, 0xD1, 0x38,
  0x0D, 0xC6, 0x35, 0x98, 0x18, 0xF7, 0xEC, 0x6C, 0x43, 0x75, 0x37, 0x26, 0xFA, 0x13, 0x94, 0x48,
  0xF2, 0xD0, 0x8B, 0x30, 0x84, 0x54, 0xDF, 0x23, 0x19, 0x5B, 0x3D, 0x59, 0xF3, 0xAE, 0xA2, 0x82,
  0x63, 0x01, 0x83, 0x2E, 0xD9, 0x51, 0x9B, 0x7C, 0xA6, 0xEB, 0xA5, 0xBE, 0x16, 0x0C, 0xE3, 0x61,
  0xC0, 0x8C, 0x3A, 0xF5, 0x73, 0x2C, 0x25, 0x0B, 0xBB, 0x4E, 0x89, 0x6B, 0x53, 0x6A, 0xB4, 0xF1,
  0xE1, 0xE6, 0xBD, 0x45, 0xE2, 0xF4, 0xB6, 0x66, 0xCC, 0x95, 0x03, 0x56, 0xD4, 0x1C, 0x1E, 0xD7,
  0xFB, 0xC3, 0x8E, 0xB5, 0xE9, 0xCF, 0xBF, 0xBA, 0xEA, 0x77, 0x39, 0xAF, 0x33, 0xC9, 0x62, 0x71,
  0x81, 0x79, 0x09, 0xAD, 0x24, 0xCD, 0xF9, 0xD8, 0xE5, 0xC5, 0xB9, 0x4D, 0x44, 0x08, 0x86, 0xE7,
  0xA1, 0x1D, 0xAA, 0xED, 0x06, 0x70, 0xB2, 0xD2, 0x41, 0x7B, 0xA0, 0x11, 0x31, 0xC2, 0x27, 0x90,
  0x20, 0xF6, 0x60, 0xFF, 0x96, 0x5C, 0xB1, 0xAB, 0x9E, 0x9C, 0x52, 0x1B, 0x5F, 0x93, 0x0A, 0xEF,
  0x91, 0x85, 0x49, 0xEE, 0x2D, 0x4F, 0x8F, 0x3B, 0x47, 0x87, 0x6D, 0x46, 0xD6, 0x3E, 0x69, 0x64,
  0x2A, 0xCE, 0xCB, 0x2F, 0xFC, 0x97, 0x05, 0x7A, 0xAC, 0x7F, 0xD5, 0x1A, 0x4B, 0x0E, 0xA7, 0x5A,
  0x28, 0x14, 0x3F, 0x29, 0x88, 0x3C, 0x4C, 0x02, 0xB8, 0xDA, 0xB0, 0x17, 0x55, 0x1F, 0x8A, 0x7D,
  0x57, 0xC7, 0x8D, 0x74, 0xB7, 0xC4, 0x9F, 0x72, 0x7E, 0x15, 0x22, 0x12, 0x58, 0x07, 0x99, 0x34,
  0x6E, 0x50, 0xDE, 0x68, 0x65, 0xBC, 0xDB, 0xF8, 0xC8, 0xA8, 0x2B, 0x40, 0xDC, 0xFE, 0x32, 0xA4,
  0xCA, 0x10, 0x21, 0xF0, 0xD3, 0x5D, 0x0F, 0x00, 0x6F, 0x9D, 0x36, 0x42, 0x4A, 0x5E, 0xC1, 0xE0]

/-- `Q1`. -/
def q1 : List UInt8 := [
  0x75, 0xF3, 0xC6, 0xF4, 0xDB, 0x7B, 0xFB, 0xC8, 0x4A, 0xD3, 0xE6, 0x6B, 0x45, 0x7D, 0xE8, 0x4B,
  0xD6, 0x32, 0xD8, 0xFD, 0x37, 0x71, 0xF1, 0xE1, 0x30, 0x0F, 0xF8, 0x1B, 0x87, 0xFA, 0x06, 0x3F,
  0x5E, 0xBA, 0xAE, 0x5B, 0x8A, 0x00, 0xBC, 0x9D, 0x6D, 0xC1, 0xB1, 0x0E, 0x80, 0x5D, 0xD2, 0xD5,
  0xA0, 0x84, 0x07, 0x14, 0xB5, 0x90, 0x2C, 0xA3, 0xB2, 0x73, 0x4C, 0x54, 0x92, 0x74, 0x36, 0x51,
  0x38, 0xB0, 0xBD, 0x5A, 0xFC, 0x60, 0x62, 0x96, 0x6C, 0x42, 0xF7, 0x10, 0x7C, 0x28, 0x27, 0x8C,
  0x13, 0x95, 0x9C, 0xC7, 0x24, 0x46, 0x3B, 0x70, 0xCA, 0xE3, 0x85, 0xCB, 0x11, 0xD0, 0x93, 0xB8,
  0xA6, 0x83, 0x20, 0xFF, 0x9F, 0x77, 0xC3, 0xCC, 0x03, 0x6F, 0x08, 0xBF, 0x40, 0xE7, 0x2B, 0xE2,
  0x79, 0x0C, 0xAA, 0x82, 0x41, 0x3A, 0xEA, 0xB9, 0xE4, 0x9A, 0xA4, 0x97, 0x7E, 0xDA, 0x7A, 0x17,
  0x66, 0x94, 0xA1, 0x1D, 0x3D, 0xF0, 0xDE, 0xB3, 0x0B, 0x72, 0xA7, 0x1C, 0xEF, 0xD1, 0x53, 0x3E,
  0x8F, 0x33, 0x26, 0x5F, 0xEC, 0x76, 0x2A, 0x49, 0x81, 0x88, 0xEE, 0x21, 0xC4, 0x1A, 0xEB, 0xD9,
  0xC5, 0x39, 0x99, 0xCD, 0xAD, 0x31, 0x8B, 0x01, 0x18, 0x23, 0xDD, 0x1F, 0x4E, 0x2D, 0xF9, 0x48,
  0x4F, 0xF2, 0x65, 0x8E, 0x78, 0x5C, 0x58, 0x19, 0x8D, 0xE5, 0x98, 0x57, 0x67, 0x7F, 0x05, 0x64,
  0xAF, 0x63, 0xB6, 0xFE, 0xF5, 0xB7, 0x3C, 0xA5, 0xCE, 0xE9, 0x68, 0x44, 0xE0, 0x4D, 0x43, 0x69,
  0x29, 0x2E, 0xAC, 0x15, 0x59, 0xA8, 0x0A, 0x9E, 0x6E, 0x47, 0xDF, 0x34, 0x35, 0x6A, 0xCF, 0xDC,
  0x22, 0xC9, 0xC0, 0x9B, 0x89, 0xD4, 0xED, 0xAB, 0x12, 0xA2, 0x0D, 0x52, 0xBB, 0x02, 0x2F, 0xA9,
  0xD7, 0x61, 0x1E, 0xB4, 0x50, 0x04, 0xF6, 0xC2, 0x16, 0x25, 0x86, 0x56, 0x55, 0x09, 0xBE, 0x91]

/-- `mult5B`. -/
def mult5B : List UInt8 := [
  0x00, 0x5B, 0xB6, 0xED, 0x05, 0x5E, 0xB3, 0xE8, 0x0A, 0x51, 0xBC, 0xE7, 0x0F, 0x54, 0xB9, 0xE2,
  0x14, 0x4F, 0xA2, 0xF9, 0x11, 0x4A, 0xA7, 0xFC, 0x1E, 0x45, 0xA8, 0xF3, 0x1B, 0x40, 0xAD, 0xF6,
  0x28, 0x73, 0x9E, 0xC5, 0x2D, 0x76, 0x9B, 0xC0, 0x22, 0x79, 0x94, 0xCF, 0x27, 0x7C, 0x91, 0xCA,
  0x3C, 0x67, 0x8A, 0xD1, 0x39, 0x62, 0x8F, 0xD4, 0x36, 0x6D, 0x80, 0xDB, 0x33, 0x68, 0x85, 0xDE,
  0x50, 0x0B, 0xE6, 0xBD, 0x55, 0x0E, 0xE3, 0xB8, 0x5A, 0x01, 0xEC, 0xB7, 0x5F, 0x04, 0xE9, 0xB2,
  0x44, 0x1F, 0xF2, 0xA9, 0x41, 0x1A, 0xF7, 0xAC, 0x4E, 0x15, 0xF8, 0xA3, 0x4B, 0x10, 0xFD, 0xA6,
  0x78, 0x23, 0xCE, 0x95, 0x7D, 0x26, 0xCB, 0x90, 0x72, 0x29, 0xC4, 0x9F, 0x77, 0x2C, 0xC1, 0x9A,
  0x6C, 0x37, 0xDA, 0x81, 0x69, 0x32, 0xDF, 0x84, 0x66, 0x3D, 0xD0, 0x8B, 0x63, 0x38, 0xD5, 0x8E,
  0xA0, 0xFB, 0x16, 0x4D, 0xA5, 0xFE, 0x13, 0x48, 0xAA, 0xF1, 0x1C, 0x47, 0xAF, 0xF4, 0x19, 0x42,
  0xB4, 0xEF, 0x02, 0x59, 0xB1, 0xEA, 0x07, 0x5C, 0xBE, 0xE5, 0x08, 0x53, 0xBB, 0xE0, 0x0D, 0x56,
  0x88, 0xD3, 0x3E, 0x65, 0x8D, 0xD6, 0x3B, 0x60, 0x82, 0xD9, 0x34, 0x6F, 0x87, 0xDC, 0x31, 0x6A,
  0x9C, 0xC7, 0x2A, 0x71, 0x99, 0xC2, 0x2F, 0x74, 0x96, 0xCD, 0x20, 0x7B, 0x93, 0xC8, 0x25, 0x7E,
  0xF0, 0xAB, 0x46, 0x1D, 0xF5, 0xAE, 0x43, 0x18, 0xFA, 0xA1, 0x4C, 0x17, 0xFF, 0xA4, 0x49, 0x12,
  0xE4, 0xBF, 0x52, 0x09, 0xE1, 0xBA, 0x57, 0x0C, 0xEE, 0xB5, 0x58, 0x03, 0xEB, 0xB0, 0x5D, 0x06,
  0xD8, 0x83, 0x6E, 0x35, 0xDD, 0x86, 0x6B, 0x30, 0xD2, 0x89, 0x64, 0x3F, 0xD7, 0x8C, 0x61, 0x3A,
  0xCC, 0x97, 0x7A, 0x21, 0xC9, 0x92, 0x7F, 0x24, 0xC6, 0x9D, 0x70, 0x2B, 0xC3, 0x98, 0x75, 0x2E]

/-- `multEF`. -/
def multEF : List UInt8 := [
  0x00, 0xEF, 0xB7, 0x58, 0x07, 0xE8, 0xB0, 0x5F, 0x0E, 0xE1, 0xB9, 0x56, 0x09, 0xE6, 0xBE, 0x51,
  0x1C, 0xF3, 0xAB, 0x44, 0x1B, 0xF4, 0xAC, 0x43, 0x12, 0xFD, 0xA5, 0x4A, 0x15, 0xFA, 0xA2, 0x4D,
  0x38, 0xD7, 0x8F, 0x60, 0x3F, 0xD0, 0x88, 0x67, 0x36, 0xD9, 0x81, 0x6E, 0x31, 0xDE, 0x86, 0x69,
  0x24, 0xCB, 0x93, 0x7C, 0x23, 0xCC, 0x94, 0x7B, 0x2A, 0xC5, 0x9D, 0x72, 0x2D, 0xC2, 0x9A, 0x75,
  0x70, 0x9F, 0xC7, 0x28, 0x77, 0x98, 0xC0, 0x2F, 0x7E, 0x91, 0xC9, 0x26, 0x79, 0x96, 0xCE, 0x21,
  0x6C, 0x83, 0xDB, 0x34, 0x6B, 0x84, 0xDC, 0x33, 0x62, 0x8D, 0xD5, 0x3A, 0x65, 0x8A, 0xD2, 0x3D,
  0x48, 0xA7, 0xFF, 0x10, 0x4F, 0xA0, 0xF8, 0x17, 0x46, 0xA9, 0xF1, 0x1E, 0x41, 0xAE, 0xF6, 0x19,
  0x54, 0xBB, 0xE3, 0x0C, 0x53, 0xBC, 0xE4, 0x0B, 0x5A, 0xB5, 0xED, 0x02, 0x5D, 0xB2, 0xEA, 0x05,
  0xE0, 0x0F, 0x57, 0xB8, 0xE7, 0x08, 0x50, 0xBF, 0xEE, 0x01, 0x59, 0xB6, 0xE9, 0x06, 0x5E, 0xB1,
  0xFC, 0x13, 0x4B, 0xA4, 0xFB, 0x14, 0x4C, 0xA3, 0xF2, 0x1D, 0x45, 0xAA, 0xF5, 0x1A, 0x42, 0xAD,
  0xD8, 0x37, 0x6F, 0x80, 0xDF, 0x30, 0x68, 0x87, 0xD6, 0x39, 0x61, 0x8E, 0xD1, 0x3E, 0x66, 0x89,
  0xC4, 0x2B, 0x73, 0x9C, 0xC3, 0x2C, 0x74, 0x9B, 0xCA, 0x25, 0x7D, 0x92, 0xCD, 0x22, 0x7A, 0x95,
  0x90, 0x7F, 0x27, 0xC8, 0x97, 0x78, 0x20, 0xCF, 0x9E, 0x71, 0x29, 0xC6, 0x99, 0x76, 0x2E, 0xC1,
  0x8C, 0x63, 0x3B, 0xD4, 0x8B, 0x64, 0x3C, 0xD3, 0x82, 0x6D, 0x35, 0xDA, 0x85, 0x6A, 0x32, 0xDD,
  0xA8, 0x47, 0x1F, 0xF0, 0xAF, 0x40, 0x18, 0xF7, 0xA6, 0x49, 0x11, 0xFE, 0xA1, 0x4E, 0x16, 0xF9,
  0xB4, 0x5B, 0x03, 0xEC, 0xB3, 0x5C, 0x04, 0xEB, 0xBA, 0x55, 0x0D, 0xE2, 0xBD, 0x52, 0x0A, 0xE5]

/-! ### Arithmetic of polynomials -/

/-- The loop of `polyMult` while `a` is not zero; it has no more than 32 bits. -/
def polyMultLoop : ℕ → UInt32 → UInt32 → UInt32 → UInt32
  | 0, t, _, _ => t
  | n + 1, t, a, b =>
    if a = 0 then t
    else polyMultLoop n (if a &&& 1 ≠ 0 then t ^^^ b else t) (a >>> 1) (b <<< 1)

/-- `polyMult`. -/
def polyMult (a b : UInt32) : UInt32 := polyMultLoop 32 0 a b

/-- `gfMod`: the remainder of a polynomial. -/
def gfMod (t modulus : UInt32) : UInt32 :=
  ((List.range 8).foldl (fun (t, modulus) _ =>
    let tt := t ^^^ modulus
    (if tt < t then tt else t, modulus >>> 1)) (t, modulus <<< 7)).1

/-- `gfMult`. -/
def gfMult (a b modulus : UInt32) : UInt32 := gfMod (polyMult a b) modulus

/-- `RS_MOD`. -/
def rsMod : UInt32 := 0x14D

/-- `RSMatrixMultiply`. -/
def rsMatrixMultiply (sd : List UInt8) : UInt32 :=
  let t (j : ℕ) : UInt8 := (List.range 8).foldl (fun t k =>
    t ^^^ (gfMult ((rs.getD j []).getD k 0).toUInt32 (sd.getD k 0).toUInt32 rsMod).toUInt8) 0
  be32 (t 3) (t 2) (t 1) (t 0)

/-! ### The round function -/

/-- The variables `y0` to `y3`. -/
structure Lanes where
  y0 : UInt8
  y1 : UInt8
  y2 : UInt8
  y3 : UInt8

/-- `case 4` in `h` and in `fullKey`. -/
def case4 (l : List UInt32) (y : Lanes) : Lanes :=
  let x := l.getD 3 0
  ⟨look q1 y.y0 ^^^ b0 x, look q0 y.y1 ^^^ b1 x, look q0 y.y2 ^^^ b2 x, look q1 y.y3 ^^^ b3 x⟩

/-- `case 3`. -/
def case3 (l : List UInt32) (y : Lanes) : Lanes :=
  let x := l.getD 2 0
  ⟨look q1 y.y0 ^^^ b0 x, look q1 y.y1 ^^^ b1 x, look q0 y.y2 ^^^ b2 x, look q0 y.y3 ^^^ b3 x⟩

/-- `case 2`. -/
def case2 (l : List UInt32) (y : Lanes) : Lanes :=
  let x := l.getD 0 0
  let x' := l.getD 1 0
  ⟨look q1 (look q0 (look q0 y.y0 ^^^ b0 x') ^^^ b0 x),
    look q0 (look q0 (look q1 y.y1 ^^^ b1 x') ^^^ b1 x),
    look q1 (look q1 (look q0 y.y2 ^^^ b2 x') ^^^ b2 x),
    look q0 (look q1 (look q1 y.y3 ^^^ b3 x') ^^^ b3 x)⟩

/-- The `switch` over `k`, whose cases fall through. -/
def permuted (l : List UInt32) (k : ℕ) (y : Lanes) : Lanes :=
  match k with
  | 4 => case2 l (case3 l (case4 l y))
  | 3 => case2 l (case3 l y)
  | 2 => case2 l y
  | _ => y

/-- `h`. -/
def h (x : UInt32) (l : List UInt32) (k : ℕ) : UInt32 :=
  let y := permuted l k ⟨b0 x, b1 x, b2 x, b3 x⟩
  -- inline the MDS matrix multiply
  let z0 := look multEF y.y0 ^^^ y.y1 ^^^ look multEF y.y2 ^^^ look mult5B y.y3
  let z1 := look multEF y.y0 ^^^ look mult5B y.y1 ^^^ y.y2 ^^^ look multEF y.y3
  let z2 := look mult5B y.y0 ^^^ look multEF y.y1 ^^^ look multEF y.y2 ^^^ y.y3
  let z3 := y.y0 ^^^ look multEF y.y1 ^^^ look mult5B y.y2 ^^^ look mult5B y.y3
  (z0.toUInt32 <<< 24) ^^^ (z1.toUInt32 <<< 16) ^^^ (z2.toUInt32 <<< 8) ^^^ z3.toUInt32

/-- `QF`. -/
structure FullKey where
  qf0 : List UInt32
  qf1 : List UInt32
  qf2 : List UInt32
  qf3 : List UInt32

/-- `fullKey`. -/
def fullKey (l : List UInt32) (k : ℕ) : FullKey :=
  let y (i : UInt8) : Lanes := permuted l k ⟨i, i, i, i⟩
  let ef (y : UInt8) := look multEF y
  let m5b (y : UInt8) := look mult5B y
  -- the partial MDS matrix multiplies
  ⟨table fun i => be32 (ef (y i).y0) (ef (y i).y0) (m5b (y i).y0) (y i).y0,
    table fun i => be32 (y i).y1 (m5b (y i).y1) (ef (y i).y1) (ef (y i).y1),
    table fun i => be32 (ef (y i).y2) (y i).y2 (ef (y i).y2) (m5b (y i).y2),
    table fun i => be32 (m5b (y i).y3) (ef (y i).y3) (y i).y3 (m5b (y i).y3)⟩

/-- `tf_context_t`. -/
structure Context where
  n : ℕ
  k : List UInt32
  qf : FullKey

/-- `fkh`. -/
def fkh (qf : FullKey) (x : UInt32) : UInt32 :=
  look qf.qf0 (b0 x) ^^^ look qf.qf1 (b1 x) ^^^ look qf.qf2 (b2 x) ^^^ look qf.qf3 (b3 x)

/-! ### The key schedule -/

/-- `ROL`. -/
def rol (x n : UInt32) : UInt32 := (x <<< (n &&& 0x1F)) ||| (x >>> (32 - (n &&& 0x1F)))

/-- `ROR`. -/
def ror (x n : UInt32) : UInt32 := (x >>> (n &&& 0x1F)) ||| (x <<< (32 - (n &&& 0x1F)))

/-- `RHO`. -/
def rho : UInt32 := 0x01010101

/-- `keySched`: `S`, `K` and `k`, for a key `m` of `n` bits. -/
def keySched (m : List UInt8) (n : ℕ) : List UInt32 × List UInt32 × ℕ :=
  let k := (n + 63) / 64
  let me := (List.range k).map fun i => le32At m (4 * (2 * i))
  let mo := (List.range k).map fun i => le32At m (4 * (2 * i + 1))
  let s := (List.range k).map fun i =>
    rsMatrixMultiply (leBytes32 (me.getD i 0) ++ leBytes32 (mo.getD i 0))
  let keys := (List.range 20).flatMap fun i =>
    let a := h (2 * UInt32.ofNat i * rho) me k
    let b := rol (h (2 * UInt32.ofNat i * rho + rho) mo k) 8
    [a + b, rol (a + 2 * b) 9]
  -- the first ones go to the end of `S`
  (s.reverse, keys, k)

/-- `tf_init`, for a key of `keySize` bits. -/
def tfInit (key : List UInt8) (keySize : ℕ) : Context :=
  let (s, keys, k) := keySched key keySize
  ⟨keySize, keys, fullKey s k⟩

/-! ### A block -/

/-- The variables `R0` to `R3`. -/
structure Words where
  r0 : UInt32
  r1 : UInt32
  r2 : UInt32
  r3 : UInt32

/-- The two halves change their places, as the arguments of every other round do. -/
def Words.turn (r : Words) : Words := ⟨r.r2, r.r3, r.r0, r.r1⟩

/-- `ENC_ROUND`. -/
def encRound (ctx : Context) (round : ℕ) (r : Words) : Words :=
  let t0 := fkh ctx.qf r.r0
  let t1 := fkh ctx.qf (rol r.r1 8)
  { r with
    r2 := ror (r.r2 ^^^ (t1 + t0 + ctx.k.getD (2 * round + 8) 0)) 1
    r3 := rol r.r3 1 ^^^ (2 * t1 + t0 + ctx.k.getD (2 * round + 9) 0) }

/-- `DEC_ROUND`. -/
def decRound (ctx : Context) (round : ℕ) (r : Words) : Words :=
  let t0 := fkh ctx.qf r.r0
  let t1 := fkh ctx.qf (rol r.r1 8)
  { r with
    r2 := rol r.r2 1 ^^^ (t0 + t1 + ctx.k.getD (2 * round + 8) 0)
    r3 := ror (r.r3 ^^^ (t0 + 2 * t1 + ctx.k.getD (2 * round + 9) 0)) 1 }

/-- The words of a block, whitened with `K[i]` to `K[i + 3]`. -/
def whiten (ctx : Context) (i : ℕ) (p : List UInt8) : Words :=
  ⟨ctx.k.getD i 0 ^^^ le32At p 0, ctx.k.getD (i + 1) 0 ^^^ le32At p 4,
    ctx.k.getD (i + 2) 0 ^^^ le32At p 8, ctx.k.getD (i + 3) 0 ^^^ le32At p 12⟩

/-- The words that are stored, whitened with `K[i]` to `K[i + 3]`. -/
def whitened (ctx : Context) (i : ℕ) (r : Words) : Words :=
  ⟨r.r2 ^^^ ctx.k.getD i 0, r.r3 ^^^ ctx.k.getD (i + 1) 0, r.r0 ^^^ ctx.k.getD (i + 2) 0,
    r.r1 ^^^ ctx.k.getD (i + 3) 0⟩

/-- The bytes of words. -/
def Words.bytes (r : Words) : List UInt8 :=
  leBytes32 r.r0 ++ (leBytes32 r.r1 ++ (leBytes32 r.r2 ++ leBytes32 r.r3))

/-- The sixteen rounds. -/
def encRounds (ctx : Context) (r : Words) : Words :=
  Rounds.run (fun round r => (encRound ctx round r).turn) (List.range 16) r

/-- The sixteen rounds, from the last one to the first. -/
def decRounds (ctx : Context) (r : Words) : Words :=
  Rounds.run (fun round r => (decRound ctx round r).turn) (List.range 16).reverse r

/-- `twofish_internal_encrypt`. -/
def twofishInternalEncrypt (ctx : Context) (pt : List UInt8) : List UInt8 :=
  (whitened ctx 4 (encRounds ctx (whiten ctx 0 pt))).bytes

/-- The words that the decryption of a block gives. -/
def decrypted (ctx : Context) (ct : List UInt8) : Words :=
  whitened ctx 0 (decRounds ctx (whiten ctx 4 ct))

/-- `twofish_internal_decrypt`. -/
def twofishInternalDecrypt (ctx : Context) (ct : List UInt8) : List UInt8 :=
  (decrypted ctx ct).bytes

/-! ### Modes -/

/-- `tf_ecb_decrypt`. -/
def tfEcbDecrypt (ctx : Context) (inp : List UInt8) : List UInt8 := twofishInternalDecrypt ctx inp

/-- `tf_ecb_encrypt`. -/
def tfEcbEncrypt (ctx : Context) (inp : List UInt8) : List UInt8 := twofishInternalEncrypt ctx inp

/-- `tf_cbc_encrypt`. -/
def tfCbcEncrypt (ctx : Context) (iv inp : List UInt8) : List UInt8 :=
  cbcEncryptLoop (twofishInternalEncrypt ctx) (inp.length / 16) iv inp

/-- A word is stored. -/
def putWord (b : InOut) (i : ℕ) (w : UInt32) : InOut := b.put i (leBytes32 w)

/-- A word of the input. -/
def getWord (b : InOut) (i : ℕ) : UInt32 := le32At b.inp i

/-- A decrypted block is stored, from its last word on, each with another word that is looked up
just before. -/
def storeWith (x : InOut → ℕ → UInt32) (b : InOut) (i : ℕ) (r : Words) : InOut :=
  let b := putWord b (i + 12) (r.r3 ^^^ x b 12)
  let b := putWord b (i + 8) (r.r2 ^^^ x b 8)
  let b := putWord b (i + 4) (r.r1 ^^^ x b 4)
  putWord b i (r.r0 ^^^ x b 0)

/-- With the words of the input from the offset `j` on. -/
def storeChained (b : InOut) (i j : ℕ) (r : Words) : InOut :=
  storeWith (fun b k => getWord b (j + k)) b i r

/-- With the words of `ivec`. -/
def storeFirst (b : InOut) (i : ℕ) (ivec : List UInt8) (r : Words) : InOut :=
  storeWith (fun _ k => le32At ivec k) b i r

/-- The loop over three blocks at once, from the offset `i` on: how many blocks are left, where the
next one is, `ivec` and the buffers. -/
def threeRails (ctx : Context) : ℕ → ℕ → List UInt8 → InOut → ℕ × ℕ × List UInt8 × InOut
  | n + 3, i, ivec, b =>
    let old := b.get (i + 32) 16
    let q := decrypted ctx (b.get i 16)
    let r := decrypted ctx (b.get (i + 16) 16)
    let s := decrypted ctx (b.get (i + 32) 16)
    let b := storeChained b (i + 32) (i + 16) s
    let b := storeChained b (i + 16) i r
    let b := storeFirst b i ivec q
    threeRails ctx n (i + 48) old b
  | n, i, ivec, b => (n, i, ivec, b)

/-- The loop over single blocks: how many are left, and the buffers. -/
def singleRail (ctx : Context) : ℕ → ℕ → List UInt8 → InOut → ℕ × InOut
  | 0, _, _, b => (0, b)
  | n + 1, i, ivec, b =>
    let old := b.get i 16
    let q := decrypted ctx (b.get i 16)
    singleRail ctx n (i + 16) old (storeFirst b i ivec q)

/-- `tf_cbc_decrypt`: what it returns, and the buffers. -/
def tfCbcDecrypt (ctx : Context) (inLen : ℕ) (iv : List UInt8) (b : InOut) : ℕ × InOut :=
  let (n, i, ivec, b) := threeRails ctx (inLen / 16) 0 iv b
  let (n, b) := singleRail ctx n i ivec b
  (n * 16, b)

/-! ### The tables -/

/-- The modulus of the field. -/
def fieldMod : UInt32 := 0x169

theorem mult5B_eq (x : UInt8) : look mult5B x = (gfMult 0x5B x.toUInt32 fieldMod).toUInt8 := by
  have htable := forall_byte (p := fun x =>
    look mult5B x == (gfMult 0x5B x.toUInt32 fieldMod).toUInt8) (by decide +kernel) x
  exact beq_iff_eq.mp htable

theorem multEF_eq (x : UInt8) : look multEF x = (gfMult 0xEF x.toUInt32 fieldMod).toUInt8 := by
  have htable := forall_byte (p := fun x =>
    look multEF x == (gfMult 0xEF x.toUInt32 fieldMod).toUInt8) (by decide +kernel) x
  exact beq_iff_eq.mp htable

/-- Every lane goes its own way. -/
theorem permuted_lanes (l : List UInt32) (k : ℕ) (y : Lanes) :
    permuted l k y = ⟨(permuted l k ⟨y.y0, y.y0, y.y0, y.y0⟩).y0,
      (permuted l k ⟨y.y1, y.y1, y.y1, y.y1⟩).y1, (permuted l k ⟨y.y2, y.y2, y.y2, y.y2⟩).y2,
      (permuted l k ⟨y.y3, y.y3, y.y3, y.y3⟩).y3⟩ := by
  unfold permuted
  split <;> rfl

/-- **The tables agree with the function that they were made from.** -/
theorem fkh_fullKey (l : List UInt32) (k : ℕ) (x : UInt32) : fkh (fullKey l k) x = h x l k := by
  rw [h, permuted_lanes, fkh, fullKey]
  simp only [look_table, be32_xor, be32_eq_xor]

/-! ### A round -/

theorem rol_one (x : UInt32) : rol x 1 = rol32 x 1 := by
  rw [rol, show (1 : UInt32) &&& 0x1F = 1 by decide, rol32]

theorem ror_one (x : UInt32) : ror x 1 = rol32 x 31 := by
  rw [ror, show (1 : UInt32) &&& 0x1F = 1 by decide, rol32, UInt32.or_comm]
  rfl

@[simp] theorem ror_rol (x : UInt32) : ror (rol x 1) 1 = x := by
  rw [rol_one, ror_one, rol32_rol32 (by decide) (by decide) (by decide)]

@[simp] theorem rol_ror (x : UInt32) : rol (ror x 1) 1 = x := by
  rw [rol_one, ror_one, rol32_rol32 (by decide) (by decide) (by decide)]

/-- **A round is undone**, whatever the tables and the key words are. -/
theorem decRound_encRound (ctx : Context) (round : ℕ) (r : Words) :
    decRound ctx round (encRound ctx round r) = r := by
  unfold decRound encRound
  dsimp only
  rw [rol_ror, UInt32.add_comm (fkh ctx.qf (rol r.r1 8)) (fkh ctx.qf r.r0),
    UInt32.add_comm (2 * fkh ctx.qf (rol r.r1 8)) (fkh ctx.qf r.r0)]
  simp [UInt32.xor_assoc]

@[simp] theorem Words.turn_turn (r : Words) : r.turn.turn = r := rfl

theorem decRounds_encRounds (ctx : Context) (r : Words) :
    decRounds ctx (encRounds ctx r).turn = r.turn := by
  have hundone := congrArg Words.turn
    (Rounds.turned_reverse Words.turn_turn (decRound_encRound ctx) (List.range 16) r)
  rwa [Words.turn_turn] at hundone

/-! ### A block -/

@[simp] theorem Words.length_bytes (r : Words) : r.bytes.length = 16 := rfl

/-- The words that are stored are read again. -/
theorem whiten_bytes (ctx : Context) (i : ℕ) (r : Words) :
    whiten ctx i r.bytes = ⟨ctx.k.getD i 0 ^^^ r.r0, ctx.k.getD (i + 1) 0 ^^^ r.r1,
      ctx.k.getD (i + 2) 0 ^^^ r.r2, ctx.k.getD (i + 3) 0 ^^^ r.r3⟩ := by
  have h0 := le32At_leBytes32 r.r0 (leBytes32 r.r1 ++ (leBytes32 r.r2 ++ leBytes32 r.r3))
  have h1 := le32At_leBytes32 r.r1 (leBytes32 r.r2 ++ leBytes32 r.r3)
  have h2 := le32At_leBytes32 r.r2 (leBytes32 r.r3)
  have h3 := le32At_leBytes32 r.r3 []
  rw [List.append_nil] at h3
  rw [whiten, show le32At r.bytes 0 = r.r0 from h0, show le32At r.bytes 4 = r.r1 from h1,
    show le32At r.bytes 8 = r.r2 from h2, show le32At r.bytes 12 = r.r3 from h3]

/-- The words of a block make the block. -/
theorem bytes_words {p : List UInt8} (hp : p.length = 16) :
    (⟨le32At p 0, le32At p 4, le32At p 8, le32At p 12⟩ : Words).bytes = p := by
  rw [Words.bytes]
  simp only [leBytes32_le32At]
  rw [← slice_add, ← slice_add, ← slice_add]
  exact slice_all hp

theorem xor_xor_left (x y : UInt32) : x ^^^ (y ^^^ x) = y := by
  rw [UInt32.xor_comm y, ← UInt32.xor_assoc, UInt32.xor_self, UInt32.zero_xor]

/-- What has been whitened twice is as it was. -/
theorem whiten_whitened (ctx : Context) (i : ℕ) (r : Words) :
    whiten ctx i (whitened ctx i r).bytes = r.turn := by
  rw [whiten_bytes]
  simp [whitened, Words.turn, xor_xor_left]

theorem whitened_whiten (ctx : Context) (i : ℕ) {p : List UInt8} (hp : p.length = 16) :
    (whitened ctx i (whiten ctx i p).turn).bytes = p := by
  refine Eq.trans ?_ (bytes_words hp)
  simp [whitened, whiten, Words.turn, UInt32.xor_comm, xor_xor_left]

/-- **Decryption undoes encryption.** -/
theorem twofish_decrypt_encrypt (ctx : Context) {p : List UInt8} (hp : p.length = 16) :
    twofishInternalDecrypt ctx (twofishInternalEncrypt ctx p) = p := by
  rw [twofishInternalDecrypt, decrypted, twofishInternalEncrypt, whiten_whitened,
    decRounds_encRounds, whitened_whiten ctx 0 hp]

/-! ### The CBC mode -/

/-- A block is encrypted. -/
def enc (ctx : Context) (p : Block) : Block := ⟨twofishInternalEncrypt ctx p.toList, rfl⟩

/-- A block is decrypted. -/
def dec (ctx : Context) (c : Block) : Block := ⟨twofishInternalDecrypt ctx c.toList, rfl⟩

theorem dec_enc (ctx : Context) (p : Block) : dec ctx (enc ctx p) = p :=
  List.Vector.eq _ _ (twofish_decrypt_encrypt ctx p.toList_length)

/-- **One block after the other is encrypted.** -/
theorem tfCbcEncrypt_eq (ctx : Context) (iv : Block) (ps : List Block) :
    tfCbcEncrypt ctx iv.toList (Cbc.flat ps) = Cbc.flat (Cbc.encrypt blockXor (enc ctx) iv ps) :=
  cbcEncryptLoop_eq (fun _ => rfl) iv ps

section

variable {ctx : Context} {b b' : InOut} {n i j : ℕ}

/-- A word is stored with another one. -/
theorem stored_putWord (hb : b.Holds n) (hi : i + 4 ≤ n) (w : UInt32) {x : UInt32} {p : List UInt8}
    (hx : leBytes32 x = p) :
    InOut.Stored b (putWord b i (w ^^^ x)) n i (xorBytes (leBytes32 w) p) := by
  rw [← hx, ← leBytes32_xor]
  exact InOut.stored_put hb hi

/-- A block is stored with other bytes, which are looked up in what lies before. -/
theorem stored_storeWith {x : InOut → ℕ → UInt32} {q : ℕ → List UInt8} (hb : b.Holds n)
    (hi : i + 16 ≤ n) (hx : ∀ b' : InOut, (∀ {j m}, j + m ≤ i → b'.get j m = b.get j m) →
      ∀ k, k ≤ 12 → leBytes32 (x b' k) = q k) (r : Words) :
    InOut.Stored b (storeWith x b i r) n i
      (xorBytes r.bytes (q 0 ++ (q 4 ++ (q 8 ++ q 12)))) := by
  have hlen : ∀ k, k ≤ 12 → (q k).length = 4 := fun k hk => by
    rw [← hx b (fun _ => rfl) k hk]
    rfl
  have hxor : ∀ (w : UInt32) {k}, k ≤ 12 → (xorBytes (leBytes32 w) (q k)).length = 4 :=
    fun w k hk => by simp [hlen k hk]
  unfold storeWith
  dsimp only
  have h3 := stored_putWord hb (by omega : i + 12 + 4 ≤ n) r.r3 (hx b (fun _ => rfl) 12 le_rfl)
  set b₃ := putWord b (i + 12) (r.r3 ^^^ x b 12)
  have h2 := stored_putWord h3.holds (by omega : i + 8 + 4 ≤ n) r.r2
    (hx b₃ (fun hj => h3.kept (by omega)) 8 (by omega))
  set b₂ := putWord b₃ (i + 8) (r.r2 ^^^ x b₃ 8)
  have h32 := h3.before h2 (by rw [hxor _ (by omega)])
  have h1 := stored_putWord h2.holds (by omega : i + 4 + 4 ≤ n) r.r1
    (hx b₂ (fun hj => h32.kept (by omega)) 4 (by omega))
  set b₁ := putWord b₂ (i + 4) (r.r1 ^^^ x b₂ 4)
  have h321 := h32.before h1 (by rw [hxor _ (by omega)])
  have h0 := stored_putWord h1.holds (by omega : i + 4 ≤ n) r.r0
    (hx b₁ (fun hj => h321.kept (by omega)) 0 (by omega))
  have hall := h321.before h0 (by rw [hxor _ (by omega)])
  rwa [Words.bytes, xorBytes_append (by simp [hlen]), xorBytes_append (by simp [hlen]),
    xorBytes_append (by simp [hlen])]

theorem leBytes32_getWord (b : InOut) (i : ℕ) : leBytes32 (getWord b i) = b.get i 4 :=
  leBytes32_le32At b.inp i

/-- A block is stored with one of the input before it. -/
theorem stored_storeChained (hb : b.Holds n) (hi : i + 16 ≤ n) (hj : j + 16 ≤ i) (r : Words) :
    InOut.Stored b (storeChained b i j r) n i (xorBytes r.bytes (b.get j 16)) := by
  have hcut : b.get j 16 = b.get (j + 0) 4 ++ (b.get (j + 4) 4 ++
      (b.get (j + 8) 4 ++ b.get (j + 12) 4)) := by
    unfold InOut.get
    rw [← slice_add, ← slice_add, ← slice_add, Nat.add_zero]
  have hstored := stored_storeWith (x := fun b k => getWord b (j + k))
    (q := fun k => b.get (j + k) 4) hb hi
    (fun b' hkept k hk => by rw [leBytes32_getWord, hkept (by omega)]) r
  rwa [← hcut] at hstored

/-- A block is stored with `ivec`. -/
theorem stored_storeFirst (hb : b.Holds n) (hi : i + 16 ≤ n) {ivec : List UInt8}
    (hivec : ivec.length = 16) (r : Words) :
    InOut.Stored b (storeFirst b i ivec r) n i (xorBytes r.bytes ivec) := by
  have hcut : ivec = slice ivec 0 4 ++ (slice ivec 4 4 ++ (slice ivec 8 4 ++ slice ivec 12 4)) := by
    rw [← slice_add, ← slice_add, ← slice_add]
    exact (slice_all hivec).symm
  have hstored := stored_storeWith (x := fun _ k => le32At ivec k) (q := fun k => slice ivec k 4)
    hb hi (fun _ _ k _ => leBytes32_le32At ivec k) r
  rwa [← hcut] at hstored

end

/-! ### The rails -/

section

variable (ctx : Context) {b : InOut} {n i : ℕ}

/-- A block is decrypted and stored. -/
theorem stored_first (hb : b.Holds n) (hi : i + 16 ≤ n) (iv c : Block) :
    InOut.Stored b (storeFirst b i iv.toList (decrypted ctx c.toList)) n i
      (blockXor (dec ctx c) iv).toList :=
  stored_storeFirst hb hi iv.toList_length _

/-- **One block after the other is decrypted.** -/
theorem singleRail_stored {cs : List Block} (hb : b.Holds n) (hi : i + 16 * cs.length ≤ n)
    (hget : b.get i (16 * cs.length) = Cbc.flat cs) (iv : Block) :
    let (m, b') := singleRail ctx cs.length i iv.toList b
    m = 0 ∧ InOut.Stored b b' n i (Cbc.flat (Cbc.decrypt blockXor (dec ctx) iv cs)) := by
  induction cs generalizing b i iv with
  | nil => exact ⟨rfl, InOut.stored_nil hb i⟩
  | cons c cs ih =>
    rw [List.length_cons] at hi
    obtain ⟨hfirst, hrest⟩ := get_flat hget
    have hstep := stored_first ctx hb (by omega : i + 16 ≤ n) iv c
    have hlen : (blockXor (dec ctx c) iv).toList.length = 16 := List.Vector.toList_length _
    obtain ⟨hm, hrun⟩ := ih hstep.holds (by omega) ((hstep.kept (by omega)).trans hrest) c
    rw [List.length_cons, singleRail, hfirst]
    exact ⟨hm, hstep.behind hrun (by rw [hlen])⟩

/-- **Three blocks at once are decrypted as one after the other.** -/
theorem threeRails_step (hb : b.Holds n) (hi : i + 48 ≤ n) {c₁ c₂ : Block}
    (h₁ : b.get i 16 = c₁.toList) (h₂ : b.get (i + 16) 16 = c₂.toList) (c₃ iv : Block) :
    InOut.Stored b (storeFirst (storeChained (storeChained b (i + 32) (i + 16)
      (decrypted ctx c₃.toList)) (i + 16) i (decrypted ctx c₂.toList)) i iv.toList
        (decrypted ctx c₁.toList)) n i
      (Cbc.flat (Cbc.decrypt blockXor (dec ctx) iv [c₁, c₂, c₃])) := by
  have hlen : ∀ x : Block, x.toList.length = 16 := fun x => x.toList_length
  -- the last block is stored first
  have h3 := stored_storeChained hb (by omega : i + 32 + 16 ≤ n) (by omega : i + 16 + 16 ≤ i + 32)
    (decrypted ctx c₃.toList)
  rw [h₂] at h3
  have h2 := stored_storeChained h3.holds (by omega : i + 16 + 16 ≤ n) le_rfl
    (decrypted ctx c₂.toList)
  rw [h3.kept (Or.inl (by omega)), h₁] at h2
  have h1 := stored_first ctx h2.holds (by omega : i + 16 ≤ n) iv c₁
  have h32 := h3.before h2 (by simp [hlen])
  have hall := h32.before h1 (by rw [hlen])
  have hflat : Cbc.flat (Cbc.decrypt blockXor (dec ctx) iv [c₁, c₂, c₃]) =
      (blockXor (dec ctx c₁) iv).toList ++ ((blockXor (dec ctx c₂) c₁).toList ++
        (blockXor (dec ctx c₃) c₂).toList) := by
    simp [Cbc.decrypt]
  rw [hflat]
  exact hall

end

/-- **The rails, three and then one, decrypt one block after the other.** -/
theorem rails_stored (ctx : Context) {b : InOut} {n i : ℕ} {cs : List Block} (hb : b.Holds n)
    (hi : i + 16 * cs.length ≤ n) (hget : b.get i (16 * cs.length) = Cbc.flat cs) (iv : Block) :
    let (m, j, ivec, b₁) := threeRails ctx cs.length i iv.toList b
    let (l, b') := singleRail ctx m j ivec b₁
    l = 0 ∧ InOut.Stored b b' n i (Cbc.flat (Cbc.decrypt blockXor (dec ctx) iv cs)) := by
  match cs, hi, hget with
  | [], hi, hget => exact singleRail_stored ctx hb hi hget iv
  | [c], hi, hget => exact singleRail_stored ctx hb hi hget iv
  | [c₁, c₂], hi, hget => exact singleRail_stored ctx hb hi hget iv
  | c₁ :: c₂ :: c₃ :: cs, hi, hget =>
    simp only [List.length_cons] at hi
    obtain ⟨h₁, hrest⟩ := get_flat hget
    obtain ⟨h₂, hrest⟩ := get_flat hrest
    obtain ⟨h₃, hrest⟩ := get_flat hrest
    have hstep := threeRails_step ctx hb (by omega : i + 48 ≤ n) h₁ h₂ c₃ iv
    have hlen : (Cbc.flat (Cbc.decrypt blockXor (dec ctx) iv [c₁, c₂, c₃])).length = 48 := by
      rw [Cbc.length_flat, Cbc.length_decrypt]
      rfl
    obtain ⟨hl, hrun⟩ := rails_stored ctx hstep.holds (by omega : i + 48 + 16 * cs.length ≤ n)
      ((hstep.kept (by omega)).trans hrest) c₃
    have hall := hstep.behind hrun (by rw [hlen])
    rw [← Cbc.flat_append] at hall
    simp only [List.length_cons]
    rw [threeRails, h₁, h₂, h₃]
    exact ⟨hl, hall⟩

/-- All blocks have been decrypted when the rails are done. -/
theorem tfCbcDecrypt_eq (ctx : Context) (iv : Block) {cs : List Block} {b : InOut}
    (hb : b.Holds (16 * cs.length)) (hget : b.get 0 (16 * cs.length) = Cbc.flat cs) :
    (tfCbcDecrypt ctx (16 * cs.length) iv.toList b).1 = 0 ∧
      InOut.Stored b (tfCbcDecrypt ctx (16 * cs.length) iv.toList b).2 (16 * cs.length) 0
        (Cbc.flat (Cbc.decrypt blockXor (dec ctx) iv cs)) := by
  have hrails := rails_stored ctx hb (by rw [Nat.zero_add]) hget iv
  have hdiv : 16 * cs.length / 16 = cs.length := by omega
  rw [tfCbcDecrypt, hdiv]
  exact ⟨by simp only [hrails.1, Nat.zero_mul], hrails.2⟩

/-- **Three rails at once do what one does**, with two buffers or with one. -/
theorem tfCbcDecrypt_decrypts (ctx : Context) :
    CbcDecrypts (dec ctx) fun n iv b => (tfCbcDecrypt ctx n iv b).2 :=
  fun iv _ _ hb hget => (tfCbcDecrypt_eq ctx iv hb hget).2

/-- The library as the transform calls it, with one buffer where it decrypts. -/
def tf (ctx : Context) : CtsCipher where
  ecbDecrypt := tfEcbDecrypt ctx
  cbcEncrypt := tfCbcEncrypt ctx
  cbcDecrypt := fun iv p => (tfCbcDecrypt ctx p.length iv (.same p)).2.out

/-- **Twofish is a block cipher in CBC mode.** -/
theorem tf_implements (ctx : Context) : (tf ctx).Implements (enc ctx) (dec ctx) where
  dec_enc := dec_enc ctx
  ecbDecrypt := fun _ => rfl
  cbcEncrypt := tfCbcEncrypt_eq ctx
  cbcDecrypt := (tfCbcDecrypt_decrypts ctx).same

/-- **What the one side encrypts the other side decrypts**, with three rails, in another buffer or
in its place. -/
theorem tf_cbc_undone (ctx : Context) (iv : Block) (ps : List Block) {b : InOut}
    (hb : b.Holds (16 * ps.length))
    (hget : b.get 0 (16 * ps.length) = tfCbcEncrypt ctx iv.toList (Cbc.flat ps)) :
    slice (tfCbcDecrypt ctx (16 * ps.length) iv.toList b).2.out 0 (16 * ps.length) =
      Cbc.flat ps := by
  rw [tfCbcEncrypt_eq] at hget
  exact (tfCbcDecrypt_decrypts ctx).undone (dec_enc ctx) iv ps hb hget

theorem tf_cbc_undone_zero :
    let ctx := tfInit (List.replicate 32 0) 256
    let p : Block := List.Vector.replicate 16 0
    let c := tfCbcEncrypt ctx p.toList (Cbc.flat [p, p, p, p])
    slice (tfCbcDecrypt ctx 64 p.toList (.same c)).2.out 0 64 = Cbc.flat [p, p, p, p] := by
  intro ctx p c
  have hlen : c.length = 64 := by
    rw [show c = _ from tfCbcEncrypt_eq ctx p [p, p, p, p], Cbc.length_flat, Cbc.length_encrypt]
    rfl
  exact tf_cbc_undone ctx p [p, p, p, p] ⟨hlen.ge, hlen.ge⟩ (InOut.get_same hlen)

end N2n.Twofish
