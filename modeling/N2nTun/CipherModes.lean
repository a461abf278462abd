import N2nTun.Lib.InOut
import N2nTun.Payload

/-!
# CBC mode over buffers

What the implementations of the block ciphers share: the loop that encrypts one block after the
other, and what a decryption has to leave in its buffers, which may be one buffer.

## Main definitions

* `cbcEncryptLoop` — the loop of `tf_cbc_encrypt` and of `aes_cbc_encrypt`.
* `CbcDecrypts` — a function decrypts whole blocks from one buffer to another or in place.

## Main results

* `cbcEncryptLoop_eq` — **one block after the other is encrypted.**
* `CbcDecrypts.same` — in place.
* `CbcDecrypts.undone` — **what has been encrypted is decrypted.**
-/

namespace N2n

open Bytes

/-! ### Encryption -/

/-- The loop of `tf_cbc_encrypt` and of `aes_cbc_encrypt`: what is written for `n` blocks. -/
def cbcEncryptLoop (encrypt : List UInt8 → List UInt8) : ℕ → List UInt8 → List UInt8 → List UInt8
  | 0, _, _ => []
  | n + 1, tmp, inp =>
    let tmp := encrypt (xorBytes tmp (inp.take 16))
    tmp ++ cbcEncryptLoop encrypt n tmp (inp.drop 16)

/-- **One block after the other is encrypted.** -/
theorem cbcEncryptLoop_eq {encrypt : List UInt8 → List UInt8} {enc : Block → Block}
    (henc : ∀ p : Block, encrypt p.toList = (enc p).toList) (iv : Block) (ps : List Block) :
    cbcEncryptLoop encrypt ((Cbc.flat ps).length / 16) iv.toList (Cbc.flat ps) =
      Cbc.flat (Cbc.encrypt blockXor enc iv ps) := by
  have hlen : (Cbc.flat ps).length / 16 = ps.length := by
    rw [Cbc.length_flat]
    omega
  rw [hlen]
  clear hlen
  induction ps generalizing iv with
  | nil => rfl
  | cons p ps ih =>
    have htake : (Cbc.flat (p :: ps)).take 16 = p.toList := List.take_left' p.toList_length
    have hdrop : (Cbc.flat (p :: ps)).drop 16 = Cbc.flat ps := List.drop_left' p.toList_length
    have htmp : encrypt (xorBytes iv.toList p.toList) = (enc (blockXor p iv)).toList := by
      rw [xorBytes_comm, ← henc]
      rfl
    rw [List.length_cons, cbcEncryptLoop, htake, hdrop, htmp, ih, Cbc.encrypt, Cbc.flat_cons]

/-! ### Decryption -/

/-- The blocks that lie in the input from an offset on. -/
theorem get_flat {b : InOut} {i : ℕ} {c : Block} {cs : List Block}
    (h : b.get i (16 * (c :: cs).length) = Cbc.flat (c :: cs)) :
    b.get i 16 = c.toList ∧ b.get (i + 16) (16 * cs.length) = Cbc.flat cs := by
  have hsplit : b.get i (16 * (c :: cs).length) =
      b.get i 16 ++ b.get (i + 16) (16 * cs.length) := by
    unfold InOut.get
    rw [← slice_add, List.length_cons, Nat.mul_succ, Nat.add_comm]
  rw [hsplit, Cbc.flat_cons] at h
  exact List.append_inj h (by rw [InOut.length_get, c.toList_length])

/-- `run`, with a length, the initial block and the buffers, leaves the decrypted blocks in the
output and nothing else. -/
def CbcDecrypts (dec : Block → Block) (run : ℕ → List UInt8 → InOut → InOut) : Prop :=
  ∀ (iv : Block) {cs : List Block} {b : InOut}, b.Holds (16 * cs.length) →
    b.get 0 (16 * cs.length) = Cbc.flat cs →
    InOut.Stored b (run (16 * cs.length) iv.toList b) (16 * cs.length) 0
      (Cbc.flat (Cbc.decrypt blockXor dec iv cs))

section

variable {dec : Block → Block} {run : ℕ → List UInt8 → InOut → InOut}

/-- In place, the blocks are exchanged for the decrypted ones. -/
theorem CbcDecrypts.same (h : CbcDecrypts dec run) (iv : Block) (cs : List Block) :
    (run (Cbc.flat cs).length iv.toList (.same (Cbc.flat cs))).out =
      Cbc.flat (Cbc.decrypt blockXor dec iv cs) := by
  have hlen : (Cbc.flat cs).length = 16 * cs.length := Cbc.length_flat cs
  have hstored := h iv ⟨hlen.ge, hlen.ge⟩ (InOut.get_same hlen)
  rw [hlen]
  generalize run (16 * cs.length) iv.toList _ = b' at hstored ⊢
  have hfull : b'.out.length = 16 * cs.length := hstored.length.trans hlen
  have hout := hstored.written
  rwa [Cbc.length_flat, Cbc.length_decrypt, slice_all hfull] at hout

/-- **What has been encrypted is decrypted**, in another buffer or in its place. -/
theorem CbcDecrypts.undone (h : CbcDecrypts dec run) {enc : Block → Block}
    (hdec : ∀ p, dec (enc p) = p) (iv : Block) (ps : List Block) {b : InOut}
    (hb : b.Holds (16 * ps.length))
    (hget : b.get 0 (16 * ps.length) = Cbc.flat (Cbc.encrypt blockXor enc iv ps)) :
    slice (run (16 * ps.length) iv.toList b).out 0 (16 * ps.length) = Cbc.flat ps := by
  set cs := Cbc.encrypt blockXor enc iv ps with hcs
  have hlen : cs.length = ps.length := Cbc.length_encrypt ..
  rw [← hlen] at hget hb ⊢
  have hout := (h iv hb hget).written
  have hback : Cbc.decrypt blockXor dec iv cs = ps :=
    Cbc.decrypt_encrypt hdec blockXor_blockXor iv ps
  rwa [Cbc.length_flat, Cbc.length_decrypt, hback] at hout

end

end N2n
