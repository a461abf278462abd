import Mathlib.Data.List.Basic
import N2nTun.Lib.Bytes

/-!
# An input and an output, which may be the same

A function reads one buffer and writes another one, or it is given the same buffer for both.  What
it writes then changes what it reads later.

## Main definitions

* `InOut` — the two buffers, or the one.
* `InOut.get`, `InOut.put` — bytes of the input are read, bytes of the output are written.
* `InOut.Stored` — bytes have been written, and nothing else has changed.

## Main results

* `InOut.get_put` — what lies elsewhere is read as before.
* `InOut.Stored.before`, `InOut.Stored.behind` — **what is written in pieces**, from the last one on
  or from the first.
-/

namespace Bytes

/-! ### Copies into a buffer -/

/-- The whole of a buffer. -/
theorem slice_all {p : List UInt8} {n : ℕ} (h : p.length = n) : slice p 0 n = p := by
  rw [slice_eq_take_drop (by omega), List.drop_zero, List.take_of_length_le h.le]

/-- What has been copied into a buffer. -/
theorem slice_overwrite_self {base : List UInt8} {i : ℕ} {p : List UInt8}
    (h : i + p.length ≤ base.length) : slice (overwrite base i p) i p.length = p :=
  slice_middle (by rw [List.length_take]; omega) rfl

/-- What lies elsewhere stays. -/
theorem slice_overwrite_of_disjoint {base : List UInt8} {i j m : ℕ} {p : List UInt8}
    (h : i + p.length ≤ base.length) (hj : j + m ≤ i ∨ i + p.length ≤ j) :
    slice (overwrite base i p) j m = slice base j m := by
  have htake : (base.take i).length = i := by
    rw [List.length_take]
    omega
  apply slice_congr
  intro k hk hkm
  unfold overwrite
  rcases hj with hj | hj
  · rw [List.append_assoc, List.getD_append _ _ _ _ (by omega)]
    simp [List.getD_eq_getElem?_getD, show k < i by omega]
  · rw [List.getD_append_right _ _ _ _ (by rw [List.length_append, htake]; omega)]
    rw [List.length_append, htake]
    simp [List.getD_eq_getElem?_getD, List.getElem?_drop,
      show i + p.length + (k - (i + p.length)) = k by omega]

/-! ### Two buffers or one -/

/-- Two buffers, or one for both. -/
inductive InOut where
  | apart (inp out : List UInt8)
  | same (buf : List UInt8)

namespace InOut

/-- The buffer that is read. -/
def inp : InOut → List UInt8
  | apart inp _ => inp
  | same buf => buf

/-- The buffer that is written. -/
def out : InOut → List UInt8
  | apart _ out => out
  | same buf => buf

/-- `n` bytes of the input, from the offset `i` on. -/
def get (b : InOut) (i n : ℕ) : List UInt8 := slice b.inp i n

/-- Bytes are written to the output, from the offset `i` on. -/
def put (b : InOut) (i : ℕ) (p : List UInt8) : InOut :=
  match b with
  | apart inp out => apart inp (overwrite out i p)
  | same buf => same (overwrite buf i p)

/-- Both buffers have `n` bytes. -/
def Holds (b : InOut) (n : ℕ) : Prop := n ≤ b.inp.length ∧ n ≤ b.out.length

variable {b : InOut} {i j m n : ℕ} {p : List UInt8}

theorem Holds.put (h : b.Holds n) (hp : i + p.length ≤ n) : (b.put i p).Holds n := by
  obtain ⟨hin, hout⟩ := h
  cases b with
  | apart inp out => exact ⟨hin, (length_overwrite (hp.trans hout)).symm ▸ hout⟩
  | same buf =>
    have hlen := length_overwrite (hp.trans hin)
    exact ⟨hlen.symm ▸ hin, hlen.symm ▸ hout⟩

theorem Holds.mono (h : b.Holds n) (hm : m ≤ n) : b.Holds m := ⟨hm.trans h.1, hm.trans h.2⟩

@[simp] theorem length_get (b : InOut) (i n : ℕ) : (b.get i n).length = n := length_slice ..

/-- One buffer is read as it is. -/
theorem get_same (h : p.length = n) : (same p).get 0 n = p := slice_all h

/-- What lies elsewhere is read as before. -/
theorem get_put (h : b.Holds n) (hp : i + p.length ≤ n) (hj : j + m ≤ i ∨ i + p.length ≤ j) :
    (b.put i p).get j m = b.get j m := by
  cases b with
  | apart inp out => rfl
  | same buf => exact slice_overwrite_of_disjoint (hp.trans h.1) hj

theorem out_put (b : InOut) (i : ℕ) (p : List UInt8) : (b.put i p).out = overwrite b.out i p := by
  cases b with
  | apart inp out => rfl
  | same buf => rfl

/-- `b'` is `b` after the bytes `p` have been written to the offset `i`, in one piece or in several;
both buffers have `n` bytes. -/
structure Stored (b b' : InOut) (n i : ℕ) (p : List UInt8) : Prop where
  holds : b'.Holds n
  length : b'.out.length = b.out.length
  written : slice b'.out i p.length = p
  elsewhere : ∀ {j m}, j + m ≤ i ∨ i + p.length ≤ j → slice b'.out j m = slice b.out j m
  kept : ∀ {j m}, j + m ≤ i ∨ i + p.length ≤ j → b'.get j m = b.get j m

theorem stored_nil (h : b.Holds n) (i : ℕ) : Stored b b n i [] :=
  ⟨h, rfl, rfl, fun _ => rfl, fun _ => rfl⟩

theorem stored_put (h : b.Holds n) (hp : i + p.length ≤ n) : Stored b (b.put i p) n i p where
  holds := h.put hp
  length := by rw [out_put, length_overwrite (hp.trans h.2)]
  written := by rw [out_put, slice_overwrite_self (hp.trans h.2)]
  elsewhere := fun hj => by rw [out_put, slice_overwrite_of_disjoint (hp.trans h.2) hj]
  kept := get_put h hp

/-- A piece is written over another one. -/
theorem Stored.over {b' b'' : InOut} {q : List UInt8} (h : Stored b b' n i p)
    (h' : Stored b' b'' n i q) (hlen : q.length = p.length) : Stored b b'' n i q where
  holds := h'.holds
  length := h'.length.trans h.length
  written := h'.written
  elsewhere := fun hk => by rw [h'.elsewhere hk, h.elsewhere (hlen ▸ hk)]
  kept := fun hk => by rw [h'.kept hk, h.kept (hlen ▸ hk)]

/-- **A piece, and then the one before it.** -/
theorem Stored.before {b' b'' : InOut} {q : List UInt8} (h : Stored b b' n j p)
    (h' : Stored b' b'' n i q) (hj : j = i + q.length) : Stored b b'' n i (q ++ p) where
  holds := h'.holds
  length := h'.length.trans h.length
  written := by
    rw [List.length_append, slice_add, h'.written, h'.elsewhere (Or.inr le_rfl), ← hj, h.written]
  elsewhere := fun hk => by
    rw [List.length_append] at hk
    rw [h'.elsewhere (by omega), h.elsewhere (by omega)]
  kept := fun hk => by
    rw [List.length_append] at hk
    rw [h'.kept (by omega), h.kept (by omega)]

/-- **A piece, and then the one behind it.** -/
theorem Stored.behind {b' b'' : InOut} {q : List UInt8} (h : Stored b b' n i p)
    (h' : Stored b' b'' n j q) (hj : j = i + p.length) : Stored b b'' n i (p ++ q) where
  holds := h'.holds
  length := h'.length.trans h.length
  written := by
    rw [List.length_append, slice_add, ← hj, h'.written, h'.elsewhere (Or.inl hj.ge), h.written]
  elsewhere := fun hk => by
    rw [List.length_append] at hk
    rw [h'.elsewhere (by omega), h.elsewhere (by omega)]
  kept := fun hk => by
    rw [List.length_append] at hk
    rw [h'.kept (by omega), h.kept (by omega)]

end InOut

end Bytes
