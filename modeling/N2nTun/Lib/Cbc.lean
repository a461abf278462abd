import Mathlib.Data.Vector.Basic
import Mathlib.Tactic

/-!
# Cipher block chaining

Blocks of any kind, with an operation that adds one to another and is undone by the same
operation; a block cipher; and the chaining of blocks by what the block before became.

Byte strings come in as blocks of a fixed length, one after the other.

## Main definitions

* `encrypt`, `decrypt` — the chaining mode from an initial block on.
* `flat` — the blocks as one list.

## Main results

* `decrypt_encrypt` — **decryption undoes encryption.**
* `encrypt_append`, `decrypt_append` — a message in two parts.
* `exists_flat` — a list of whole blocks.
-/

namespace Cbc

/-! ### Chaining -/

section

variable {β : Type*} (xor : β → β → β) (enc dec : β → β)

/-- Every block is added to the one before it has become, then encrypted. -/
def encrypt : β → List β → List β
  | _, [] => []
  | iv, p :: ps => enc (xor p iv) :: encrypt (enc (xor p iv)) ps

/-- Every block is decrypted, and the encrypted one before it is added. -/
def decrypt : β → List β → List β
  | _, [] => []
  | iv, c :: cs => xor (dec c) iv :: decrypt c cs

/-- The block that the next one is added to. -/
def chained (iv : β) (ps : List β) : β := (encrypt xor enc iv ps).getLastD iv

@[simp] theorem length_encrypt (iv : β) (ps : List β) :
    (encrypt xor enc iv ps).length = ps.length := by
  induction ps generalizing iv with
  | nil => rfl
  | cons p ps ih => rw [encrypt, List.length_cons, List.length_cons, ih]

@[simp] theorem length_decrypt (iv : β) (cs : List β) :
    (decrypt xor dec iv cs).length = cs.length := by
  induction cs generalizing iv with
  | nil => rfl
  | cons c cs ih => rw [decrypt, List.length_cons, List.length_cons, ih]

/-- A message in two parts. -/
theorem encrypt_append (iv : β) (ps qs : List β) :
    encrypt xor enc iv (ps ++ qs) =
      encrypt xor enc iv ps ++ encrypt xor enc (chained xor enc iv ps) qs := by
  induction ps generalizing iv with
  | nil => rfl
  | cons p ps ih =>
    have hchained : chained xor enc iv (p :: ps) = chained xor enc (enc (xor p iv)) ps := by
      rw [chained, encrypt, List.getLastD_cons]
      rfl
    rw [List.cons_append, encrypt, encrypt, ih, hchained, List.cons_append]

/-- A message in two parts. -/
theorem decrypt_append (iv : β) (cs ds : List β) :
    decrypt xor dec iv (cs ++ ds) =
      decrypt xor dec iv cs ++ decrypt xor dec (cs.getLastD iv) ds := by
  induction cs generalizing iv with
  | nil => rfl
  | cons c cs ih =>
    rw [List.cons_append, decrypt, decrypt, ih, List.getLastD_cons, List.cons_append]

variable {xor enc dec}

/-- **Decryption undoes encryption.** -/
theorem decrypt_encrypt (hdec : ∀ b, dec (enc b) = b) (hxor : ∀ a b, xor (xor a b) b = a)
    (iv : β) (ps : List β) : decrypt xor dec iv (encrypt xor enc iv ps) = ps := by
  induction ps generalizing iv with
  | nil => rfl
  | cons p ps ih => rw [encrypt, decrypt, hdec, hxor, ih]

end

/-! ### Blocks of a fixed length -/

section

variable {α : Type*} {n : ℕ}

/-- The blocks one after the other. -/
def flat (bs : List (List.Vector α n)) : List α := (bs.map List.Vector.toList).flatten

@[simp] theorem flat_nil : flat ([] : List (List.Vector α n)) = [] := rfl

@[simp] theorem flat_cons (b : List.Vector α n) (bs : List (List.Vector α n)) :
    flat (b :: bs) = b.toList ++ flat bs := rfl

@[simp] theorem flat_append (bs cs : List (List.Vector α n)) :
    flat (bs ++ cs) = flat bs ++ flat cs := by
  simp [flat]

@[simp] theorem length_flat (bs : List (List.Vector α n)) : (flat bs).length = n * bs.length := by
  induction bs with
  | nil => rfl
  | cons b bs ih =>
    rw [flat_cons, List.length_append, b.toList_length, ih, List.length_cons, Nat.mul_succ,
      Nat.add_comm]

/-- A list of whole blocks. -/
theorem exists_flat {p : List α} {k : ℕ} (h : p.length = n * k) :
    ∃ bs : List (List.Vector α n), bs.length = k ∧ flat bs = p := by
  induction k generalizing p with
  | zero => exact ⟨[], rfl, (List.length_eq_zero_iff.mp h).symm⟩
  | succ k ih =>
    rw [Nat.mul_succ] at h
    obtain ⟨bs, hbs, hflat⟩ := ih (p := p.drop n) (by rw [List.length_drop]; omega)
    obtain ⟨b, hb⟩ : ∃ b : List.Vector α n, b.toList = p.take n :=
      ⟨⟨p.take n, by rw [List.length_take]; omega⟩, rfl⟩
    refine ⟨b :: bs, by rw [List.length_cons, hbs], ?_⟩
    rw [flat_cons, hflat, hb]
    exact List.take_append_drop n p

end

end Cbc
