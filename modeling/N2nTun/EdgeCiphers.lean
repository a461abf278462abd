import N2nTun.Aes
import N2nTun.ChaCha20
import N2nTun.SharedSecret
import N2nTun.Speck
import N2nTun.Twofish

/-!
# The ciphers of an edge

The key that the user gives is hashed, and the hash or its end becomes the key of the cipher.  With
AES the length of what the user gave decides on the length of the key.

## Main definitions

* `setupAesKey`, `setupTfKey`, `setupCc20Key`, `setupSpeckKey` — the functions of the transforms.
* `edgeInitTransop` — what `edge_init` sets up.

## Main results

* `edgeInitTransop_isSome_iff` — it is set up for every key.
* `edgeInitTransop_lawful` — **the ciphers are what is relied on.**
* `edgeInitTransop_undone` — **what one edge transforms another one with the same key turns
  around.**
-/

namespace N2n

open Bytes Tokens

/-! ### Keys -/

/-- The variable `key_size` of `setup_aes_key`. -/
def aesKeySize (passwordLen : ℕ) : ℕ :=
  if 33 ≤ passwordLen then 32 else if 23 ≤ passwordLen then 24 else 16

/-- `setup_aes_key`: the context; it takes the last bytes of the hash. -/
def setupAesKey (password : List UInt8) : Option Aes.Context :=
  let keyMat := pearsonHash256 password
  let keySize := aesKeySize password.length
  Aes.aesInit (keyMat.drop (32 - keySize)) keySize

/-- `setup_tf_key`. -/
def setupTfKey (password : List UInt8) : Twofish.Context :=
  Twofish.tfInit (pearsonHash256 password) 256

/-- `setup_cc20_key`: the key that the context has. -/
def setupCc20Key (password : List UInt8) : List UInt8 := pearsonHash256 password

/-- `setup_speck_key`. -/
def setupSpeckKey (key : List UInt8) : SpeckKeyed := speckExpandKey (pearsonHash256 key) 256

/-! ### Transforms -/

/-- `n2n_transop_aes_init`. -/
def n2nTransopAesInit (encryptKey : List UInt8) : Option EdgeTransop :=
  (setupAesKey (cstr encryptKey)).map fun ctx => .keyed (.aes (Aes.aes ctx))

/-- `n2n_transop_tf_init`. -/
def n2nTransopTfInit (encryptKey : List UInt8) : Option EdgeTransop :=
  some (.keyed (.tf (Twofish.tf (setupTfKey (cstr encryptKey)))))

/-- `n2n_transop_cc20_init`. -/
def n2nTransopCc20Init (encryptKey : List UInt8) : Option EdgeTransop :=
  some (.keyed (.cc20 (cc20Crypt (setupCc20Key (cstr encryptKey)))))

/-- `n2n_transop_speck_init`. -/
def n2nTransopSpeckInit (encryptKey : List UInt8) : Option EdgeTransop :=
  some (.keyed (.speck (internalSpeckCtr (setupSpeckKey (cstr encryptKey)))))

/-- `n2n_transop_null_init`. -/
def n2nTransopNullInit : Option EdgeTransop := some .null

/-- The `switch` of `edge_init`, and the check behind it. -/
def edgeInitTransop (transopId : TransformId) (encryptKey : List UInt8) : Option EdgeTransop :=
  let transop := match transopId with
    | .twofish => n2nTransopTfInit encryptKey
    | .aes => n2nTransopAesInit encryptKey
    | .chacha20 => n2nTransopCc20Init encryptKey
    | .speck => n2nTransopSpeckInit encryptKey
    | _ => n2nTransopNullInit
  transop.filter (·.transformId = transopId)

/-! ### What is set up -/

/-- AES is set up for every key. -/
theorem setupAesKey_isSome (password : List UInt8) : (setupAesKey password).isSome := by
  have hsize : aesKeySize password.length = 16 ∨ aesKeySize password.length = 24 ∨
      aesKeySize password.length = 32 := by
    unfold aesKeySize
    split_ifs <;> simp
  exact Option.isSome_iff_exists.mpr (Aes.exists_aesInit _ hsize)

/-- **A transform is set up for every key**, if it is one of those that there are. -/
theorem edgeInitTransop_isSome_iff (transopId : TransformId) (encryptKey : List UInt8) :
    (edgeInitTransop transopId encryptKey).isSome ↔ transopId ≠ .inval := by
  cases transopId with
  | inval => exact iff_of_false Bool.false_ne_true fun h => h rfl
  | null => exact iff_of_true rfl (by decide)
  | twofish => exact iff_of_true rfl (by decide)
  | aes =>
    obtain ⟨ctx, hctx⟩ := Option.isSome_iff_exists.mp (setupAesKey_isSome (cstr encryptKey))
    refine iff_of_true ?_ (by decide)
    rw [edgeInitTransop, n2nTransopAesInit, hctx]
    rfl
  | chacha20 => exact iff_of_true rfl (by decide)
  | speck => exact iff_of_true rfl (by decide)

/-- **The ciphers are what is relied on.** -/
theorem edgeInitTransop_lawful {transopId : TransformId} {encryptKey : List UInt8}
    {transop : EdgeTransop} (h : edgeInitTransop transopId encryptKey = some transop) :
    transop.Lawful ∧ transop.transformId = transopId := by
  obtain ⟨h, hid⟩ := Option.filter_eq_some_iff.mp h
  refine ⟨?_, of_decide_eq_true hid⟩
  cases transopId with
  | inval =>
    obtain rfl := Option.some.inj h
    trivial
  | null =>
    obtain rfl := Option.some.inj h
    trivial
  | twofish =>
    obtain rfl := Option.some.inj h
    exact ⟨_, _, Twofish.tf_implements _⟩
  | aes =>
    obtain ⟨ctx, hctx, rfl⟩ := Option.map_eq_some_iff.mp h
    exact ⟨_, _, Aes.aes_implements hctx⟩
  | chacha20 =>
    obtain rfl := Option.some.inj h
    exact ⟨_, cc20Crypt_implements _⟩
  | speck =>
    obtain rfl := Option.some.inj h
    exact ⟨_, internalSpeckCtr_implements _⟩

/-- **What one edge transforms another one with the same key turns around**, whichever cipher it
is. -/
theorem edgeInitTransop_undone {transopId : TransformId} {encryptKey : List UInt8}
    {transop : EdgeTransop} (h : edgeInitTransop transopId encryptKey = some transop)
    {b : TransopBuffers} {outLen n : ℕ} (hfits : transop.Fits outLen n) (hout : outLen ≤ pktBufSize)
    (rand₁ rand₂ : UInt64) : PassesThrough transop b n (transop.fwd b outLen n rand₁ rand₂) :=
  EdgeTransop.rev_fwd (edgeInitTransop_lawful h).1 hfits hout rand₁ rand₂

/-- The key "secret". -/
def secretKey : List UInt8 := [115, 101, 99, 114, 101, 116, 0]

theorem edgeInitTransop_undone_speck : ∃ transop,
    edgeInitTransop .speck secretKey = some transop ∧
      let b : TransopBuffers := ⟨.of fun _ => 0, .of fun _ => 0, .of fun _ => 0⟩
      PassesThrough transop b 100 (transop.fwd b pktBufSize 100 1 2) := by
  have hinit : edgeInitTransop .speck secretKey =
      some (.keyed (.speck (internalSpeckCtr (setupSpeckKey (cstr secretKey))))) := rfl
  have hfits : EdgeTransop.Fits (.keyed (.speck (internalSpeckCtr (setupSpeckKey
      (cstr secretKey))))) pktBufSize 100 := ⟨by decide, by decide⟩
  exact ⟨_, hinit, edgeInitTransop_undone hinit hfits (by decide) 1 2⟩

end N2n
