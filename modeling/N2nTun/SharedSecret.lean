import N2nTun.Curve25519Ladder
import N2nTun.EdgeAuth
import N2nTun.KeyText
import N2nTun.RegisterTiming
import N2nTun.SnStart

/-!
# Shared secrets

A user of a community has a private key, made from the password and the name, and the federation
has one, made from its name.  `n2n-keygen` prints the public keys; the one of the user goes into
the community file of the supernode, the one of the federation to the edge.  Both sides then
compute a secret from their own private key and the public key of the other side.

## Main definitions

* `generatePrivateKey`, `generatePublicKey`, `generateSharedSecret`, `bindPrivateKeyToUsername` —
  the functions of `auth.c`.
* `keygen` — what the tool prints.
* `UserOptions.keys`, `edgeInitKeys` — the keys of an edge when it starts.

## Main results

* `sharedSecret_agree` — **both sides compute the same secret.**
* `UserOptions.keys_keygen` — the same for an edge that is given what the tool prints.
-/

namespace N2n

open Bytes Tokens Curve25519

/-! ### `auth.c` -/

/-- `pearson_hash_256`. -/
def pearsonHash256 (inp : List UInt8) : List UInt8 :=
  bytes64 (pearsonLane 4 inp) ++ bytes64 (pearsonLane 3 inp) ++ bytes64 (pearsonLane 2 inp) ++
    bytes64 (pearsonLane 1 inp)

/-- `generate_private_key`. -/
def generatePrivateKey (inp : List UInt8) : List UInt8 :=
  pearsonHash256 (pearsonHash256 (cstr inp))

/-- The point that public keys are multiples of. The nine is the last byte of it, which is the
highest one. -/
def generator : List UInt8 := List.replicate 31 0 ++ [9]

/-- `generate_public_key`. -/
def generatePublicKey (prv : List UInt8) : List UInt8 := curve25519 prv generator

/-- `generate_shared_secret`. -/
def generateSharedSecret (prv pub : List UInt8) : List UInt8 :=
  pearsonHash256 (curve25519 prv pub)

/-- `bind_private_key_to_username`. -/
def bindPrivateKeyToUsername (prv username : List UInt8) : List UInt8 :=
  xorBytes prv (pearsonHash256 (cstr username))

@[simp] theorem length_pearsonHash256 (inp : List UInt8) : (pearsonHash256 inp).length = 32 := rfl

@[simp] theorem length_generateSharedSecret (prv pub : List UInt8) :
    (generateSharedSecret prv pub).length = privatePublicKeySize := rfl

@[simp] theorem length_generatePublicKey (prv : List UInt8) :
    (generatePublicKey prv).length = privatePublicKeySize := length_curve25519 _ _

/-- **Both sides compute the same secret**, each from its private key and the public key of the
other side. -/
theorem sharedSecret_agree (prv prv' : List UInt8) :
    generateSharedSecret prv (generatePublicKey prv') =
      generateSharedSecret prv' (generatePublicKey prv) := by
  unfold generateSharedSecret generatePublicKey
  rw [curve25519_swap]

/-! ### `n2n-keygen` -/

/-- The text of a key: 43 characters. -/
def keyText (key : List UInt8) : List UInt8 := binToAsciiLoop key 0

/-- `main` of `n2n-keygen`, with two arguments: a line of the community file, or an option with
the key of the federation. -/
def keygen (arg1 arg2 : List UInt8) : List UInt8 :=
  let fed := arg1 == ascii "-F"
  let prv := generatePrivateKey arg2
  let prv := if fed then prv else bindPrivateKeyToUsername prv arg1
  let asc := cstr (binToAscii (generatePublicKey prv))
  if fed then ascii "-P " ++ asc ++ [0x0a] else ascii "* " ++ arg1 ++ ascii " " ++ asc ++ [0x0a]

/-- The private key of a user. -/
def userPrivateKey (username password : List UInt8) : List UInt8 :=
  bindPrivateKeyToUsername (generatePrivateKey password) username

theorem keygen_federation (name : List UInt8) :
    keygen (ascii "-F") name =
      ascii "-P " ++ keyText (generatePublicKey (generatePrivateKey name)) ++ [0x0a] := by
  have hfed : (ascii "-F" == ascii "-F") = true := beq_self_eq_true _
  unfold keygen
  dsimp only
  rw [cstr_binToAscii, hfed, if_pos rfl, if_pos rfl]
  rfl

theorem keygen_user {username : List UInt8} (h : username ≠ ascii "-F") (password : List UInt8) :
    keygen username password =
      ascii "* " ++ username ++ ascii " " ++
        keyText (generatePublicKey (userPrivateKey username password)) ++ [0x0a] := by
  have hfed : (username == ascii "-F") = false := beq_eq_false_iff_ne.mpr h
  unfold keygen
  dsimp only
  rw [cstr_binToAscii, hfed, if_neg Bool.false_ne_true, if_neg Bool.false_ne_true]
  rfl

/-! ### The text of a key -/

theorem length_keyText {key : List UInt8} (h : key.length = privatePublicKeySize) :
    (keyText key).length = 43 := by
  rw [keyText, length_binToAsciiLoop, h]
  rfl

/-- The characters of a key are those of the alphabet, which are not white space. -/
theorem keyText_chars {key : List UInt8} {c : UInt8} (h : c ∈ keyText key) :
    isSpace c = false ∧ (c != 0) = true ∧ c ∉ spillingChars := by
  have hall : ∀ c ∈ b2a, isSpace c = false ∧ (c != 0) = true ∧ c ∉ spillingChars := by
    decide +kernel
  exact hall c (mem_binToAsciiLoop h)

theorem cstr_keyText (key : List UInt8) : cstr (keyText key) = keyText key :=
  List.takeWhile_eq_self_iff.mpr fun _ hc => (keyText_chars hc).2.1

/-- The bytes of the text are the key. -/
theorem textBytes_keyText (key : List UInt8) : textBytes (keyText key) = key := by
  have hsize : 6 * (keyText key).length / 8 = key.length := by
    rw [keyText, length_binToAsciiLoop]
    omega
  have hvalid : ∀ ch ∈ usedChars (keyText key), ch ∉ spillingChars := by
    intro ch hch
    suffices h : ch ∈ keyText key from (keyText_chars h).2.2
    unfold usedChars at hch
    split_ifs at hch
    · exact List.mem_of_mem_dropLast hch
    · exact hch
  obtain ⟨pad, hpad⟩ := keyBits_binToAsciiLoop key
  have hbits := (textBytes_bits_iff _).mpr hvalid
  rw [hsize, keyText, hpad, List.take_left' (length_byteBits key)] at hbits
  exact byteBits_injective (by rw [length_textBytes, hsize]) hbits

/-- **A key is read back from its text** into a buffer of its size. -/
theorem asciiToBin_keyText {key out : List UInt8} (h : out.length = key.length) :
    asciiToBin out (keyText key) = key := by
  have hsize : 6 * (keyText key).length / 8 = key.length := by
    rw [← length_textBytes, textBytes_keyText]
  rw [asciiToBin_eq, textBytes_keyText, hsize, ← h, List.drop_length, List.append_nil]

/-! ### The keys of an edge -/

/-- What an edge is told about its user and the federation: `-I`, `-J` and `-P`. -/
structure UserOptions where
  devDesc : List UInt8
  password : List UInt8
  federationPublicKey : Option (List UInt8)

/-- `dev_desc`: `strncpy`, and a zero in the last one of the 16 bytes. -/
def deviceDesc (optargument : List UInt8) : List UInt8 :=
  let text := (cstr optargument).take 15
  text ++ List.replicate (16 - text.length) 0

/-- The public key of the federation: from the text, unless it is too long, or from the default
name. -/
def UserOptions.federationKey (o : UserOptions) : Option (List UInt8) :=
  match o.federationPublicKey with
  | some text =>
    if (cstr text).length < (privatePublicKeySize * 8 + 5) / 6 + 1 then
      some (asciiToBin (List.replicate privatePublicKeySize 0) (cstr text))
    else none
  | none => some (generatePublicKey (generatePrivateKey (defaultFederation.drop 1)))

/-- What `main` of the edge makes of the options: `public_key` and `shared_secret`. The private key
is where the secret is written later. -/
def UserOptions.keys (o : UserOptions) : Option (List UInt8 × List UInt8) :=
  o.federationKey.map fun federationKey =>
    let sharedSecret := generatePrivateKey o.password
    let sharedSecret := bindPrivateKeyToUsername sharedSecret (deviceDesc o.devDesc)
    (generatePublicKey sharedSecret, generateSharedSecret sharedSecret federationKey)

/-- `edge_init`, as far as it sets up the keys of an edge with a user.  `tmpKey` is what `memrnd`
gives. -/
def edgeInitKeys (communityName : CommunityName) (transopId : TransformId)
    (keys : List UInt8 × List UInt8) (tmpKey : List UInt8) : Option EdgeConf :=
  if transopId ≠ .chacha20 ∧ transopId ≠ .speck then none
  else
    some
      { communityName := communityName
        headerEncryption := true
        auth := ⟨authUserPassword, UInt16.ofNat authPwTokenSize,
          overwrite (List.replicate authMaxTokenSize 0) 0 keys.1⟩
        sharedSecret := some keys.2
        sharedSecretCtx := speckInit keys.2
        keys := packetHeaderChangeDynamicKey (packetHeaderSetupKey communityName.toList) tmpKey }

theorem cstr_deviceDesc (username : List UInt8) :
    cstr (deviceDesc username) = (cstr username).take 15 := by
  have hne : ∀ c ∈ (cstr username).take 15, (c != 0) = true := fun c hc =>
    List.mem_takeWhile_imp (p := (· != 0)) (List.mem_of_mem_take hc)
  have hlen : ((cstr username).take 15).length ≤ 15 := List.length_take_le _ _
  obtain ⟨n, hn⟩ : ∃ n, 16 - ((cstr username).take 15).length = n + 1 :=
    Nat.exists_eq_add_one.mpr (by omega)
  unfold deviceDesc
  dsimp only
  rw [hn, List.replicate_succ]
  exact cstr_append_zero hne _

/-- A name that fits is used as a whole. -/
theorem bind_deviceDesc {username : List UInt8} (h : (cstr username).length ≤ 15)
    (prv : List UInt8) :
    bindPrivateKeyToUsername prv (deviceDesc username) = bindPrivateKeyToUsername prv username := by
  unfold bindPrivateKeyToUsername
  rw [cstr_deviceDesc, List.take_of_length_le h]

/-- **An edge with the key of a federation** has the public key that `n2n-keygen` prints for the
user, and the secret of the federation and that public key. -/
theorem UserOptions.keys_keygen {username password name : List UInt8}
    {text : Option (List UInt8)} (husername : (cstr username).length ≤ 15)
    (htext : text = some (keyText (generatePublicKey (generatePrivateKey name))) ∨
      text = none ∧ name = defaultFederation.drop 1) :
    UserOptions.keys ⟨username, password, text⟩ =
      some (generatePublicKey (userPrivateKey username password),
        generateSharedSecret (generatePrivateKey name)
          (generatePublicKey (userPrivateKey username password))) := by
  have hkey : UserOptions.federationKey ⟨username, password, text⟩ =
      some (generatePublicKey (generatePrivateKey name)) := by
    rcases htext with rfl | ⟨rfl, rfl⟩
    · have hlen := length_keyText (length_generatePublicKey (generatePrivateKey name))
      unfold federationKey
      dsimp only
      rw [cstr_keyText, hlen, if_pos (by decide), asciiToBin_keyText (by simp)]
    · rfl
  unfold keys
  rw [hkey, Option.map_some]
  dsimp only
  rw [bind_deviceDesc husername, sharedSecret_agree]
  rfl

/-- The last dynamic key counts. -/
theorem packetHeaderChangeDynamicKey_again (k : HeaderKeys) (key key' : List UInt8) :
    packetHeaderChangeDynamicKey (packetHeaderChangeDynamicKey k key) key' =
      packetHeaderChangeDynamicKey k key' := by
  unfold packetHeaderChangeDynamicKey
  rfl

/-- **An edge with a user** starts as the authentication expects it. -/
theorem edgeInitKeys_userPassword {communityName : CommunityName} {transopId : TransformId}
    {pub secret tmpKey : List UInt8} {conf : EdgeConf}
    (hpub : pub.length = privatePublicKeySize) (hsecret : secret.length = privatePublicKeySize)
    (h : edgeInitKeys communityName transopId (pub, secret) tmpKey = some conf) :
    conf.UserPassword secret ∧ slice conf.auth.token 0 privatePublicKeySize = pub ∧
      ∀ key, packetHeaderChangeDynamicKey conf.keys key =
        packetHeaderChangeDynamicKey (packetHeaderSetupKey communityName.toList) key := by
  unfold edgeInitKeys at h
  split_ifs at h
  obtain rfl := Option.some.inj h
  have htoken : (overwrite (List.replicate authMaxTokenSize 0) 0 pub).length = authPwTokenSize := by
    rw [length_overwrite]
    · rfl
    · rw [hpub]
      decide
  refine ⟨⟨rfl, htoken, rfl, hsecret, rfl⟩, ?_, packetHeaderChangeDynamicKey_again _ _⟩
  show slice (overwrite (List.replicate authMaxTokenSize 0) 0 pub) 0 privatePublicKeySize = pub
  rw [overwrite, List.take_zero, List.nil_append, ← hpub]
  exact slice_left pub _

end N2n
