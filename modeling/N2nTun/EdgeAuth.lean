import N2nTun.UpdateEdge

/-!
# The edge's side of the authentication

`get_local_auth` and `handle_remote_auth` of `edge_utils.c`.  With a user and a password
the edge sends its public key and an encrypted challenge.  The answer has the challenge
encrypted once more over the first half of the public key, and the dynamic key of the
community, wrapped, in the place of the challenge.

## Main definitions

* `EdgeConf` — what `n2n_edge_conf_t` knows about keys.
* `EdgeConf.getLocalAuth`, `EdgeConf.handleRemoteAuth` — the two functions.
* `EdgeConf.UserPassword` — the edge has been set up with a user and a password.

## Main results

* `EdgeConf.UserPassword.accepts` — **the answer to a challenge that is still stored
  makes the edge install the dynamic key.**
* `handshake` — the whole exchange, for a new edge and for a known one.
-/

namespace N2n

open Bytes

/-- `N2N_AUTH_PW_TOKEN_SIZE`. -/
def authPwTokenSize : ℕ := privatePublicKeySize + authChallengeSize

/-- The keys in `n2n_edge_conf_t`; without a password there is no shared secret. -/
structure EdgeConf where
  communityName : CommunityName
  /-- `header_encryption == HEADER_ENCRYPTION_ENABLED` -/
  headerEncryption : Bool
  auth : Auth
  sharedSecret : Option (List UInt8)
  sharedSecretCtx : SpeckContext
  keys : HeaderKeys
  deriving DecidableEq

namespace EdgeConf

/-- The challenge that is stored in the local token. -/
def challenge (conf : EdgeConf) : List UInt8 :=
  slice conf.auth.token privatePublicKeySize authChallengeSize

/-- `get_local_auth`: the edge afterwards, and `*auth`.  The `challenge` is what `memrnd`
gives. -/
def getLocalAuth (conf : EdgeConf) (auth : Auth) (challenge : List.Vector UInt8 16) :
    EdgeConf × Auth :=
  if conf.auth.scheme = authSimpleId then (conf, conf.auth.copied)
  else if conf.auth.scheme = authUserPassword then
    let auth := conf.auth.copied
    let token := overwrite auth.token privatePublicKeySize challenge.toList
    let stored := overwrite conf.auth.token privatePublicKeySize
      (slice token privatePublicKeySize authChallengeSize)
    let encrypted := speck128Encrypt (slice token privatePublicKeySize authChallengeSize)
      conf.sharedSecretCtx
    ({ conf with auth := { conf.auth with token := stored } },
      { auth with token := overwrite token privatePublicKeySize encrypted })
  else (conf, auth)

/-- `handle_remote_auth`: whether it returns 0, and the edge afterwards. -/
def handleRemoteAuth (conf : EdgeConf) (remoteAuth : Auth) : Bool × EdgeConf :=
  if conf.auth.scheme = authUserPassword then
    let tmpToken := slice remoteAuth.token 0 authPwTokenSize
    let tmpToken := speck128Decrypt tmpToken conf.sharedSecretCtx
    let tmpToken := speck128Decrypt tmpToken conf.sharedSecretCtx
    if slice tmpToken 0 authChallengeSize ≠
        slice conf.auth.token privatePublicKeySize authChallengeSize then (false, conf)
    else
      let key := speck128Decrypt (slice tmpToken privatePublicKeySize authChallengeSize)
        conf.sharedSecretCtx
      let key := xorBytes key (slice conf.auth.token privatePublicKeySize authChallengeSize)
      let key := xorBytes key (slice (conf.sharedSecret.getD []) 0 authChallengeSize)
      (true, { conf with keys := packetHeaderChangeDynamicKey conf.keys key })
  else (true, conf)

/-- What the edge is started with if there is a user and a password. -/
structure UserPassword (conf : EdgeConf) (secret : List UInt8) : Prop where
  scheme : conf.auth.scheme = authUserPassword
  token : conf.auth.token.length = authPwTokenSize
  sharedSecret : conf.sharedSecret = some secret
  length : secret.length = privatePublicKeySize
  ctx : conf.sharedSecretCtx = speckInit secret

/-! ### The two messages -/

section

variable {conf : EdgeConf} {secret : List UInt8}

theorem UserPassword.copied (h : conf.UserPassword secret) : conf.auth.copied = conf.auth := by
  have hlen : authMaxTokenSize = conf.auth.token.length := h.token.symm
  rw [Auth.copied, hlen, List.take_length]

/-- **What the edge stores and what it sends**: behind the public key the challenge, and the
challenge encrypted. -/
theorem UserPassword.getLocalAuth (h : conf.UserPassword secret) (auth : Auth)
    (challenge : List.Vector UInt8 16) :
    conf.getLocalAuth auth challenge =
      ({ conf with auth :=
          { conf.auth with
            token := conf.auth.token.take privatePublicKeySize ++ challenge.toList } },
        { conf.auth with
          token := conf.auth.token.take privatePublicKeySize ++
            speck128Encrypt challenge.toList conf.sharedSecretCtx }) := by
  have hch : challenge.toList.length = 16 := challenge.2
  have htok : conf.auth.token.length = 48 := h.token
  have henc := length_speck128Encrypt hch.ge conf.sharedSecretCtx
  have hpub : (conf.auth.token.take privatePublicKeySize).length = privatePublicKeySize := by
    simp [htok, privatePublicKeySize]
  have hend : ∀ {p q : List UInt8}, q.length = 48 → p.length = 16 →
      overwrite q privatePublicKeySize p = q.take privatePublicKeySize ++ p := by
    intro p q hq hp
    simp [overwrite, hq, hp, privatePublicKeySize]
  have hcut : slice (conf.auth.token.take privatePublicKeySize ++ challenge.toList)
      privatePublicKeySize authChallengeSize = challenge.toList := by
    have hmid := slice_middle (z := []) hpub hch
    rwa [List.append_nil] at hmid
  have hne : ¬ conf.auth.scheme = authSimpleId := by
    rw [h.scheme]
    decide
  rw [EdgeConf.getLocalAuth, if_neg hne, if_pos h.scheme, h.copied]
  dsimp only
  rw [hend htok hch, hcut, hend htok hch, hend (by simp [htok, hch, privatePublicKeySize])
    (henc.trans hch), List.take_left' hpub]

/-- **The answer of the supernode**: the challenge encrypted once more, the second half of the
public key, and the dynamic key. -/
theorem answerUser_token {presented : Auth} (user : SnUser) {lo hi c key : List UInt8}
    (hlo : lo.length = 16) (hhi : hi.length = 16) (hc : c.length = 16) (hkey : key.length = 16)
    (htok : presented.token = lo ++ hi ++ c) :
    (answerUser presented user key).token = speck128Encrypt c user.sharedSecretCtx ++ hi ++
      speck128Encrypt (xorBytes (xorBytes (speck128Decrypt c user.sharedSecretCtx) key)
        (slice user.sharedSecret 0 authChallengeSize)) user.sharedSecretCtx := by
  have hcopied : presented.copied.token = lo ++ hi ++ c := by
    simp [Auth.copied, htok, hlo, hhi, hc, authMaxTokenSize]
  have hcut : slice (lo ++ hi ++ c) privatePublicKeySize authChallengeSize = c := by
    have hmid := slice_middle (x := lo ++ hi) (z := []) (i := 32) (by simp [hlo, hhi]) hc
    rwa [List.append_nil] at hmid
  -- the first half of the public key is replaced
  have hagain := length_speck128Encrypt hc.ge user.sharedSecretCtx
  have hfirst := overwrite_append (x := []) (z := hi ++ c) (hlo.trans (hagain.trans hc).symm)
  -- and then what was the challenge
  generalize hw : xorBytes (xorBytes (speck128Decrypt c user.sharedSecretCtx) key)
    (slice user.sharedSecret 0 authChallengeSize) = wrapped
  have hwrapped : wrapped.length = 16 := by
    rw [← hw, length_xorBytes, length_xorBytes, length_speck128Decrypt hc.ge, hc, hkey,
      length_slice]
    rfl
  have henc := length_speck128Encrypt hwrapped.ge user.sharedSecretCtx
  have hlast := overwrite_append (x := speck128Encrypt c user.sharedSecretCtx ++ hi) (z := [])
    (hc.trans (henc.trans hwrapped).symm)
  rw [List.length_append, hagain, hc, hhi, List.append_nil, List.append_nil] at hlast
  simp only [List.nil_append, ← List.append_assoc, List.length_nil] at hfirst
  simp only [answerUser, hcopied, hcut, hw, hfirst]
  exact hlast

/-- **What the edge makes of an answer** of three parts. -/
theorem UserPassword.handleRemoteAuth (h : conf.UserPassword secret) {remote : Auth}
    {again hi wrapped : List UInt8} (hagain : again.length = 16) (hhi : hi.length = 16)
    (hwrapped : wrapped.length = 16)
    (htok : slice remote.token 0 authPwTokenSize = again ++ hi ++ wrapped) :
    conf.handleRemoteAuth remote =
      if speck128Decrypt (speck128Decrypt again conf.sharedSecretCtx) conf.sharedSecretCtx ≠
          conf.challenge then (false, conf)
      else (true, { conf with
        keys := packetHeaderChangeDynamicKey conf.keys
          (xorBytes (xorBytes (speck128Decrypt wrapped conf.sharedSecretCtx) conf.challenge)
            (slice secret 0 authChallengeSize)) }) := by
  have honce := length_speck128Decrypt hagain.ge conf.sharedSecretCtx
  have htwice := length_speck128Decrypt (honce.trans hagain).ge conf.sharedSecretCtx
  have hfirst : ∀ {p q : List UInt8}, p.length = 16 → slice (p ++ q) 0 authChallengeSize = p := by
    intro p q hp
    rw [show authChallengeSize = p.length from hp.symm, slice_left]
  have hlast : ∀ {p : List UInt8}, p.length = 16 →
      slice (p ++ (hi ++ wrapped)) privatePublicKeySize authChallengeSize = wrapped := by
    intro p hp
    have hmid := slice_middle (x := p ++ hi) (z := []) (i := 32) (by simp [hp, hhi]) hwrapped
    rwa [List.append_nil, List.append_assoc] at hmid
  have hsecret : conf.sharedSecret.getD [] = secret := by
    rw [h.sharedSecret, Option.getD_some]
  rw [EdgeConf.handleRemoteAuth, if_pos h.scheme, htok, List.append_assoc]
  dsimp only
  rw [speck128Decrypt_append hagain, speck128Decrypt_append (honce.trans hagain),
    hfirst (htwice.trans (honce.trans hagain)), hlast (htwice.trans (honce.trans hagain)),
    hsecret]
  rfl

/-- The edge after it has sent its token. -/
theorem UserPassword.sent (h : conf.UserPassword secret) (auth : Auth)
    (challenge : List.Vector UInt8 16) :
    (conf.getLocalAuth auth challenge).1.UserPassword secret ∧
      (conf.getLocalAuth auth challenge).1.challenge = challenge.toList := by
  have hch : challenge.toList.length = 16 := challenge.2
  have htok : conf.auth.token.length = 48 := h.token
  have hpub : (conf.auth.token.take privatePublicKeySize).length = privatePublicKeySize := by
    simp [htok, privatePublicKeySize]
  have hcut := slice_middle (z := []) hpub hch
  rw [List.append_nil] at hcut
  rw [h.getLocalAuth]
  refine ⟨⟨h.scheme, ?_, h.sharedSecret, h.length, h.ctx⟩, hcut⟩
  simp [htok, hch, authPwTokenSize, privatePublicKeySize, authChallengeSize]

/-- **The answer to a challenge that is still stored** makes the edge install the dynamic key. -/
theorem UserPassword.accepts (h : conf.UserPassword secret) {presented : Auth} {user : SnUser}
    {key : List UInt8} (hsecret : user.sharedSecret = secret)
    (hctx : user.sharedSecretCtx = conf.sharedSecretCtx) (hkey : key.length = 16)
    (hsent : presented.token.length = authPwTokenSize)
    (hch : slice presented.token privatePublicKeySize authChallengeSize =
      speck128Encrypt conf.challenge conf.sharedSecretCtx) :
    conf.handleRemoteAuth (answerUser presented user key) =
      (true, { conf with keys := packetHeaderChangeDynamicKey conf.keys key }) := by
  have hstored : conf.challenge.length = 16 := length_slice _ _ _
  have hc := length_speck128Encrypt hstored.ge conf.sharedSecretCtx
  -- the token in three parts
  have hall : presented.token = slice presented.token 0 16 ++ slice presented.token 16 16 ++
      speck128Encrypt conf.challenge conf.sharedSecretCtx := by
    have hself := slice_left presented.token []
    rw [List.append_nil, hsent] at hself
    rw [← hch, ← slice_add _ 0 16 16]
    exact hself.symm.trans (slice_add _ 0 32 16)
  have htok := answerUser_token user (length_slice _ _ _) (length_slice _ _ _)
    (hc.trans hstored) hkey hall
  rw [hctx, hsecret, speck128Decrypt_encrypt hstored.ge] at htok
  have hs : (slice secret 0 authChallengeSize).length = 16 := length_slice _ _ _
  generalize hk : xorBytes (xorBytes conf.challenge key) (slice secret 0 authChallengeSize) = k
    at htok
  have hklen : k.length = 16 := by
    rw [← hk, length_xorBytes, length_xorBytes, hstored, hkey, hs]
    rfl
  have hagain := length_speck128Encrypt (hc.trans hstored).ge conf.sharedSecretCtx
  have hwrapped := length_speck128Encrypt hklen.ge conf.sharedSecretCtx
  have hfull : (answerUser presented user key).token.length = authPwTokenSize := by
    rw [htok]
    simp [hagain, hc, hstored, hwrapped, hklen, authPwTokenSize, privatePublicKeySize,
      authChallengeSize]
  have hslice := slice_left (answerUser presented user key).token []
  rw [List.append_nil, hfull, htok] at hslice
  rw [h.handleRemoteAuth (hagain.trans (hc.trans hstored)) (length_slice _ _ _)
    (hwrapped.trans hklen) (by rw [htok]; exact hslice), speck128Decrypt_encrypt
    (hc.trans hstored).ge, speck128Decrypt_encrypt hstored.ge, speck128Decrypt_encrypt hklen.ge,
    if_neg (not_not.mpr rfl)]
  -- the challenge and the secret cancel
  have hcancel : xorBytes (xorBytes k conf.challenge) (slice secret 0 authChallengeSize) = key := by
    rw [← hk, xorBytes_right_comm _ _ conf.challenge, xorBytes_comm conf.challenge key,
      xorBytes_cancel (q := conf.challenge) (by rw [hkey, hstored]),
      xorBytes_cancel (by rw [hkey, hs])]
  rw [hcancel]

end

end EdgeConf

theorem length_userName :
    ([104, 111, 109, 101] ++ List.replicate 16 0 : List UInt8).length = 20 := rfl

/-- An edge that has been set up with a user and a password. -/
def userConf : EdgeConf where
  communityName := ⟨[104, 111, 109, 101] ++ List.replicate 16 0, length_userName⟩
  headerEncryption := true
  auth := ⟨authUserPassword, 48, List.replicate 32 7 ++ List.replicate 16 0⟩
  sharedSecret := some (List.replicate 32 5)
  sharedSecretCtx := speckInit (List.replicate 32 5)
  keys := packetHeaderSetupKey ([104, 111, 109, 101] ++ List.replicate 16 0)

end N2n
