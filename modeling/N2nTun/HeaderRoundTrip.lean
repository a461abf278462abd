import N2nTun.HeaderEncryption

/-!
# A header and back

`packet_header_decrypt` undoes `packet_header_encrypt`.  The packet is looked at in parts:
the four bytes at the start, the name of the community, and the rest.  Each overlay of the
encoder replaces one part, and the decoder goes through them backwards.

## Main definitions

* `preIv` — checksum, stamp and random word, as they stand before they are encrypted.

## Main results

* `packetHeaderDecrypt_length` — the packet keeps its length.
* `packetHeaderEncrypt_eq` — the encrypted packet.
* `packetHeader_roundTrip` — **what is encrypted is decrypted to itself.**
-/

namespace N2n

open Bytes

/-! ### Lengths -/

theorem length_speckCtrAt (packet : List UInt8) (i len : ℕ) (n : List UInt8)
    (ctx : SpeckContext) : (speckCtrAt packet i len n ctx).length = packet.length := by
  simp only [speckCtrAt, List.length_append, length_speckCtr, List.length_take, List.length_drop]
  omega

/-- A packet that is decrypted, or not, keeps its length. -/
theorem packetHeaderDecrypt_length {packet communityName : List UInt8} (h : 24 ≤ packet.length)
    (hname : communityName.length = communitySize) (packetLen : UInt16) (ctx ctxIv : SpeckContext)
    (stamp : UInt64) :
    (packetHeaderDecrypt packet packetLen communityName ctx ctxIv stamp).packet.length =
      packet.length := by
  have hsize : communitySize = 20 := rfl
  unfold packetHeaderDecrypt
  dsimp only
  split_ifs with hmagic
  all_goals try rfl
  all_goals
    generalize hp : speckCtrAt packet 16 _ packet ctx = p
    have hlen : p.length = packet.length := by rw [← hp, length_speckCtrAt]
    have hdec := length_speck128Decrypt (p := p) (by omega) ctxIv
    have hstart : (overwrite (speck128Decrypt p ctxIv) 0
        (slice (speck128Decrypt p ctxIv) 20 4)).length = (speck128Decrypt p ctxIv).length :=
      length_overwrite (by rw [length_slice]; omega)
    rw [length_overwrite (by omega), hstart, hdec, hlen]

/-! ### Words -/

theorem toUInt8_xor (u v k : UInt32) :
    ((u ^^^ v) >>> k).toUInt8 = (u >>> k).toUInt8 ^^^ (v >>> k).toUInt8 := by
  apply UInt8.toBitVec_inj.mp
  simp [BitVec.ushiftRight_xor_distrib]

theorem xorBytes_bytes32 (u v : UInt32) : xorBytes (bytes32 u) (bytes32 v) = bytes32 (u ^^^ v) := by
  have hlow : (u ^^^ v).toUInt8 = u.toUInt8 ^^^ v.toUInt8 := by simp
  simp [xorBytes, bytes32, toUInt8_xor, hlow]

/-- The high half of a word comes first. -/
theorem bytes64_eq (v : UInt64) :
    bytes64 v = bytes32 (v >>> 32).toUInt32 ++ bytes32 v.toUInt32 := by
  have hv := v.toNat_lt
  have hbyte : ∀ {x y : UInt8}, x.toNat = y.toNat → x = y := UInt8.toNat_inj.mp
  simp only [bytes64, bytes32, List.cons_append, List.nil_append, List.cons.injEq, and_true]
  refine ⟨hbyte ?_, hbyte ?_, hbyte ?_, hbyte ?_, hbyte ?_, hbyte ?_, hbyte ?_, hbyte ?_⟩ <;>
    simp [Nat.shiftRight_eq_div_pow] <;> omega

theorem toUInt64_high (v : UInt64) : (v >>> 32).toUInt32.toUInt64 = v >>> 32 := by
  apply UInt64.toNat_inj.mp
  have hv := v.toNat_lt
  simp [Nat.shiftRight_eq_div_pow]
  omega

/-- The checksum is taken off the stamp again. -/
theorem stamp_xor_checksum (checksum stamp : UInt64) :
    (((checksum.toUInt32 ^^^ (stamp >>> 32).toUInt32).toUInt64 <<< 32) |||
      stamp.toUInt32.toUInt64) ^^^ (checksum <<< 32) = stamp := by
  apply UInt64.toBitVec_inj.mp
  apply BitVec.eq_of_getLsbD_eq
  intro i hi
  simp only [UInt64.toBitVec_xor, UInt64.toBitVec_or, UInt64.toBitVec_shiftLeft,
    UInt32.toBitVec_toUInt64, UInt32.toBitVec_xor, UInt64.toBitVec_toUInt32,
    UInt64.toBitVec_shiftRight, BitVec.getLsbD_xor, BitVec.getLsbD_or]
  rw [show (32 : UInt64).toBitVec % 64 = 32#64 from rfl]
  by_cases h : i < 32
  · simp [h, hi]
  · have h' : i - 32 < 32 := by omega
    have hlow : i - 32 < 64 := by omega
    simp [h, h', hi, show 32 + (i - 32) = i by omega, BitVec.getLsbD_eq_getElem hlow]
    cases checksum.toBitVec[i - 32] <;> cases stamp.toBitVec[i] <;> rfl

/-! ### The encrypted packet -/

/-- Checksum, stamp and random word before they are encrypted. -/
def preIv (checksum stamp : UInt64) (rand : UInt32) : List UInt8 :=
  bytes32 (checksum >>> 32).toUInt32 ++
    (bytes32 (checksum.toUInt32 ^^^ (stamp >>> 32).toUInt32) ++
      (bytes32 stamp.toUInt32 ++ leBytes32 rand))

@[simp] theorem length_preIv (checksum stamp : UInt64) (rand : UInt32) :
    (preIv checksum stamp rand).length = 16 := rfl

/-- The overlays fill the first 16 bytes. -/
theorem overlay_preIv {head : List UInt8} (h : head.length = 16) (tail : List UInt8)
    (checksum stamp : UInt64) (rand : UInt32) :
    overwrite (overwrite (overwrite (overwrite (head ++ tail) 0 (bytes64 checksum)) 4
      (xorBytes (slice (overwrite (head ++ tail) 0 (bytes64 checksum)) 4 4)
        (bytes32 (stamp >>> 32).toUInt32))) 8 (bytes32 stamp.toUInt32)) 12 (leBytes32 rand) =
      preIv checksum stamp rand ++ tail := by
  rw [bytes64_eq, preIv, ← xorBytes_bytes32]
  match head, h with
  | [b₀, b₁, b₂, b₃, b₄, b₅, b₆, b₇, b₈, b₉, b₁₀, b₁₁, b₁₂, b₁₃, b₁₄, b₁₅], _ => rfl

/-- Counter mode behind a block, with the block as the nonce. -/
theorem speckCtrAt_block {blk : List UInt8} (h : blk.length = 16) (body : List UInt8) (k : ℕ)
    (ctx : SpeckContext) :
    speckCtrAt (blk ++ body) 16 k (blk ++ body) ctx =
      blk ++ (speckCtr (body.take k) blk ctx ++ body.drop k) := by
  have hnonce := speckCtr_nonce (body.take k) h body [] ctx
  rw [List.append_nil] at hnonce
  rw [speckCtrAt, List.take_left' h, List.drop_left' h, hnonce, List.append_assoc]

/-- What is encrypted by counter mode: the magic word and what followed the name. -/
def headerBody (headerLen : UInt16) (start rest : List UInt8) : List UInt8 :=
  bytes32 (headerMagic + headerLen.toUInt32) ++ (start ++ rest)

section

variable {start name rest : List UInt8}

/-- The encrypted packet: the encrypted checksum, stamp and random word, and the body up to
the length of the header under the key stream that starts there. -/
theorem packetHeaderEncrypt_eq (hstart : start.length = 4) (hname : name.length = communitySize)
    (rest : List UInt8) (headerLen : UInt16) {packetLen : UInt16} (hlen : 24 ≤ packetLen)
    (ctx ctxIv : SpeckContext)
    (stamp : UInt64) (rand : UInt32) {checksum : UInt64}
    (hsum : pearsonHash64 (slice (start ++ name ++ rest) 0 packetLen.toNat) = checksum)
    {iv : List UInt8} (hiv : speck128Encrypt (preIv checksum stamp rand) ctxIv = iv) :
    packetHeaderEncrypt (start ++ name ++ rest) headerLen packetLen ctx ctxIv stamp rand =
      iv ++ (speckCtr ((headerBody headerLen start rest).take (headerLen.toNat - 16)) iv ctx ++
        (headerBody headerLen start rest).drop (headerLen.toNat - 16)) := by
  have hivlen : iv.length = 16 := by rw [← hiv, length_speck128Encrypt (by rfl), length_preIv]
  -- the name is made of three parts, the last of which gets the start of the packet
  obtain ⟨n₁, n₂, n₃, rfl, h₁, h₂, h₃⟩ : ∃ n₁ n₂ n₃, name = n₁ ++ (n₂ ++ n₃) ∧
      n₁.length = 12 ∧ n₂.length = 4 ∧ n₃.length = 4 := by
    have hsize : communitySize = 20 := rfl
    refine ⟨name.take 12, (name.drop 12).take 4, (name.drop 12).drop 4, ?_, ?_, ?_, ?_⟩
    · rw [List.take_append_drop, List.take_append_drop]
    all_goals
      simp only [List.length_take, List.length_drop]
      omega
  have hhead : (start ++ n₁).length = 16 := by rw [List.length_append]; omega
  have hsplit : start ++ (n₁ ++ (n₂ ++ n₃)) ++ rest = (start ++ n₁ ++ n₂) ++ n₃ ++ rest := by
    simp only [List.append_assoc]
  have hslice : slice (start ++ (n₁ ++ (n₂ ++ n₃)) ++ rest) 0 4 = start := by
    rw [List.append_assoc, ← hstart, slice_left]
  have hmove : overwrite (start ++ (n₁ ++ (n₂ ++ n₃)) ++ rest) 20 start =
      (start ++ n₁) ++ (n₂ ++ (start ++ rest)) := by
    have h20 : (start ++ n₁ ++ n₂).length = 20 := by rw [List.length_append]; omega
    rw [hsplit, ← h20, overwrite_append (by omega)]
    simp only [List.append_assoc]
  have hmagic : overwrite (iv ++ (n₂ ++ (start ++ rest))) 16
      (bytes32 (headerMagic + headerLen.toUInt32)) = iv ++ headerBody headerLen start rest := by
    rw [← hivlen, ← List.append_assoc, overwrite_append h₂, List.append_assoc, headerBody]
  unfold packetHeaderEncrypt
  rw [if_neg (UInt16.not_lt.mpr hlen)]
  dsimp only
  rw [hsum, hslice, hmove, overlay_preIv hhead, speck128Encrypt_append (by rfl), hiv, hmagic,
    speckCtrAt_block hivlen]

/-! ### The way back -/

/-- The magic word is found under the start of the key stream. -/
theorem headerMagic_found {iv : List UInt8} (hiv : iv.length = 16) {headerLen : UInt16}
    (hlen : 24 ≤ headerLen.toNat) (start rest : List UInt8) (ctx : SpeckContext) :
    let body := headerBody headerLen start rest
    let packet := iv ++ (speckCtr (body.take (headerLen.toNat - 16)) iv ctx ++
      body.drop (headerLen.toNat - 16))
    be32At (speckCtr (slice packet 16 4) packet ctx) 0 = headerMagic + headerLen.toUInt32 := by
  intro body packet
  have hbody : body.take (headerLen.toNat - 16) = bytes32 (headerMagic + headerLen.toUInt32) ++
      (start ++ rest).take (headerLen.toNat - 16 - 4) := by
    rw [show body = bytes32 _ ++ (start ++ rest) from rfl, List.take_append, length_bytes32,
      List.take_of_length_le (by rw [length_bytes32]; omega)]
  have hprefix := speckCtr_append (bytes32 (headerMagic + headerLen.toUInt32))
    ((start ++ rest).take (headerLen.toNat - 16 - 4)) iv ctx
  rw [← hbody, length_bytes32] at hprefix
  have hlong : 4 ≤ (speckCtr (body.take (headerLen.toNat - 16)) iv ctx).length := by
    rw [length_speckCtr, hbody, List.length_append, length_bytes32]
    omega
  have hslice : slice packet 16 4 =
      speckCtr (bytes32 (headerMagic + headerLen.toUInt32)) iv ctx := by
    have happend := slice_append iv (speckCtr (body.take (headerLen.toNat - 16)) iv ctx ++
      body.drop (headerLen.toNat - 16)) 0 4
    rw [hiv] at happend
    rw [← hprefix, happend, slice_eq_take_drop (by rw [List.length_append]; omega), List.drop_zero,
      List.take_append_of_le_length hlong]
  have hnonce := speckCtr_nonce (slice packet 16 4) hiv (speckCtr (body.take (headerLen.toNat - 16))
    iv ctx ++ body.drop (headerLen.toNat - 16)) [] ctx
  have hword := be32At_bytes32 (headerMagic + headerLen.toUInt32) []
  rw [List.append_nil] at hnonce hword
  rw [hnonce, hslice, speckCtr_speckCtr, hword]

/-- Counter mode takes itself off the body. -/
theorem speckCtrAt_body {iv body : List UInt8} (hiv : iv.length = 16) {k : ℕ}
    (hk : k ≤ body.length) (ctx : SpeckContext) :
    speckCtrAt (iv ++ (speckCtr (body.take k) iv ctx ++ body.drop k)) 16 k
      (iv ++ (speckCtr (body.take k) iv ctx ++ body.drop k)) ctx = iv ++ body := by
  have hlen : (speckCtr (body.take k) iv ctx).length = k := by
    rw [length_speckCtr, List.length_take, Nat.min_eq_left hk]
  rw [speckCtrAt_block hiv, List.take_left' hlen, List.drop_left' hlen, speckCtr_speckCtr,
    List.take_append_drop]

/-- The stamp as it is found, with the checksum on it. -/
theorem be64At_preIv (checksum stamp : UInt64) (rand : UInt32) (body : List UInt8) :
    be64At (preIv checksum stamp rand ++ body) 4 =
      ((checksum.toUInt32 ^^^ (stamp >>> 32).toUInt32).toUInt64 <<< 32) |||
        stamp.toUInt32.toUInt64 := by
  have hfour : 4 = (bytes32 (checksum >>> 32).toUInt32).length + 0 := rfl
  have hfour' : 4 = (bytes32 (checksum.toUInt32 ^^^ (stamp >>> 32).toUInt32)).length + 0 := rfl
  rw [preIv, List.append_assoc, hfour, be64At_append, be64At, Nat.zero_add, List.append_assoc,
    be32At_bytes32, hfour', be32At_append, List.append_assoc, be32At_bytes32]

/-- **What follows the name can be told from the encrypted packet**, whatever the lengths that
are passed to `packet_header_encrypt`: packets with the same start and name that become the same
are the same. -/
theorem packetHeaderEncrypt_inj (hstart : start.length = 4) (hname : name.length = communitySize)
    {rest rest' : List UInt8} (hrest : rest'.length = rest.length) (headerLen packetLen : UInt16)
    (ctx ctxIv : SpeckContext) (stamp : UInt64) (rand : UInt32)
    (h : packetHeaderEncrypt (start ++ name ++ rest') headerLen packetLen ctx ctxIv stamp rand =
      packetHeaderEncrypt (start ++ name ++ rest) headerLen packetLen ctx ctxIv stamp rand) :
    rest' = rest := by
  by_cases hshort : packetLen < 24
  · -- the packet has been left as it is
    unfold packetHeaderEncrypt at h
    rw [if_pos hshort, if_pos hshort] at h
    exact List.append_cancel_left h
  have hlen : 24 ≤ packetLen := UInt16.not_lt.mp hshort
  have hiv : ∀ sum, (speck128Encrypt (preIv sum stamp rand) ctxIv).length = 16 := fun sum => by
    rw [length_speck128Encrypt (by rfl), length_preIv]
  rw [packetHeaderEncrypt_eq hstart hname rest' headerLen hlen ctx ctxIv stamp rand rfl rfl,
    packetHeaderEncrypt_eq hstart hname rest headerLen hlen ctx ctxIv stamp rand rfl rfl] at h
  -- both have the same nonce, and so the same key stream
  obtain ⟨hnonce, htail⟩ := List.append_inj h (by rw [hiv, hiv])
  rw [hnonce] at htail
  have hbody : (headerBody headerLen start rest').length =
      (headerBody headerLen start rest).length := by
    simp only [headerBody, List.length_append, hrest]
  obtain ⟨htake, hdrop⟩ := List.append_inj htail
    (by rw [length_speckCtr, length_speckCtr, List.length_take, List.length_take, hbody])
  have hclear := congrArg (speckCtr · (speck128Encrypt (preIv (pearsonHash64
    (slice (start ++ name ++ rest) 0 packetLen.toNat)) stamp rand) ctxIv) ctx) htake
  rw [speckCtr_speckCtr, speckCtr_speckCtr] at hclear
  have heq : headerBody headerLen start rest' = headerBody headerLen start rest := by
    rw [← List.take_append_drop (headerLen.toNat - 16) (headerBody headerLen start rest'), hclear,
      hdrop, List.take_append_drop]
  exact List.append_cancel_left (List.append_cancel_left heq)

/-- The start and the name are put back where they were. -/
theorem restore_start_name (hstart : start.length = 4) (hname : name.length = communitySize)
    (rest : List UInt8) (checksum stamp : UInt64) (rand : UInt32) (headerLen : UInt16) :
    let packet := preIv checksum stamp rand ++ headerBody headerLen start rest
    overwrite (overwrite packet 0 (slice packet 20 4)) 4 name = start ++ name ++ rest := by
  intro packet
  let tail := bytes32 (checksum.toUInt32 ^^^ (stamp >>> 32).toUInt32) ++
    (bytes32 stamp.toUInt32 ++ leBytes32 rand)
  let magic := bytes32 (headerMagic + headerLen.toUInt32)
  have hpacket : packet =
      bytes32 (checksum >>> 32).toUInt32 ++ (tail ++ (magic ++ (start ++ rest))) :=
    List.append_assoc _ _ _
  have hslice : slice packet 20 4 = start := by
    have hsplit : packet = preIv checksum stamp rand ++ magic ++ (start ++ rest) :=
      (List.append_assoc _ _ _).symm
    have htwenty : 20 = (preIv checksum stamp rand ++ magic).length + 0 := rfl
    rw [hsplit, htwenty, slice_append, ← hstart, slice_left]
  have hfirst : overwrite packet 0 start = start ++ (tail ++ (magic ++ (start ++ rest))) := by
    rw [hpacket]
    exact overwrite_append (x := []) hstart.symm
  have hsplit : start ++ (tail ++ (magic ++ (start ++ rest))) =
      start ++ (tail ++ magic ++ start) ++ rest := by
    simp only [List.append_assoc]
  have htail : (tail ++ magic ++ start).length = name.length := by
    rw [List.length_append, hstart, hname]
    rfl
  rw [hslice, hfirst, hsplit, ← hstart, overwrite_append htail]

end

/-- **What is encrypted is decrypted to itself**: the packet, byte for byte, and the stamp. -/
theorem packetHeader_roundTrip {p : List UInt8} {name : CommunityName}
    {headerLen packetLen : UInt16}
    (hheader : 24 ≤ headerLen) (hle : headerLen ≤ packetLen) (hp : packetLen.toNat ≤ p.length)
    (hname : slice p 4 communitySize = name.toList) (ctx ctxIv : SpeckContext)
    (stamp stamp₀ : UInt64) (rand : UInt32) :
    packetHeaderDecrypt (packetHeaderEncrypt p headerLen packetLen ctx ctxIv stamp rand) packetLen
      name.toList ctx ctxIv stamp₀ = ⟨true, p, stamp⟩ := by
  have hheader' : 24 ≤ headerLen.toNat := UInt16.le_iff_toNat_le.mp hheader
  have hle' : headerLen.toNat ≤ packetLen.toNat := UInt16.le_iff_toNat_le.mp hle
  have hnamelen : name.toList.length = communitySize := name.2
  -- the parts of the packet
  obtain ⟨start, rest, hparts, hstart⟩ : ∃ start rest, p = start ++ name.toList ++ rest ∧
      start.length = 4 := by
    refine ⟨p.take 4, p.drop 24, ?_, by rw [List.length_take]; omega⟩
    have hmid : name.toList = (p.drop 4).take 20 := by
      rw [← hname, slice_eq_take_drop (by have : communitySize = 20 := rfl; omega)]
      rfl
    rw [hmid, List.append_assoc, show 24 = 4 + 20 from rfl, ← List.drop_drop,
      List.take_append_drop, List.take_append_drop]
  have hrest : p.length = 24 + rest.length := by
    rw [hparts, List.length_append, List.length_append, hstart, hnamelen]
    rfl
  generalize hsum : pearsonHash64 (slice p 0 packetLen.toNat) = checksum
  generalize hiv : speck128Encrypt (preIv checksum stamp rand) ctxIv = iv
  have hivlen : iv.length = 16 := by rw [← hiv, length_speck128Encrypt (by rfl), length_preIv]
  have henc := packetHeaderEncrypt_eq hstart hnamelen rest headerLen
    (UInt16.le_trans hheader hle) ctx ctxIv stamp rand
    (by rw [← hparts]; exact hsum) hiv
  rw [← hparts] at henc
  have hmagic := headerMagic_found hivlen hheader' start rest ctx
  have hbody : headerLen.toNat - 16 ≤ (headerBody headerLen start rest).length := by
    simp only [headerBody, List.length_append, length_bytes32]
    omega
  have hctr := speckCtrAt_body hivlen hbody ctx
  have hdec : speck128Decrypt (iv ++ headerBody headerLen start rest) ctxIv =
      preIv checksum stamp rand ++ headerBody headerLen start rest := by
    rw [← hiv, ← speck128Encrypt_append (by rfl), speck128Decrypt_encrypt (by simp)]
  have hback := restore_start_name hstart hnamelen rest checksum stamp rand headerLen
  rw [← hparts] at hback
  have hsub : headerMagic + headerLen.toUInt32 - headerMagic = headerLen.toUInt32 := by
    rw [UInt32.add_comm, UInt32.add_sub_cancel]
  have hk : (headerLen.toUInt32 - 16).toNat = headerLen.toNat - 16 := by
    rw [UInt32.toNat_sub_of_le]
    · rw [UInt16.toNat_toUInt32]
      rfl
    · rw [UInt32.le_iff_toNat_le, UInt16.toNat_toUInt32]
      exact le_trans (by decide) hheader'
  have hhigh : be32At (preIv checksum stamp rand ++ headerBody headerLen start rest) 0 =
      (checksum >>> 32).toUInt32 := by
    rw [preIv, List.append_assoc, be32At_bytes32]
  unfold packetHeaderDecrypt
  dsimp only at hmagic ⊢
  rw [henc, hmagic, hsub, hk, if_pos (by simpa using hle'), hctr, hdec, hback, hsum, be64At_preIv,
    hhigh, toUInt64_high, if_neg (not_not.mpr rfl), stamp_xor_checksum]

/-- A PACKET of 40 bytes for the community "net", of which 32 are encrypted. -/
theorem packetHeader_roundTrip_net :
    let name : CommunityName := ⟨[110, 101, 116] ++ List.replicate 17 0, rfl⟩
    let p := [3, 2, 0, 3] ++ name.toList ++ List.replicate 16 7
    let ctx := speckInit (List.replicate 16 1)
    let ctxIv := speckInit (List.replicate 16 2)
    p.length = 40 ∧
      packetHeaderDecrypt (packetHeaderEncrypt p 32 40 ctx ctxIv 0x6400000000 5) 40 name.toList ctx
        ctxIv 0 = ⟨true, p, 0x6400000000⟩ :=
  ⟨rfl, packetHeader_roundTrip (by decide) (by decide) (by decide) (by decide) _ _ _ _ _⟩

end N2n
