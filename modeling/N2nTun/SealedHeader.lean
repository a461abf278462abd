import N2nTun.TrialOrder

/-!
# Sealed packets

A packet is sent as it is, or with its header encrypted under the keys of its community.  In both
cases the receiver gets the same packet back; and what lies behind the packet in the buffer of the
sender does not matter.

## Main definitions

* `SealedAs` — what a packet may be sent as.

## Main results

* `packetHeaderEncrypt_behind` — what lies behind the packet does not matter.
* `SealedAs.opened` — **what was sealed is opened again**, with the keys it was sealed with.
* `hiddenLength_encrypt` — the length of the header, which may be that of more than the packet.
-/

namespace N2n

open Bytes

section

variable {start name rest : List UInt8} (hstart : start.length = 4)
  (hname : name.length = communitySize) {headerLen packetLen : UInt16}

/-- The first 16 bytes of an encrypted packet. -/
def sealedIv (packet : List UInt8) (packetLen : UInt16) (ctxIv : SpeckContext) (stamp : UInt64)
    (rand : UInt32) : List UInt8 :=
  speck128Encrypt (preIv (pearsonHash64 (slice packet 0 packetLen.toNat)) stamp rand) ctxIv

theorem length_sealedIv (packet : List UInt8) (packetLen : UInt16) (ctxIv : SpeckContext)
    (stamp : UInt64) (rand : UInt32) :
    (sealedIv packet packetLen ctxIv stamp rand).length = 16 := by
  rw [sealedIv, length_speck128Encrypt (by rfl), length_preIv]

include hstart hname

/-- The packet after encryption, with the initial value by name. -/
theorem packetHeaderEncrypt_sealedIv (hlen : 24 ≤ packetLen) (headerLen : UInt16)
    (ctx ctxIv : SpeckContext) (stamp : UInt64) (rand : UInt32) :
    let iv := sealedIv (start ++ name ++ rest) packetLen ctxIv stamp rand
    packetHeaderEncrypt (start ++ name ++ rest) headerLen packetLen ctx ctxIv stamp rand =
      iv ++ (speckCtr ((headerBody headerLen start rest).take (headerLen.toNat - 16)) iv ctx ++
        (headerBody headerLen start rest).drop (headerLen.toNat - 16)) :=
  packetHeaderEncrypt_eq hstart hname rest headerLen hlen ctx ctxIv stamp rand rfl rfl

theorem length_packetHeaderEncrypt (hlen : 24 ≤ packetLen) (headerLen : UInt16)
    (ctx ctxIv : SpeckContext) (stamp : UInt64) (rand : UInt32) :
    (packetHeaderEncrypt (start ++ name ++ rest) headerLen packetLen ctx ctxIv stamp
      rand).length = (start ++ name ++ rest).length := by
  have hsize : communitySize = 20 := rfl
  rw [packetHeaderEncrypt_sealedIv hstart hname hlen]
  simp only [List.length_append, length_sealedIv, length_speckCtr, List.length_take,
    List.length_drop, headerBody, length_bytes32]
  omega

/-- **What lies behind the packet does not matter**: it stays where it is. -/
theorem packetHeaderEncrypt_behind (hlen : 24 ≤ packetLen)
    (hpacket : packetLen.toNat = (start ++ name ++ rest).length)
    (hle : headerLen.toNat ≤ packetLen.toNat) (ctx ctxIv : SpeckContext) (stamp : UInt64)
    (rand : UInt32) (behind : List UInt8) :
    packetHeaderEncrypt (start ++ name ++ rest ++ behind) headerLen packetLen ctx ctxIv stamp rand =
      packetHeaderEncrypt (start ++ name ++ rest) headerLen packetLen ctx ctxIv stamp rand ++
        behind := by
  have hsize : communitySize = 20 := rfl
  have hsum : slice (start ++ name ++ (rest ++ behind)) 0 packetLen.toNat =
      slice (start ++ name ++ rest) 0 packetLen.toNat := by
    have hleft := slice_left (start ++ name ++ rest) behind
    have hself := slice_left (start ++ name ++ rest) []
    rw [List.append_nil] at hself
    rw [← List.append_assoc, hpacket, hleft, hself]
  have hiv : sealedIv (start ++ name ++ (rest ++ behind)) packetLen ctxIv stamp rand =
      sealedIv (start ++ name ++ rest) packetLen ctxIv stamp rand := by
    rw [sealedIv, sealedIv, hsum]
  have hbody : headerBody headerLen start (rest ++ behind) =
      headerBody headerLen start rest ++ behind := by
    simp only [headerBody, List.append_assoc]
  have hlong : headerLen.toNat - 16 ≤ (headerBody headerLen start rest).length := by
    simp only [List.length_append] at hpacket
    simp only [headerBody, List.length_append, length_bytes32]
    omega
  rw [List.append_assoc (start ++ name) rest, packetHeaderEncrypt_sealedIv hstart hname hlen,
    packetHeaderEncrypt_sealedIv hstart hname hlen, hiv, hbody, List.take_append_of_le_length hlong,
    List.drop_append_of_le_length hlong]
  simp only [List.append_assoc]

/-- The length of the header is found, also if it is more than that of the packet; only the first
24 bytes count. -/
theorem hiddenLength_encrypt (hlen : 24 ≤ packetLen) (hmin : 24 ≤ headerLen.toNat)
    (ctx ctxIv : SpeckContext) (stamp : UInt64) (rand : UInt32) :
    hiddenLength (packetHeaderEncrypt (start ++ name ++ rest) headerLen packetLen ctx ctxIv stamp
      rand) ctx = headerLen.toUInt32 := by
  have hmagic := headerMagic_found (length_sealedIv (start ++ name ++ rest) packetLen ctxIv stamp
    rand) hmin start rest ctx
  dsimp only at hmagic
  rw [packetHeaderEncrypt_sealedIv hstart hname hlen, hiddenLength, hmagic,
    UInt32.add_comm, UInt32.add_sub_cancel]

/-- Header and initial value are decrypted to what they were before. -/
theorem decryptedHeader_encrypt (hlen : 24 ≤ packetLen) (hmin : 24 ≤ headerLen.toNat)
    (hle : headerLen.toNat ≤ (start ++ name ++ rest).length)
    (ctx ctxIv : SpeckContext) (stamp : UInt64) (rand : UInt32) :
    decryptedHeader (packetHeaderEncrypt (start ++ name ++ rest) headerLen packetLen ctx ctxIv stamp
        rand) ctx ctxIv =
      preIv (pearsonHash64 (slice (start ++ name ++ rest) 0 packetLen.toNat)) stamp rand ++
        headerBody headerLen start rest := by
  have hsize : communitySize = 20 := rfl
  have hiv := length_sealedIv (start ++ name ++ rest) packetLen ctxIv stamp rand
  have hbody : headerLen.toNat - 16 ≤ (headerBody headerLen start rest).length := by
    simp only [List.length_append] at hle
    simp only [headerBody, List.length_append, length_bytes32]
    omega
  have hk : (headerLen.toUInt32 - 16).toNat = headerLen.toNat - 16 := by
    rw [UInt32.toNat_sub_of_le]
    · rw [UInt16.toNat_toUInt32]
      rfl
    · rw [UInt32.le_iff_toNat_le, UInt16.toNat_toUInt32]
      exact le_trans (by decide) hmin
  have hctr := speckCtrAt_body hiv hbody ctx
  rw [decryptedHeader, hiddenLength_encrypt hstart hname hlen hmin, hk,
    packetHeaderEncrypt_sealedIv hstart hname hlen, hctr, sealedIv,
    ← speck128Encrypt_append (by rfl), speck128Decrypt_encrypt (by simp)]

end

/-- A packet in its parts: four bytes, the name of its community, and the rest. -/
theorem exists_parts {p : List UInt8} {name : CommunityName} (hlen : 24 ≤ p.length)
    (hname : slice p 4 communitySize = name.toList) :
    ∃ start rest, p = start ++ name.toList ++ rest ∧ start.length = 4 := by
  have hsize : communitySize = 20 := rfl
  refine ⟨p.take 4, p.drop 24, ?_, by rw [List.length_take]; omega⟩
  have hmid : name.toList = (p.drop 4).take 20 := by
    rw [← hname, slice_eq_take_drop (by omega)]
    rfl
  rw [hmid, List.append_assoc, show 24 = 4 + 20 from rfl, ← List.drop_drop,
    List.take_append_drop, List.take_append_drop]

/-- The stamp of a packet that is accepted. -/
theorem packetHeaderDecrypt_sentStamp {p : List UInt8} {n : UInt16} {name : CommunityName}
    {ctx iv : SpeckContext} (hfit : (hiddenLength p ctx).toNat ≤ n.toNat)
    (hchecked : ChecksumFits p n name ctx iv) (stamp₀ : UInt64) :
    (packetHeaderDecrypt p n name.toList ctx iv stamp₀).stamp =
      be64At (decryptedHeader p ctx iv) 4 ^^^
        (pearsonHash64 (slice (openedPacket p name ctx iv) 0 n.toNat) <<< 32) := by
  unfold ChecksumFits openedPacket decryptedHeader hiddenLength at *
  unfold packetHeaderDecrypt
  dsimp only at hchecked ⊢
  rw [if_pos hfit, if_neg (not_not.mpr hchecked)]

/-- What a packet may be sent as: as it is, or with the first `headerLen` bytes encrypted under the
keys for headers. -/
inductive SealedAs (keys : Option (SpeckContext × SpeckContext)) (plain p : List UInt8) : Prop
  | plain (hkeys : keys = none) (hp : p = plain)
  | encrypted (ctx iv : SpeckContext) (hkeys : keys = some (ctx, iv)) (headerLen : UInt16)
      (stamp : UInt64) (rand : UInt32) (hmin : 24 ≤ headerLen.toNat)
      (hle : headerLen.toNat ≤ plain.length) (hlen : plain.length < 65536)
      (hp : p = packetHeaderEncrypt plain headerLen (UInt16.ofNat plain.length) ctx iv stamp rand)

/-- **What was sealed is opened again**, with the keys it was sealed with. -/
theorem SealedAs.opened {ctx iv : SpeckContext} {plain p : List UInt8} {name : CommunityName}
    (h : SealedAs (some (ctx, iv)) plain p) (hname : slice plain 4 communitySize = name.toList) :
    p.length = plain.length ∧ ∃ stamp, ∀ stamp₀,
      packetHeaderDecrypt p (UInt16.ofNat plain.length) name.toList ctx iv stamp₀ =
        ⟨true, plain, stamp⟩ := by
  cases h with
  | plain hkeys => cases hkeys
  | encrypted ctx' iv' hkeys headerLen stamp rand hmin hle hlen hp =>
    obtain ⟨rfl, rfl⟩ := Prod.mk.inj (Option.some.inj hkeys)
    obtain ⟨start, rest, rfl, hstart⟩ := exists_parts (hmin.trans hle) hname
    have hnamelen : name.toList.length = communitySize := name.2
    have hsize : (UInt16.ofNat (start ++ name.toList ++ rest).length).toNat =
        (start ++ name.toList ++ rest).length := UInt16.toNat_ofNat_of_lt' hlen
    have hpacket : 24 ≤ UInt16.ofNat (start ++ name.toList ++ rest).length := by
      rw [UInt16.le_iff_toNat_le, hsize]
      exact hmin.trans hle
    have hhidden := @hiddenLength_encrypt _ _ rest hstart hnamelen _ _ hpacket hmin ctx iv stamp
      rand
    have hheader := decryptedHeader_encrypt hstart hnamelen hpacket hmin hle ctx iv stamp rand
    rw [← hp] at hhidden hheader
    generalize hn : UInt16.ofNat (start ++ name.toList ++ rest).length = n at *
    generalize hsum : pearsonHash64 (slice (start ++ name.toList ++ rest) 0 n.toNat) = checksum at *
    -- the packet is put together again
    have hopened : openedPacket p name ctx iv = start ++ name.toList ++ rest := by
      have hback := restore_start_name hstart hnamelen rest checksum stamp rand headerLen
      dsimp only at hback
      rw [openedPacket, hheader]
      exact hback
    have hhigh : be32At (decryptedHeader p ctx iv) 0 = (checksum >>> 32).toUInt32 := by
      rw [hheader, preIv, List.append_assoc, be32At_bytes32]
    have hfit : (hiddenLength p ctx).toNat ≤ n.toNat := by
      rw [hhidden, UInt16.toNat_toUInt32, hsize]
      exact hle
    have hchecked : ChecksumFits p n name ctx iv := by
      rw [ChecksumFits, hopened, hsum, hhigh, toUInt64_high]
    refine ⟨?_, stamp, fun stamp₀ => ?_⟩
    · rw [hp]
      exact length_packetHeaderEncrypt hstart hnamelen hpacket headerLen ctx iv stamp rand
    · have hok := (packetHeaderDecrypt_ok_iff p n name ctx iv stamp₀).mpr ⟨hfit, hchecked⟩
      have hkept := packetHeaderDecrypt_packet p n name ctx iv stamp₀
      rw [if_pos hfit, hopened] at hkept
      have hstamp : (packetHeaderDecrypt p n name.toList ctx iv stamp₀).stamp = stamp := by
        have hword := be64At_preIv checksum stamp rand (headerBody headerLen start rest)
        rw [packetHeaderDecrypt_sentStamp hfit hchecked, hopened, hsum, hheader, hword,
          stamp_xor_checksum]
      rw [HeaderDecrypt.ext_ok hok, hkept, hstamp]

/-- A packet keeps its length. -/
theorem SealedAs.length_eq {keys : Option (SpeckContext × SpeckContext)} {plain p : List UInt8}
    {name : CommunityName} (h : SealedAs keys plain p)
    (hname : slice plain 4 communitySize = name.toList) : p.length = plain.length := by
  cases hk : keys with
  | none =>
    cases h with
    | plain _ hp => rw [hp]
    | encrypted ctx iv hkeys => cases hk.symm.trans hkeys
  | some k =>
    obtain ⟨ctx, iv⟩ := k
    rw [hk] at h
    exact (h.opened hname).1

end N2n
