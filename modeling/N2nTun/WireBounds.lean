import N2nTun.Wire

/-!
# How much the decoders store

`decode_buf` compares the size of a copy with the bytes that remain in the
packet, and with nothing else.  Two of the sizes it is called with come from the
packet itself: `auth.token_size`, copied to an array of
`N2N_AUTH_MAX_TOKEN_SIZE` bytes, and `num_sn`, whose list goes to a buffer of
`REG_SUPER_ACK_PAYLOAD_SPACE` bytes.  This module finds the packets whose copies
stay inside their destinations.

A decoder runs on after a field that was too short, so the offset of a later
field is not a function of the layout alone.  What saves the analysis is that
every field before the two copies takes at most 16 bytes: once one of them has
failed, fewer than 16 bytes remain, and no copy from there is long (`Skips`).

## Main results

* `decodersInBounds_iff` — **the copies of the four decoders fit exactly when the
  length fields do, or the packet ends before the copy.**
-/

namespace N2n

open Bytes

/-! ### Runs of short fields -/

/-- From `c` to `c'` a decoder went over fields of `n` bytes in all, none longer
than 16: it took them all, or it failed at one of them. -/
def Skips (c : Cursor) (n : ℕ) (c' : Cursor) : Prop :=
  (n ≤ c.rem ∧ c' = c.advance n) ∨ (c.rem < n ∧ c'.rem < 16)

@[simp] theorem Cursor.advance_rem (c : Cursor) (n : ℕ) : (c.advance n).rem = c.rem - n := rfl

@[simp] theorem Cursor.advance_idx (c : Cursor) (n : ℕ) : (c.advance n).idx = c.idx + n := rfl

theorem Cursor.advance_advance (c : Cursor) (m n : ℕ) :
    (c.advance m).advance n = c.advance (m + n) := by
  simp only [Cursor.advance, Cursor.mk.injEq]
  omega

theorem skips_decodeField {α : Type} {n : ℕ} (hn : n ≤ 16) (v out : α) (c : Cursor) :
    Skips c n (decodeField n v out c).cur := by
  unfold decodeField
  split
  · next h => exact Or.inr ⟨h, show c.rem < 16 by omega⟩
  · next h => exact Or.inl ⟨by omega, rfl⟩

theorem Skips.refl (c : Cursor) : Skips c 0 c := Or.inl ⟨Nat.zero_le _, rfl⟩

/-- Fields in sequence.  The length of the later ones may depend on where they
start, which is known as long as nothing has failed. -/
theorem Skips.trans {c c' c'' : Cursor} {n : ℕ} (k : ℕ → ℕ) (h : Skips c n c')
    (h' : Skips c' (k c'.idx) c'') : Skips c (n + k (c.idx + n)) c'' := by
  rcases h with ⟨hn, rfl⟩ | ⟨hn, hc'⟩
  · rcases h' with ⟨hk, rfl⟩ | ⟨hk, hc''⟩ <;>
      simp only [Cursor.advance_rem, Cursor.advance_idx] at hk
    · exact Or.inl ⟨by omega, Cursor.advance_advance _ _ _⟩
    · exact Or.inr ⟨by omega, hc''⟩
  · rcases h' with ⟨-, rfl⟩ | ⟨-, hc''⟩
    · exact Or.inr ⟨by omega, show c'.rem - _ < 16 by omega⟩
    · exact Or.inr ⟨by omega, hc''⟩

/-- `Skips.trans` for later fields of a fixed length. -/
theorem Skips.then {c c' c'' : Cursor} {n m : ℕ} (h : Skips c n c') (h' : Skips c' m c'') :
    Skips c (n + m) c'' := h.trans (fun _ => m) h'

/-! ### The fields before the copies -/

/-- The bytes a socket takes on the wire at offset `i`. -/
def sockLen (base : List UInt8) (i : ℕ) : ℕ :=
  if be16At base i &&& 0x8000 ≠ 0 then 20 else 8

/-- The bytes an optional socket takes on the wire at offset `i`. -/
def sockIfLen (cmn : Common) (base : List UInt8) (i : ℕ) : ℕ :=
  if cmn.flags &&& flagsSocket ≠ 0 then sockLen base i else 0

theorem skips_decodeUint16 (out : UInt16) (base : List UInt8) (c : Cursor) :
    Skips c 2 (decodeUint16 out base c).cur := skips_decodeField (by decide) _ _ _

theorem skips_decodeVec {n : ℕ} (hn : n ≤ 16) (out : List.Vector UInt8 n) (base : List UInt8)
    (c : Cursor) : Skips c n (decodeVec out base c).cur := skips_decodeField hn _ _ _

theorem skips_decodeMac (out : Mac) (base : List UInt8) (c : Cursor) :
    Skips c 6 (decodeMac out base c).cur := skips_decodeVec (by decide) out base c

theorem skips_decodeCookie (out : UInt32) (base : List UInt8) (c : Cursor) :
    Skips c 4 (decodeCookie out base c).cur := skips_decodeField (by decide) _ _ _

theorem skips_decodeDevAddr (base : List UInt8) (c : Cursor) :
    Skips c 5 (decodeDevAddr base c).cur := by
  have haddr : Skips c 4 (decodeUint32 0 base c).cur := skips_decodeField (by decide) _ _ _
  have hlen : Skips (decodeUint32 0 base c).cur 1
      (decodeUint8 0 base (decodeUint32 0 base c).cur).cur := skips_decodeField (by decide) _ _ _
  exact haddr.then hlen

theorem skips_decodeSock (out : Sock) (base : List UInt8) (c : Cursor) :
    Skips c (sockLen base c.idx) (decodeSock out base c).cur := by
  by_cases hc : c.rem < 2
  · -- nothing of the socket is there, and its word reads as 0
    have hw : (decodeUint16 0 base c).out = 0 := by simp [decodeUint16, decodeField, hc]
    have hf : (decodeUint16 0 base c).cur = c := by simp [decodeUint16, decodeField, hc]
    have hp : (decodeUint16 out.port base c).cur = c := by simp [decodeUint16, decodeField, hc]
    refine Or.inr ⟨by unfold sockLen; split <;> omega, ?_⟩
    simp only [decodeSock, hw, hf, hp]
    simp [decodeVec, decodeField, show c.rem < 4 by omega, show c.rem < 16 by omega]
  · have hw : (decodeUint16 0 base c).out = be16At base c.idx := by
      simp [decodeUint16, decodeField, hc]
    have hp := (skips_decodeUint16 0 base c).then (skips_decodeUint16 out.port base _)
    simp only [decodeSock, hw, sockLen]
    split
    · exact hp.then (skips_decodeVec (n := 16) le_rfl _ _ _)
    · exact hp.then (skips_decodeVec (n := 4) (by decide) _ _ _)

theorem skips_decodeSockIf (cmn : Common) (base : List UInt8) (c : Cursor) :
    Skips c (sockIfLen cmn base c.idx) (decodeSockIf cmn base c).cur := by
  unfold decodeSockIf sockIfLen
  split
  · exact skips_decodeSock _ _ _
  · exact Skips.refl c

/-! ### The token -/

/-- The token whose fields start `n` bytes behind `c` fits its array, or the
packet ends before the token does. -/
def TokenFits (base : List UInt8) (c : Cursor) (n : ℕ) : Prop :=
  (be16At base (c.idx + n + 2)).toNat ≤ authMaxTokenSize ∨
    c.rem < n + 4 + (be16At base (c.idx + n + 2)).toNat

/-- The token where its two words are there: it is copied if it is there too. -/
theorem decodeAuth_token {base : List UInt8} {c : Cursor} (h : 4 ≤ c.rem) :
    (decodeAuth base c).out.token =
      if c.rem < 4 + (be16At base (c.idx + 2)).toNat then Auth.zero.token
      else copyTo Auth.zero.token
        (slice base (c.idx + 4) (be16At base (c.idx + 2)).toNat) := by
  have h₁ : ¬ c.rem < 2 := by omega
  have h₂ : ¬ c.rem - 2 < 2 := by omega
  simp only [decodeAuth, decodeUint16, decodeBuf, decodeField, h₁, h₂, if_false,
    Cursor.advance_rem, Cursor.advance_idx]
  by_cases hts : c.rem < 4 + (be16At base (c.idx + 2)).toNat
  · rw [if_pos hts, if_pos (by omega)]
  · rw [if_neg hts, if_neg (by omega)]

/-- The cursor behind the token: a token that is not there is not skipped. -/
theorem decodeAuth_cur {base : List UInt8} {c : Cursor} (h : 4 ≤ c.rem) :
    (decodeAuth base c).cur =
      c.advance (4 + if c.rem < 4 + (be16At base (c.idx + 2)).toNat then 0
        else (be16At base (c.idx + 2)).toNat) := by
  have h₁ : ¬ c.rem < 2 := by omega
  have h₂ : ¬ c.rem - 2 < 2 := by omega
  simp only [decodeAuth, decodeUint16, decodeBuf, decodeField, h₁, h₂, if_false,
    Cursor.advance_rem, Cursor.advance_idx]
  by_cases hts : c.rem < 4 + (be16At base (c.idx + 2)).toNat
  · rw [if_pos hts, if_pos (by omega), Cursor.advance_advance]
  · rw [if_neg hts, if_neg (by omega), Cursor.advance_advance, Cursor.advance_advance,
      ← Nat.add_assoc]

/-- Where the two words are not there, the token has size 0. -/
theorem decodeAuth_short {base : List UInt8} {c : Cursor} (h : c.rem < 4) :
    (decodeAuth base c).out.token = Auth.zero.token ∧ (decodeAuth base c).cur.rem < 4 := by
  by_cases h₁ : c.rem < 2
  · simp [decodeAuth, decodeUint16, decodeBuf, decodeField, h₁, copyTo, Cursor.advance, h]
  · have h₂ : c.rem - 2 < 2 := by omega
    simp only [decodeAuth, decodeUint16, decodeBuf, decodeField, h₁, h₂, if_false, if_true,
      Cursor.advance_rem, UInt16.toNat_zero, Nat.not_lt_zero, slice_zero]
    exact ⟨rfl, by omega⟩

/-- **The token a decoder stores stays in its array exactly when it fits**, the
fields before it being short. -/
theorem token_length_le_iff {base : List UInt8} {c d : Cursor} {n : ℕ} (h : Skips c n d) :
    (decodeAuth base d).out.token.length ≤ authMaxTokenSize ↔ TokenFits base c n := by
  have hzero : Auth.zero.token.length = authMaxTokenSize := by simp [Auth.zero]
  have hmax : authMaxTokenSize = 48 := rfl
  unfold TokenFits
  by_cases hd : d.rem < 4
  · -- the packet is over before the token
    rw [(decodeAuth_short hd).1, hzero]
    refine iff_of_true le_rfl (Or.inr ?_)
    rcases h with ⟨hn, rfl⟩ | ⟨hn, -⟩
    · simp only [Cursor.advance_rem] at hd
      omega
    · omega
  · rw [decodeAuth_token (by omega)]
    by_cases hts : d.rem < 4 + (be16At base (d.idx + 2)).toNat
    · rw [if_pos hts]
      refine iff_of_true hzero.le (Or.inr ?_)
      rcases h with ⟨hn, rfl⟩ | ⟨hn, -⟩
      · simp only [Cursor.advance_rem, Cursor.advance_idx] at hts
        omega
      · omega
    · rw [if_neg hts, length_copyTo, length_slice, hzero]
      rcases h with ⟨hn, rfl⟩ | ⟨hn, hlt⟩
      · simp only [Cursor.advance_rem, Cursor.advance_idx] at hts ⊢
        omega
      · -- fewer than 16 bytes are left: no copy is long
        omega

/-! ### The list of supernodes -/

/-- The offset behind `c` of `num_sn` when the token's fields start at `n`: a
token that is not there is not skipped. -/
def numSnOffset (base : List UInt8) (c : Cursor) (n : ℕ) : ℕ :=
  let ts := (be16At base (c.idx + n + 2)).toNat
  n + 4 + if n + 4 + ts ≤ c.rem then ts else 0

/-- The list of supernodes behind the token fits `tmpbuf`, or the packet ends
before the list does. -/
def SnListFits (base : List UInt8) (c : Cursor) (n : ℕ) : Prop :=
  let o := numSnOffset base c n
  let size := (base.getD (c.idx + o) 0).toNat * regSuperAckPayloadEntrySize
  size ≤ regSuperAckPayloadSpace ∨ c.rem < o + 1 + size

/-- `tmpbuf` after `num_sn` and the list have been decoded at `e`. -/
def decodeSnList (base : List UInt8) (e : Cursor) (tmpbuf : List UInt8) : List UInt8 :=
  let numSn := decodeUint8 0 base e
  (decodeBuf tmpbuf (numSn.out.toNat * regSuperAckPayloadEntrySize) base numSn.cur).out

theorem decodeSnList_length {base : List UInt8} {e : Cursor} {tmpbuf : List UInt8}
    (ht : tmpbuf.length = regSuperAckPayloadSpace) :
    (decodeSnList base e tmpbuf).length ≤ regSuperAckPayloadSpace ↔
      (base.getD e.idx 0).toNat * regSuperAckPayloadEntrySize ≤ regSuperAckPayloadSpace ∨
        e.rem < 1 + (base.getD e.idx 0).toNat * regSuperAckPayloadEntrySize := by
  by_cases he : e.rem < 1
  · -- `num_sn` is not there and reads as 0
    have h0 : decodeSnList base e tmpbuf = tmpbuf := by
      simp [decodeSnList, decodeUint8, decodeBuf, decodeField, he, copyTo]
    rw [h0, ht]
    exact iff_of_true le_rfl (Or.inr (by omega))
  · simp only [decodeSnList, decodeUint8, decodeBuf, decodeField, he, if_false, Cursor.advance_rem,
      Cursor.advance_idx]
    split
    · exact iff_of_true ht.le (Or.inr (by omega))
    · simp only [length_copyTo, length_slice, ht]
      omega

/-- **The list of supernodes stays in `tmpbuf` exactly when it fits.** -/
theorem snList_length_le_iff {base : List UInt8} {c d : Cursor} {n : ℕ} (h : Skips c n d)
    {tmpbuf : List UInt8} (ht : tmpbuf.length = regSuperAckPayloadSpace) :
    (decodeSnList base (decodeAuth base d).cur tmpbuf).length ≤ regSuperAckPayloadSpace ↔
      SnListFits base c n := by
  rw [decodeSnList_length ht]
  have hspace : regSuperAckPayloadSpace = 1166 := rfl
  by_cases hd : d.rem < 4
  · -- the packet is over before `num_sn`
    have hrem := (@decodeAuth_short base _ hd).2
    refine iff_of_true (by omega) (Or.inr ?_)
    have hc : c.rem < n + 4 := by
      rcases h with ⟨hn, rfl⟩ | ⟨hn, -⟩
      · simp only [Cursor.advance_rem] at hd
        omega
      · omega
    simp only [numSnOffset]
    omega
  · rw [decodeAuth_cur (by omega)]
    rcases h with ⟨hn, rfl⟩ | ⟨hn, hlt⟩
    · -- the cursor is where `numSnOffset` says
      have ho : (c.advance n).advance (4 + if (c.advance n).rem <
            4 + (be16At base ((c.advance n).idx + 2)).toNat then 0
            else (be16At base ((c.advance n).idx + 2)).toNat)
          = c.advance (numSnOffset base c n) := by
        rw [Cursor.advance_advance]
        congr 1
        by_cases hts : (c.advance n).rem < 4 + (be16At base ((c.advance n).idx + 2)).toNat
        · rw [if_pos hts]
          simp only [Cursor.advance_rem, Cursor.advance_idx] at hts
          rw [numSnOffset, if_neg (by omega)]
        · rw [if_neg hts]
          simp only [Cursor.advance_rem, Cursor.advance_idx] at hts ⊢
          rw [numSnOffset, if_pos (by omega)]
          omega
      have hle : numSnOffset base c n ≤ c.rem := by
        simp only [numSnOffset, Cursor.advance_rem] at hd ⊢
        split <;> omega
      rw [ho]
      simp only [SnListFits, Cursor.advance_rem, Cursor.advance_idx]
      omega
    · -- fewer than 16 bytes are left: no list is long
      have ho : n ≤ numSnOffset base c n := by
        simp only [numSnOffset]
        omega
      refine iff_of_true ?_ (Or.inr (by omega))
      simp only [Cursor.advance_rem]
      omega

/-! ### The four decoders -/

/-- Where the token's fields start in a REGISTER_SUPER behind its common header. -/
def registerSuperAuthOffset (cmn : Common) (base : List UInt8) (c : Cursor) : ℕ :=
  10 + sockIfLen cmn base (c.idx + 10) + 5 + 16

/-- Where they start in a REGISTER_SUPER_ACK. -/
def registerSuperAckAuthOffset (base : List UInt8) (c : Cursor) : ℕ :=
  17 + sockLen base (c.idx + 17)

/-- The decoders with a token, run on one buffer, store at most
`N2N_AUTH_MAX_TOKEN_SIZE` bytes of it, and `decode_REGISTER_SUPER_ACK` at most
`REG_SUPER_ACK_PAYLOAD_SPACE` bytes in the buffer its callers pass. -/
structure DecodersInBounds (cmn : Common) (base : List UInt8) (c : Cursor)
    (tmpbuf : List.Vector UInt8 regSuperAckPayloadSpace) : Prop where
  registerSuper :
    (decodeRegisterSuper cmn base c).out.auth.token.length ≤ authMaxTokenSize
  unregisterSuper : (decodeUnregisterSuper base c).out.auth.token.length ≤ authMaxTokenSize
  registerSuperAck :
    (decodeRegisterSuperAck base c tmpbuf.toList).out.1.auth.token.length ≤ authMaxTokenSize
  registerSuperNak : (decodeRegisterSuperNak base c).out.auth.token.length ≤ authMaxTokenSize
  snList : (decodeRegisterSuperAck base c tmpbuf.toList).out.2.length ≤ regSuperAckPayloadSpace

/-- The length fields of the packet, each at its place for one of the decoders,
are at most the sizes of the destinations, or the packet is shorter than they
say. -/
structure LengthFieldsFit (cmn : Common) (base : List UInt8) (c : Cursor) : Prop where
  registerSuper : TokenFits base c (registerSuperAuthOffset cmn base c)
  unregisterSuper : TokenFits base c 0
  registerSuperAck : TokenFits base c (registerSuperAckAuthOffset base c)
  registerSuperNak : TokenFits base c 10
  snList : SnListFits base c (registerSuperAckAuthOffset base c)

theorem skips_registerSuper (cmn : Common) (base : List UInt8) (c : Cursor) :
    Skips c (registerSuperAuthOffset cmn base c)
      (decodeVec Desc.zero base (decodeDevAddr base (decodeSockIf cmn base
        (decodeMac nullMac base (decodeCookie 0 base c).cur).cur).cur).cur).cur := by
  have hmac := (skips_decodeCookie 0 base c).then (skips_decodeMac nullMac base _)
  have hsock := hmac.trans (sockIfLen cmn base) (skips_decodeSockIf cmn base _)
  have haddr := hsock.then (skips_decodeDevAddr base _)
  exact haddr.then (skips_decodeVec (n := 16) le_rfl _ _ _)

theorem skips_registerSuperAck (base : List UInt8) (c : Cursor) :
    Skips c (registerSuperAckAuthOffset base c)
      (decodeSock Sock.zero base (decodeUint16 0 base (decodeDevAddr base
        (decodeMac nullMac base (decodeCookie 0 base c).cur).cur).cur).cur).cur := by
  have hmac := (skips_decodeCookie 0 base c).then (skips_decodeMac nullMac base _)
  have haddr := hmac.then (skips_decodeDevAddr base _)
  have hlife := haddr.then (skips_decodeUint16 0 base _)
  exact hlife.trans (sockLen base) (skips_decodeSock Sock.zero base _)

theorem skips_registerSuperNak (base : List UInt8) (c : Cursor) :
    Skips c 10 (decodeMac nullMac base (decodeCookie 0 base c).cur).cur :=
  (skips_decodeCookie 0 base c).then (skips_decodeMac nullMac base _)

/-- **REGISTER_SUPER: the token stays in its array exactly when it fits.** -/
theorem registerSuper_token_le_iff (cmn : Common) (base : List UInt8) (c : Cursor) :
    (decodeRegisterSuper cmn base c).out.auth.token.length ≤ authMaxTokenSize ↔
      TokenFits base c (registerSuperAuthOffset cmn base c) := by
  rw [← token_length_le_iff (skips_registerSuper cmn base c)]
  rfl

/-- **UNREGISTER_SUPER: the token stays in its array exactly when it fits.** -/
theorem unregisterSuper_token_le_iff (base : List UInt8) (c : Cursor) :
    (decodeUnregisterSuper base c).out.auth.token.length ≤ authMaxTokenSize ↔
      TokenFits base c 0 := by
  rw [← token_length_le_iff (Skips.refl c)]
  rfl

/-- **REGISTER_SUPER_ACK: the token stays in its array exactly when it fits.** -/
theorem registerSuperAck_token_le_iff (base : List UInt8) (c : Cursor) (tmpbuf : List UInt8) :
    (decodeRegisterSuperAck base c tmpbuf).out.1.auth.token.length ≤ authMaxTokenSize ↔
      TokenFits base c (registerSuperAckAuthOffset base c) := by
  rw [← token_length_le_iff (skips_registerSuperAck base c)]
  rfl

/-- **REGISTER_SUPER_NAK: the token stays in its array exactly when it fits.** -/
theorem registerSuperNak_token_le_iff (base : List UInt8) (c : Cursor) :
    (decodeRegisterSuperNak base c).out.auth.token.length ≤ authMaxTokenSize ↔
      TokenFits base c 10 := by
  rw [← token_length_le_iff (skips_registerSuperNak base c)]
  rfl

/-- The second output of `decode_REGISTER_SUPER_ACK`. -/
theorem decodeRegisterSuperAck_tmpbuf (base : List UInt8) (c : Cursor) (tmpbuf : List UInt8) :
    (decodeRegisterSuperAck base c tmpbuf).out.2 =
      decodeSnList base (decodeAuth base (decodeSock Sock.zero base (decodeUint16 0 base
        (decodeDevAddr base (decodeMac nullMac base
          (decodeCookie 0 base c).cur).cur).cur).cur).cur).cur tmpbuf := by
  simp only [decodeRegisterSuperAck, decodeSnList]

/-- **What the decoders store stays inside its destination exactly when the
length fields fit**, or announce more than the packet holds. -/
theorem decodersInBounds_iff (cmn : Common) (base : List UInt8) (c : Cursor)
    (tmpbuf : List.Vector UInt8 regSuperAckPayloadSpace) :
    DecodersInBounds cmn base c tmpbuf ↔ LengthFieldsFit cmn base c := by
  have hreg := registerSuper_token_le_iff cmn base c
  have hunreg := unregisterSuper_token_le_iff base c
  have hack := registerSuperAck_token_le_iff base c tmpbuf.toList
  have hnak := registerSuperNak_token_le_iff base c
  have hlist : (decodeRegisterSuperAck base c tmpbuf.toList).out.2.length ≤
      regSuperAckPayloadSpace ↔ SnListFits base c (registerSuperAckAuthOffset base c) := by
    rw [decodeRegisterSuperAck_tmpbuf]
    exact snList_length_le_iff (skips_registerSuperAck base c) tmpbuf.toList_length
  constructor
  · intro h
    exact ⟨hreg.mp h.registerSuper, hunreg.mp h.unregisterSuper, hack.mp h.registerSuperAck,
      hnak.mp h.registerSuperNak, hlist.mp h.snList⟩
  · intro h
    exact ⟨hreg.mpr h.registerSuper, hunreg.mpr h.unregisterSuper, hack.mpr h.registerSuperAck,
      hnak.mpr h.registerSuperNak, hlist.mpr h.snList⟩

/-- A datagram of 77 bytes: the header of an UNREGISTER_SUPER, then a token of 49
bytes. -/
def overlongUnregister : List UInt8 :=
  [3, 2, 0, 6] ++ List.replicate 20 0 ++ [0, 1, 0, 49] ++ List.replicate 49 0xAA

/-- The token of `overlongUnregister` is copied past the end of its array. -/
theorem not_decodersInBounds_overlongUnregister :
    ¬ DecodersInBounds ⟨2, 6, 0, List.Vector.replicate 20 0⟩ overlongUnregister ⟨53, 24⟩
      (List.Vector.replicate _ 0) := by
  intro h
  exact absurd h.unregisterSuper (by decide)

end N2n
