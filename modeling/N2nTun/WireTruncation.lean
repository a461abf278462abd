import N2nTun.WireReader

/-!
# Truncated messages

What the decoders of `wire.c` do with a buffer that is too short.  The bytes are accounted
for and none behind the end is looked at, but for the blank byte of a socket in a list of
supernodes.  A truncated message may still give the count of a complete one, since a socket
is not counted, and its later fields may be filled with bytes of an earlier one that did not
fit.

## Main definitions

* `Decoder`, `Decoder.decode` — all decoders.
* `Decoder.Steady` — the bytes are accounted for, and truncation shows.

## Main results

* `Decoder.steady_iff` — **when a decoder is steady.**
-/

namespace N2n

open Bytes Parts Reader

/-- The decoders of `wire.c`. -/
inductive Decoder where
  | common
  | sock
  | sockPayload
  | msg (k : MsgKind)
  deriving DecidableEq

/-- What the arguments of a decoder point to before it is called: the common header, which
`decode_common` writes to, a socket, and the buffer for the list of supernodes. -/
structure DecodeArgs where
  cmn : Common
  sock : Sock
  tmpbuf : List UInt8

/-- What a decoder has filled in. -/
inductive DecodeOut where
  | common (cmn : Common)
  | sock (s : Sock)
  | msg (m : Msg)

/-- A call of a decoder. -/
def Decoder.decode (a : DecodeArgs) (base : List UInt8) (c : Cursor) : Decoder → Decoded DecodeOut
  | .common => (decodeCommon a.cmn base c).map .common
  | .sock => (decodeSock a.sock base c).map .sock
  | .sockPayload => (decodeSockPayload a.sock base c).map .sock
  | .msg k => (k.decode a.cmn base c a.tmpbuf).map .msg

/-- The fields of the common header; nothing is read after a wrong version. -/
def commonReader (out : Common) : Reader Common := do
  let version ← uint8 true 0
  if version ≠ pktVersion then return out
  else
    let ttl ← uint8 true out.ttl
    let flags ← uint16 true out.flags
    let community ← vec true out.community
    return ⟨ttl, (flags &&& flagsTypeMask).toUInt8, flags &&& flagsBitsMask, community⟩

/-- The fields of a socket in a list of supernodes, the blank byte among them. -/
def payloadReader (out : Sock) : Reader Sock := do
  let family ← uint8 true out.family
  let _blank ← uint8 true 0
  let portLow ← uint8 true 0
  let portHigh ← uint8 true 0
  let addr ← vec true out.addr
  return ⟨family, out.type, be16 portHigh portLow, addr⟩

/-- The fields that a decoder asks for. -/
def Decoder.parts (a : DecodeArgs) (base : List UInt8) (c : Cursor) : Decoder → List Part
  | .common => (commonReader a.cmn).parts base c
  | .sock => (Reader.sock a.sock).parts base c
  | .sockPayload => (payloadReader a.sock).parts base c
  | .msg k => (k.reader a.cmn a.tmpbuf).parts base c

/-- A decoder deals well with a buffer that ends with the bytes at the cursor. -/
structure Decoder.Steady (D : Decoder) (a : DecodeArgs) (base : List UInt8) (c : Cursor) :
    Prop where
  /-- the bytes are accounted for -/
  sum : (D.decode a base c).cur.idx + (D.decode a base c).cur.rem = c.idx + c.rem
  inside : (D.decode a base c).cur.idx ≤ c.idx + c.rem
  /-- no byte behind the end is looked at -/
  bounded : ∀ base' : List UInt8, (∀ k < c.idx + c.rem, base'.getD k 0 = base.getD k 0) →
    D.decode a base' c = D.decode a base c
  /-- if a field does not fit, the count is not that of a complete message, and no later field
  is filled -/
  short : (∃ s ∈ Part.steps (D.parts a base c) c.rem, ¬ s.Fits) →
    (D.decode a base c).ret ≠ Part.full (D.parts a base c) ∧
      (Part.steps (D.parts a base c) c.rem).Pairwise
        fun s t => ¬ s.Fits → t.Fits → t.part.size = 0

/-! ### Readers are as steady as their fields -/

/-- A decoder that is the run of a reader. -/
theorem Decoder.steady_of_run {α : Type} {D : Decoder} {a : DecodeArgs} {f : α → DecodeOut}
    {r : Reader α} {base : List UInt8} {c : Cursor}
    (hrun : ∀ base', D.decode a base' c = (r.run base' c).map f)
    (hparts : D.parts a base c = r.parts base c) :
    D.Steady a base c ↔ Part.Clean (D.parts a base c) c.rem := by
  have hret : (D.decode a base c).ret = Part.count (D.parts a base c) c.rem := by
    rw [hrun, hparts, ← r.run_ret c]
    rfl
  have hsum : (D.decode a base c).cur.idx + (D.decode a base c).cur.rem = c.idx + c.rem := by
    rw [hrun]
    exact r.run_cur c
  rw [← Part.sound_iff_clean]
  constructor
  · intro h hshort
    obtain ⟨hne, hpair⟩ := h.short hshort
    rw [hret] at hne
    exact ⟨by exact_mod_cast hne, hpair⟩
  · intro h
    refine ⟨hsum, by omega, fun base' hsame => ?_, fun hshort => ?_⟩
    · rw [hrun, hrun, (r.run_congr c hsame).1]
    · obtain ⟨hne, hpair⟩ := h hshort
      rw [hret]
      exact ⟨by exact_mod_cast hne, hpair⟩

/-! ### The common header -/

theorem decodeField_idx {α : Type} (n : ℕ) (v out : α) (c : Cursor) :
    ((decodeField n v out c).cur.idx : ℤ) = c.idx + (decodeField n v out c).ret := by
  unfold decodeField
  split_ifs
  · simp
  · simp [Cursor.advance]

/-- `decode_common` runs its reader, unless the version is wrong. -/
theorem decodeCommon_eq (out : Common) (base : List UInt8) (c : Cursor) :
    decodeCommon out base c =
      if (decodeUint8 0 base c).out ≠ pktVersion then
        { (commonReader out).run base c with ret := -1 }
      else (commonReader out).run base c := by
  unfold decodeCommon commonReader
  simp only [run_bind, run_uint8, if_true]
  by_cases h : (decodeUint8 0 base c).out ≠ pktVersion
  · simp only [if_pos h, run_pure]
  · simp only [if_neg h, run_bind, run_uint8, run_uint16, run_vec, run_pure, if_true]
    refine congrArg (fun r => (⟨r, _, _⟩ : Decoded Common)) ?_
    have hversion : ((decodeUint8 0 base c).cur.idx : ℤ) = c.idx + (decodeUint8 0 base c).ret :=
      decodeField_idx _ _ _ _
    generalize decodeUint8 0 base c = version at hversion ⊢
    have httl : ((decodeUint8 out.ttl base version.cur).cur.idx : ℤ) =
        version.cur.idx + (decodeUint8 out.ttl base version.cur).ret := decodeField_idx _ _ _ _
    generalize decodeUint8 out.ttl base version.cur = ttl at httl ⊢
    have hflags : ((decodeUint16 out.flags base ttl.cur).cur.idx : ℤ) =
        ttl.cur.idx + (decodeUint16 out.flags base ttl.cur).ret := decodeField_idx _ _ _ _
    generalize decodeUint16 out.flags base ttl.cur = flags at hflags ⊢
    have hname : ((decodeVec out.community base flags.cur).cur.idx : ℤ) =
        flags.cur.idx + (decodeVec out.community base flags.cur).ret := decodeField_idx _ _ _ _
    omega

/-- The common header shows every truncation. -/
theorem commonReader_clean (out : Common) (base : List UInt8) (c : Cursor) :
    Part.Clean ((commonReader out).parts base c) c.rem := by
  have hparts : (commonReader out).parts base c = [⟨1, true⟩] ∨
      (commonReader out).parts base c = [⟨1, true⟩, ⟨1, true⟩, ⟨2, true⟩, ⟨20, true⟩] := by
    unfold commonReader
    rw [parts_bind]
    generalize (uint8 true 0).run base c = d
    by_cases h : d.out ≠ pktVersion
    · left
      rw [if_pos h]
      exact congrArg (· ++ []) parts_field
    · right
      rw [if_neg h, parts_bind, parts_bind, parts_bind]
      simp only [uint8, uint16, vec, parts_field]
      rfl
  rcases hparts with hparts | hparts
  · rw [hparts]
    simp [Part.Clean]
  · rw [hparts]
    simp only [Part.Clean]
    split_ifs <;> simp <;> omega

theorem Decoder.steady_common (a : DecodeArgs) (base : List UInt8) (c : Cursor) :
    Decoder.common.Steady a base c := by
  have hsound := Part.sound_iff_clean.mpr (commonReader_clean a.cmn base c)
  have hcur : (decodeCommon a.cmn base c).cur = ((commonReader a.cmn).run base c).cur := by
    rw [decodeCommon_eq]
    split_ifs <;> rfl
  have hret : (decodeCommon a.cmn base c).ret = -1 ∨
      (decodeCommon a.cmn base c).ret = Part.count ((commonReader a.cmn).parts base c) c.rem := by
    rw [decodeCommon_eq]
    split_ifs
    · exact Or.inl rfl
    · exact Or.inr ((commonReader a.cmn).run_ret c)
  have hsum : (decodeCommon a.cmn base c).cur.idx + (decodeCommon a.cmn base c).cur.rem =
      c.idx + c.rem := by
    rw [hcur]
    exact (commonReader a.cmn).run_cur c
  refine ⟨hsum, ?_, fun base' hsame => ?_, fun hshort => ?_⟩
  · show (decodeCommon a.cmn base c).cur.idx ≤ _
    omega
  · have hversion := ((uint8 true 0).run_congr c hsame).1
    simp only [run_uint8, if_true] at hversion
    show (decodeCommon a.cmn base' c).map DecodeOut.common = (decodeCommon a.cmn base c).map _
    rw [decodeCommon_eq, decodeCommon_eq, ((commonReader a.cmn).run_congr c hsame).1,
      (Decoded.mk.inj hversion).2.1]
  · obtain ⟨hne, hpair⟩ := hsound hshort
    refine ⟨?_, hpair⟩
    show (decodeCommon a.cmn base c).ret ≠ _
    rcases hret with hret | hret
    · rw [hret]
      exact ne_of_lt (by omega)
    · rw [hret]
      exact_mod_cast hne

/-! ### Sockets in a list of supernodes -/

theorem decodeField_sum {α : Type} (n : ℕ) (v out : α) (c : Cursor) :
    (decodeField n v out c).cur.idx + (decodeField n v out c).cur.rem = c.idx + c.rem := by
  unfold decodeField
  split_ifs with h
  · rfl
  · dsimp only [Cursor.advance]
    omega

/-- The wrapping decrement of `--(*rem)` is the ordinary one for a positive count. -/
theorem wrapping_pred {n w : ℕ} (h : 1 ≤ n) (h' : n < w) : (n + w - 1) % w = n - 1 := by
  have hsum : n + w - 1 = n - 1 + w := by omega
  rw [hsum, Nat.add_mod_right, Nat.mod_eq_of_lt (by omega)]

/-- `decode_sock_payload`, with the size of the counter as a variable. -/
def sockPayloadAt (w : ℕ) (out : Sock) (base : List UInt8) (c : Cursor) : Decoded Sock :=
  let family := decodeUint8 out.family base c
  let c₁ : Cursor := ⟨(family.cur.rem + w - 1) % w, family.cur.idx + 1⟩
  let portLow := decodeUint8 0 base c₁
  let portHigh := decodeUint8 0 base portLow.cur
  let addr := decodeVec out.addr base portHigh.cur
  ⟨family.ret + 1 + portLow.ret + portHigh.ret + addr.ret,
    ⟨family.out, out.type, be16 portHigh.out portLow.out, addr.out⟩, addr.cur⟩

/-- With two bytes, `decode_sock_payload` runs its reader. -/
theorem sockPayloadAt_eq {w : ℕ} {c : Cursor} (h : 2 ≤ c.rem) (h' : c.rem < w) (out : Sock)
    (base : List UInt8) : sockPayloadAt w out base c = (payloadReader out).run base c := by
  have hfamily : decodeUint8 out.family base c =
      ⟨1, base.getD c.idx 0, ⟨c.rem - 1, c.idx + 1⟩⟩ := decodeField_of_le (by omega) _ _
  have hblank : decodeUint8 0 base ⟨c.rem - 1, c.idx + 1⟩ =
      ⟨1, base.getD (c.idx + 1) 0, ⟨c.rem - 1 - 1, c.idx + 1 + 1⟩⟩ :=
    decodeField_of_le (by dsimp only; omega) _ _
  have hskip : (c.rem - 1 + w - 1) % w = c.rem - 1 - 1 := wrapping_pred (by omega) (by omega)
  unfold sockPayloadAt payloadReader
  simp only [run_bind, run_uint8, run_vec, run_pure, if_true, hfamily, hblank, hskip]
  simp only [add_assoc, add_zero]

/-- With fewer, the count of the remaining bytes wraps. -/
theorem sockPayloadAt_sum {w : ℕ} {c : Cursor} (hw : 1 ≤ w) (h : c.rem < 2) (out : Sock)
    (base : List UInt8) :
    (sockPayloadAt w out base c).cur.idx + (sockPayloadAt w out base c).cur.rem =
      c.idx + c.rem + w := by
  unfold sockPayloadAt
  dsimp only
  have hfamily : (decodeUint8 out.family base c).cur.rem = 0 ∧
      (decodeUint8 out.family base c).cur.idx = c.idx + c.rem := by
    unfold decodeUint8 decodeField
    split_ifs <;> dsimp only [Cursor.advance] <;> omega
  generalize decodeUint8 out.family base c = family at hfamily ⊢
  have hskip : (family.cur.rem + w - 1) % w = w - 1 := by
    rw [hfamily.1, Nat.zero_add, Nat.mod_eq_of_lt (by omega)]
  rw [hskip]
  rw [decodeVec, decodeField_sum, decodeUint8, decodeField_sum, decodeUint8, decodeField_sum]
  dsimp only
  omega

/-! ### All decoders -/

/-- A socket in a list of supernodes. -/
theorem Decoder.steady_sockPayload {w : ℕ} {a : DecodeArgs} {base : List UInt8} {c : Cursor}
    (hdec : ∀ base', Decoder.sockPayload.decode a base' c =
      (sockPayloadAt w a.sock base' c).map .sock) (hsize : c.rem < w) :
    Decoder.sockPayload.Steady a base c ↔
      Part.Clean (Decoder.sockPayload.parts a base c) c.rem ∧ 2 ≤ c.rem := by
  by_cases htwo : 2 ≤ c.rem
  · have hrun : ∀ base', Decoder.sockPayload.decode a base' c =
        ((payloadReader a.sock).run base' c).map .sock := by
      intro base'
      rw [hdec, sockPayloadAt_eq htwo hsize]
    rw [steady_of_run hrun rfl]
    exact ⟨fun h => ⟨h, htwo⟩, And.left⟩
  · refine iff_of_false (fun h => ?_) (fun h => htwo h.2)
    have hsum := h.sum
    have hwrap := sockPayloadAt_sum (w := w) (by omega) (Nat.not_le.mp htwo) a.sock base
    simp only [hdec, Decoded.map] at hsum
    omega

theorem Decoder.decode_sockPayload (a : DecodeArgs) (base : List UInt8) (c : Cursor) :
    Decoder.sockPayload.decode a base c = (sockPayloadAt (2 ^ 64) a.sock base c).map .sock :=
  rfl

/-- **When a decoder is steady.**  All fields fit; or the first one that does not is followed by
longer fields than there are bytes left, and one of these is not part of a socket.  For a
socket in a list of supernodes there must be two bytes. -/
theorem Decoder.steady_iff (D : Decoder) (a : DecodeArgs) (base : List UInt8) {c : Cursor}
    (hsize : c.rem < 2 ^ 64) :
    D.Steady a base c ↔
      Part.Clean (D.parts a base c) c.rem ∧ (D = .sockPayload → 2 ≤ c.rem) := by
  cases D with
  | common =>
    refine iff_of_true (steady_common a base c) ⟨commonReader_clean a.cmn base c, ?_⟩
    rintro ⟨⟩
  | sock =>
    have hrun : ∀ base', Decoder.sock.decode a base' c =
        ((Reader.sock a.sock).run base' c).map .sock := by
      intro base'
      rw [run_sock]
      rfl
    rw [steady_of_run hrun rfl]
    exact ⟨fun h => ⟨h, by rintro ⟨⟩⟩, And.left⟩
  | sockPayload =>
    rw [steady_sockPayload (fun base' => decode_sockPayload a base' c) hsize]
    simp
  | msg k =>
    have hrun : ∀ base', (Decoder.msg k).decode a base' c =
        ((k.reader a.cmn a.tmpbuf).run base' c).map .msg := by
      intro base'
      rw [← MsgKind.decode_eq]
      rfl
    rw [steady_of_run hrun rfl]
    exact ⟨fun h => ⟨h, by rintro ⟨⟩⟩, And.left⟩

/-- Cleared arguments. -/
def DecodeArgs.zero : DecodeArgs := ⟨⟨0, 0, 0, List.Vector.replicate 20 0⟩, Sock.zero, []⟩

/-- A complete PACKET header without a socket is dealt with well. -/
theorem Decoder.steady_packet :
    (Decoder.msg .packet).Steady DecodeArgs.zero (List.replicate 14 1) ⟨14, 0⟩ :=
  (Decoder.steady_iff (.msg .packet) DecodeArgs.zero (List.replicate 14 1) (by norm_num)).mpr
    ⟨by decide, by rintro ⟨⟩⟩

/-- A single byte of a PACKET header is the first one of the sender's address; it is taken for
the compression. -/
theorem Decoder.not_steady_packet :
    ¬ ∀ (D : Decoder) (a : DecodeArgs) (base : List UInt8) (c : Cursor),
      c.idx + c.rem = base.length → c.rem < 2 ^ 64 → D.Steady a base c := by
  intro h
  have hsteady := h (.msg .packet) DecodeArgs.zero [2] ⟨1, 0⟩ rfl (by norm_num)
  have hshort := hsteady.short
  revert hshort
  decide

end N2n
