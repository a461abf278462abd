import N2nTun.Lib.Parts
import N2nTun.WireRoundTrip

/-!
# The decoders as readers

All decoders of `wire.c` do one thing: they take fields off the front, pass over those that
do not fit, and go on.  A `Reader` says which fields are taken; how large a field is may
depend on what was read before.  Each decoder is shown to be the run of a reader, and what
holds for all readers is proved once.

## Main definitions

* `Reader`, `Reader.run` — a routine that reads fields, and what it does at a cursor.
* `Reader.parts` — the sizes of the fields that it asks for.
* `MsgKind.reader` — the readers of the messages.

## Main results

* `Reader.run_cur`, `Reader.run_ret`, `Reader.run_congr` — where a reader ends, what it
  counts, and what it looks at.
* `MsgKind.decode_eq` — **the decoders are readers.**
-/

namespace N2n

open Bytes Parts

/-- A routine that reads fields.  The bytes of a field that does not fit are `none`; a
socket's fields are not counted. -/
inductive Reader (α : Type) where
  | done (a : α)
  | field (size : ℕ) (counted : Bool) (next : Option (List UInt8) → Reader α)

namespace Reader

variable {α β : Type}

/-- One routine after another. -/
def bind : Reader α → (α → Reader β) → Reader β
  | .done a, f => f a
  | .field size counted next, f => .field size counted fun b => (next b).bind f

instance : Monad Reader where
  pure := .done
  bind := bind

/-- What a routine does at a cursor. -/
def run (base : List UInt8) : Reader α → Cursor → Decoded α
  | .done a, c => ⟨0, a, c⟩
  | .field size counted next, c =>
    if c.rem < size then (next none).run base c
    else
      let d := (next (some (slice base c.idx size))).run base (c.advance size)
      ⟨(if counted then size else 0) + d.ret, d.out, d.cur⟩

/-- The fields that a routine asks for at a cursor. -/
def parts (base : List UInt8) : Reader α → Cursor → List Part
  | .done _, _ => []
  | .field size counted next, c =>
    ⟨size, counted⟩ ::
      if c.rem < size then (next none).parts base c
      else (next (some (slice base c.idx size))).parts base (c.advance size)

variable {base : List UInt8} {c : Cursor}

/-- What was read comes before what follows. -/
theorem run_bind (r : Reader α) (f : α → Reader β) (c : Cursor) :
    (r >>= f).run base c =
      let d := r.run base c
      let d' := (f d.out).run base d.cur
      ⟨d.ret + d'.ret, d'.out, d'.cur⟩ := by
  show (r.bind f).run base c = _
  induction r generalizing c with
  | done a => simp [bind, run]
  | field size counted next ih =>
    simp only [bind, run]
    by_cases h : c.rem < size
    · rw [if_pos h, if_pos h]
      exact ih none c
    · rw [if_neg h, if_neg h, ih _ (c.advance size)]
      simp only [add_assoc]

theorem parts_bind (r : Reader α) (f : α → Reader β) (c : Cursor) :
    (r >>= f).parts base c =
      r.parts base c ++ (f (r.run base c).out).parts base (r.run base c).cur := by
  show (r.bind f).parts base c = _
  induction r generalizing c with
  | done a => rfl
  | field size counted next ih =>
    simp only [bind, parts, run]
    by_cases h : c.rem < size
    · simp only [if_pos h, ih none c, List.cons_append]
    · simp only [if_neg h, ih _ (c.advance size), List.cons_append]

theorem run_pure (a : α) (c : Cursor) : (pure a : Reader α).run base c = ⟨0, a, c⟩ := rfl

/-- **No byte is lost**: the index and the remaining bytes add up to what they did before. -/
theorem run_cur (r : Reader α) (c : Cursor) :
    (r.run base c).cur.idx + (r.run base c).cur.rem = c.idx + c.rem := by
  induction r generalizing c with
  | done a => rfl
  | field size counted next ih =>
    rw [run]
    by_cases h : c.rem < size
    · rw [if_pos h]
      exact ih none c
    · rw [if_neg h]
      dsimp only
      rw [ih]
      dsimp only [Cursor.advance]
      omega

/-- The count is that of the fields that fit. -/
theorem run_ret (r : Reader α) (c : Cursor) :
    (r.run base c).ret = Part.count (r.parts base c) c.rem := by
  induction r generalizing c with
  | done a => rfl
  | field size counted next ih =>
    rw [run, parts, Part.count_cons, Step.count]
    by_cases h : c.rem < size
    · have hno : ¬ (⟨⟨size, counted⟩, c.rem⟩ : Step).Fits := Nat.not_le.mpr h
      rw [if_pos h, if_pos h, if_neg (fun hc => hno hc.2), Part.after_of_lt hno, Nat.zero_add, ih]
    · have hfits : (⟨⟨size, counted⟩, c.rem⟩ : Step).Fits := Nat.not_lt.mp h
      rw [if_neg h, if_neg h, Part.after_of_le hfits]
      dsimp only
      rw [ih]
      cases counted <;> simp [hfits, Cursor.advance]

/-- **No byte behind the remaining ones is looked at.** -/
theorem run_congr {base' : List UInt8} (r : Reader α) (c : Cursor)
    (h : ∀ k, k < c.idx + c.rem → base'.getD k 0 = base.getD k 0) :
    r.run base' c = r.run base c ∧ r.parts base' c = r.parts base c := by
  induction r generalizing c with
  | done a => exact ⟨rfl, rfl⟩
  | field size counted next ih =>
    rw [run, run, parts, parts]
    by_cases hfit : c.rem < size
    · simp only [if_pos hfit]
      rw [(ih none c h).1, (ih none c h).2]
      exact ⟨rfl, rfl⟩
    · simp only [if_neg hfit]
      have hslice : slice base' c.idx size = slice base c.idx size :=
        slice_congr fun k _ hk => h k (by omega)
      have hadv : (c.advance size).idx + (c.advance size).rem = c.idx + c.rem := by
        dsimp only [Cursor.advance]
        omega
      have hrest := ih (some (slice base c.idx size)) (c.advance size) (hadv ▸ h)
      rw [hslice, hrest.1, hrest.2]
      exact ⟨rfl, rfl⟩

/-! ### Fields -/

/-- `decode_uint8`. -/
def uint8 (counted : Bool) (out : UInt8) : Reader UInt8 :=
  .field 1 counted fun b => .done (b.elim out (·.getD 0 0))

/-- `decode_uint16`. -/
def uint16 (counted : Bool) (out : UInt16) : Reader UInt16 :=
  .field 2 counted fun b => .done (b.elim out (be16At · 0))

/-- `decode_uint32`. -/
def uint32 (counted : Bool) (out : UInt32) : Reader UInt32 :=
  .field 4 counted fun b => .done (b.elim out (be32At · 0))

/-- `decode_buf` into an array of the copied size. -/
def vec {n : ℕ} (counted : Bool) (out : List.Vector UInt8 n) : Reader (List.Vector UInt8 n) :=
  .field n counted fun b => .done (b.elim out (sliceVec · 0 n))

/-- `decode_buf`. -/
def buf (out : List UInt8) (n : ℕ) : Reader (List UInt8) :=
  .field n true fun b => .done (b.elim out (copyTo out ·))

/-- A single field. -/
theorem run_field {size : ℕ} {counted : Bool} {out v : α} {f : List UInt8 → α}
    (hf : f (slice base c.idx size) = v) :
    (field size counted fun b => .done (b.elim out f)).run base c =
      let d := decodeField size v out c
      ⟨if counted then d.ret else 0, d.out, d.cur⟩ := by
  rw [run, decodeField]
  split_ifs with h <;> simp [run, hf]

theorem slice_slice (base : List UInt8) (i n : ℕ) :
    slice (slice base i n) 0 n = slice base i n := by
  have h := slice_left (slice base i n) []
  rwa [length_slice, List.append_nil] at h

theorem run_uint8 (counted : Bool) (out : UInt8) :
    (uint8 counted out).run base c =
      let d := decodeUint8 out base c
      ⟨if counted then d.ret else 0, d.out, d.cur⟩ :=
  run_field rfl

theorem run_uint16 (counted : Bool) (out : UInt16) :
    (uint16 counted out).run base c =
      let d := decodeUint16 out base c
      ⟨if counted then d.ret else 0, d.out, d.cur⟩ :=
  run_field rfl

theorem run_uint32 (counted : Bool) (out : UInt32) :
    (uint32 counted out).run base c =
      let d := decodeUint32 out base c
      ⟨if counted then d.ret else 0, d.out, d.cur⟩ :=
  run_field rfl

theorem run_vec {n : ℕ} (counted : Bool) (out : List.Vector UInt8 n) :
    (vec counted out).run base c =
      let d := decodeVec out base c
      ⟨if counted then d.ret else 0, d.out, d.cur⟩ :=
  run_field (Subtype.ext (slice_slice base c.idx n))

theorem run_buf (out : List UInt8) (n : ℕ) : (buf out n).run base c = decodeBuf out n base c :=
  run_field rfl

theorem parts_field {size : ℕ} {counted : Bool} {f : Option (List UInt8) → α} :
    (field size counted fun b => .done (f b)).parts base c = [⟨size, counted⟩] := by
  rw [parts]
  split_ifs <;> rfl

/-- `decode_sock`. -/
def sock (out : Sock) : Reader Sock := do
  let f ← uint16 false 0
  let port ← uint16 false out.port
  let type := if f &&& 0x4000 ≠ 0 then sockStream else sockDgram
  if f &&& 0x8000 ≠ 0 then
    let addr ← vec false out.addr
    return ⟨afInet6, type, port, addr⟩
  else
    let addr ← vec false (List.Vector.replicate 4 0)
    return ⟨afInet, type, port, v4Addr addr⟩

theorem run_sock (out : Sock) : (sock out).run base c = decodeSock out base c := by
  unfold sock decodeSock
  simp only [run_bind, run_uint16, Bool.false_eq_true, if_false]
  by_cases h : (decodeUint16 0 base c).out &&& 0x8000 ≠ 0
  · simp [h, run_bind, run_vec, run_pure]
  · simp [h, run_bind, run_vec, run_pure]

/-- A socket that is only sent under `N2N_FLAGS_SOCKET`. -/
def sockIf (cmn : Common) : Reader Sock :=
  if cmn.flags &&& flagsSocket ≠ 0 then sock Sock.zero else pure Sock.zero

theorem run_sockIf (cmn : Common) : (sockIf cmn).run base c = decodeSockIf cmn base c := by
  unfold sockIf decodeSockIf
  split_ifs
  · exact run_sock Sock.zero
  · rfl

/-- The fields of an `n2n_auth_t`. -/
def auth : Reader Auth := do
  let scheme ← uint16 true 0
  let tokenSize ← uint16 true 0
  let token ← buf Auth.zero.token tokenSize.toNat
  return ⟨scheme, tokenSize, token⟩

theorem run_auth : auth.run base c = decodeAuth base c := by
  simp [auth, decodeAuth, run_bind, run_uint16, run_buf, run_pure, add_assoc]

/-- The fields of an `n2n_ip_subnet_t`. -/
def devAddr : Reader IpSubnet := do
  let netAddr ← uint32 true 0
  let netBitlen ← uint8 true 0
  return ⟨netAddr, netBitlen⟩

theorem run_devAddr : devAddr.run base c = decodeDevAddr base c := by
  simp [devAddr, decodeDevAddr, run_bind, run_uint32, run_uint8, run_pure]

/-- `decode_mac`. -/
def mac : Reader Mac := vec true nullMac

theorem run_mac : mac.run base c = decodeMac nullMac base c := run_vec true nullMac

/-- `decode_cookie`. -/
def cookie : Reader UInt32 := uint32 true 0

theorem run_cookie : cookie.run base c = decodeCookie 0 base c := run_uint32 true 0

/-- `decode_buf` into a cleared array. -/
def cleared (n : ℕ) : Reader (List.Vector UInt8 n) := vec true (List.Vector.replicate n 0)

theorem run_cleared (n : ℕ) :
    (cleared n).run base c = decodeVec (List.Vector.replicate n 0) base c := run_vec true _

end Reader

open Reader

/-! ### Messages -/

/-- The reader of a message. -/
def MsgKind.reader (cmn : Common) (tmpbuf : List UInt8) : MsgKind → Reader Msg
  | .register => do
    let cookie ← cookie
    let srcMac ← mac
    let dstMac ← mac
    let sock ← sockIf cmn
    let devAddr ← devAddr
    let devDesc ← cleared 16
    return .register ⟨cookie, srcMac, dstMac, sock, devAddr, devDesc⟩
  | .registerSuper => do
    let cookie ← cookie
    let edgeMac ← mac
    let sock ← sockIf cmn
    let devAddr ← devAddr
    let devDesc ← cleared 16
    let auth ← auth
    let keyTime ← uint32 true 0
    return .registerSuper ⟨cookie, edgeMac, sock, devAddr, devDesc, auth, keyTime⟩
  | .unregisterSuper => do
    let auth ← auth
    let srcMac ← mac
    return .unregisterSuper ⟨auth, srcMac⟩
  | .registerAck => do
    let cookie ← cookie
    let dstMac ← mac
    let srcMac ← mac
    let sock ← sockIf cmn
    return .registerAck ⟨cookie, srcMac, dstMac, sock⟩
  | .registerSuperAck => do
    let cookie ← cookie
    let srcMac ← mac
    let devAddr ← devAddr
    let lifetime ← uint16 true 0
    let sock ← sock Sock.zero
    let auth ← auth
    let numSn ← uint8 true 0
    let tmp ← buf tmpbuf (numSn.toNat * regSuperAckPayloadEntrySize)
    let keyTime ← uint32 true 0
    return .registerSuperAck ⟨cookie, srcMac, devAddr, lifetime, sock, auth, numSn, keyTime⟩ tmp
  | .registerSuperNak => do
    let cookie ← cookie
    let srcMac ← mac
    let auth ← auth
    return .registerSuperNak ⟨cookie, srcMac, auth⟩
  | .packet => do
    let srcMac ← mac
    let dstMac ← mac
    let sock ← sockIf cmn
    let compression ← uint8 true 0
    let transform ← uint8 true 0
    return .packet ⟨srcMac, dstMac, sock, transform, compression⟩
  | .peerInfo => do
    let aflags ← uint16 true 0
    let srcMac ← mac
    let mac ← mac
    let sock ← sock Sock.zero
    let preferredSock ← sockIf cmn
    let load ← uint32 true 0
    let uptime ← uint32 true 0
    let version ← cleared 20
    return .peerInfo ⟨aflags, srcMac, mac, sock, preferredSock, load, version, uptime.toUInt64⟩
  | .queryPeer => do
    let srcMac ← mac
    let targetMac ← mac
    let aflags ← uint16 true 0
    return .queryPeer ⟨aflags, srcMac, targetMac⟩

/-- **The decoders are readers.** -/
theorem MsgKind.decode_eq (k : MsgKind) (cmn : Common) (base : List UInt8) (c : Cursor)
    (tmpbuf : List UInt8) :
    k.decode cmn base c tmpbuf = (k.reader cmn tmpbuf).run base c := by
  cases k with
  | register =>
    simp only [decode, reader, Decoded.map, decodeRegister, run_bind, run_cookie, run_mac,
      run_sockIf, run_devAddr, run_cleared, run_pure, Desc.zero, add_assoc, add_zero]
  | registerSuper =>
    simp only [decode, reader, Decoded.map, decodeRegisterSuper, run_bind, run_cookie, run_mac,
      run_sockIf, run_devAddr, run_cleared, run_auth, run_uint32, run_pure, Desc.zero, add_assoc,
      add_zero, if_true]
  | unregisterSuper =>
    simp only [decode, reader, Decoded.map, decodeUnregisterSuper, run_bind, run_auth, run_mac,
      run_pure, add_zero]
  | registerAck =>
    simp only [decode, reader, Decoded.map, decodeRegisterAck, run_bind, run_cookie, run_mac,
      run_sockIf, run_pure, add_assoc, add_zero]
  | registerSuperAck =>
    simp only [decode, reader, Decoded.map, decodeRegisterSuperAck, run_bind, run_cookie, run_mac,
      run_devAddr, run_uint16, run_sock, run_auth, run_uint8, run_buf, run_uint32, run_pure,
      add_assoc, add_zero, if_true]
  | registerSuperNak =>
    simp only [decode, reader, Decoded.map, decodeRegisterSuperNak, run_bind, run_cookie, run_mac,
      run_auth, run_pure, add_assoc, add_zero]
  | packet =>
    simp only [decode, reader, Decoded.map, decodePacket, run_bind, run_mac, run_sockIf,
      run_uint8, run_pure, add_assoc, add_zero, if_true]
  | peerInfo =>
    simp only [decode, reader, Decoded.map, decodePeerInfo, run_bind, run_uint16, run_mac,
      run_sock, run_sockIf, run_uint32, run_cleared, run_pure, add_assoc, add_zero, if_true]
  | queryPeer =>
    simp only [decode, reader, Decoded.map, decodeQueryPeer, run_bind, run_mac, run_uint16,
      run_pure, add_assoc, add_zero, if_true]

end N2n
