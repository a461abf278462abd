import N2nTun.SnSelection
import N2nTun.Wire

/-!
# The primitive codecs at any offset

The routines of `wire.c` that all messages are made of, each with its counterpart: what is written
at an offset is to be read at that offset.  The words of 64 bits, which no message has, are read
with the offset added to the number instead of the pointer.  What is copied is counted in a
`size_t` and returned as an `int`.

## Main definitions

* `encodeUint64`, `decodeUint64` — the routines for words of 64 bits, on a host of either byte order.
* `encodeBytes`, `decodeBytes` — `encode_buf` and `decode_buf` with the `int` that they return.
* `Primitive` — the pairs of routines.
* `Primitive.RoundTrips` — what a pair is to do.

## Main results

* `Primitive.sound_start`, `Primitive.sound_behind` — what a word of 64 bits takes at the start of the
  buffer and behind its first word.
* `Primitive.roundTrips_iff` — **which pairs do what they are to do, and when.**
-/

namespace N2n

open Bytes

/-! ### Words of 64 bits -/

namespace ByteOrder

/-- The word of 64 bits that a host reads at an offset. -/
def word64 : ByteOrder → List UInt8 → ℕ → UInt64
  | .little => le64At
  | .big => be64At

/-- `be64toh`. -/
def be64toh (o : ByteOrder) (v : UInt64) : UInt64 := be64At (o.hostBytes64 v) 0

theorem bytes64_be64At {p : List UInt8} (h : p.length = 8) : bytes64 (be64At p 0) = p := by
  match p, h with
  | [b₀, b₁, b₂, b₃, b₄, b₅, b₆, b₇], _ => exact bytes64_be64 b₀ b₁ b₂ b₃ b₄ b₅ b₆ b₇

theorem length_hostBytes64 (o : ByteOrder) (v : UInt64) : (o.hostBytes64 v).length = 8 := by
  cases o <;> rfl

/-- What is in memory has the highest byte first. -/
theorem hostBytes64_htobe64 (o : ByteOrder) (v : UInt64) :
    o.hostBytes64 (o.htobe64 v) = bytes64 v := by
  cases o with
  | little =>
    have hswap : bytes64 (be64At (leBytes64 v) 0) = leBytes64 v :=
      bytes64_be64At (length_hostBytes64 .little v)
    show leBytes64 (be64At (leBytes64 v) 0) = _
    rw [leBytes64, hswap, leBytes64, List.reverse_reverse]
  | big => exact congrArg bytes64 (htobe64_big v)

theorem be64toh_htobe64 (o : ByteOrder) (v : UInt64) : o.be64toh (o.htobe64 v) = v := by
  have h := be64At_bytes64 v []
  rw [List.append_nil] at h
  rw [be64toh, hostBytes64_htobe64, h]

/-- A word is read back as it is in memory. -/
theorem word64_hostBytes64 (o : ByteOrder) (w : UInt64) (y : List UInt8) :
    o.word64 (o.hostBytes64 w ++ y) 0 = w := by
  cases o with
  | little => exact le64At_leBytes64 w y
  | big => exact be64At_bytes64 w y

/-- The first word only depends on the first eight bytes. -/
theorem word64_take (o : ByteOrder) {x : List UInt8} (h : 8 ≤ x.length) (y : List UInt8) :
    o.word64 (x ++ y) 0 = o.word64 x 0 := by
  have hbyte : ∀ i, i < 8 → (x ++ y).getD i 0 = x.getD i 0 :=
    fun i hi => List.getD_append _ _ _ _ (by omega)
  cases o with
  | little => exact le64At_left h y
  | big => simp only [word64, be64At, be32At, hbyte, Nat.reduceAdd, Nat.reduceLT]

theorem be64toh_injective (o : ByteOrder) : Function.Injective o.be64toh := by
  intro v v' heq
  have hbytes : o.hostBytes64 v = o.hostBytes64 v' := by
    rw [← bytes64_be64At (o.length_hostBytes64 v), ← bytes64_be64At (o.length_hostBytes64 v')]
    exact congrArg bytes64 heq
  rw [← o.word64_hostBytes64 v [], hbytes, o.word64_hostBytes64]

end ByteOrder

/-- `encode_uint64`. -/
def encodeUint64 (o : ByteOrder) (e : Encoded) (v : UInt64) : Encoded :=
  encodeBuf e (o.hostBytes64 (o.htobe64 v))

/-- `decode_uint64`: `*(uint64_t*)base + *idx` is the word at the start of the buffer, plus the
offset. -/
def decodeUint64 (o : ByteOrder) (out : UInt64) (base : List UInt8) (c : Cursor) :
    Decoded UInt64 :=
  decodeField 8 (o.be64toh (o.word64 base 0 + UInt64.ofNat c.idx)) out c

/-! ### Bytes -/

/-- A `size_t` that is returned as an `int`. -/
def intOfSize (n : ℕ) : ℤ := (UInt32.ofNat n).toInt32.toInt

theorem intOfSize_eq_iff (n : ℕ) : intOfSize n = n ↔ n < 2 ^ 31 := by
  have hlt := (UInt32.ofNat n).toNat_lt
  have hnat : (UInt32.ofNat n).toNat = n % 2 ^ 32 := UInt32.toNat_ofNat'
  unfold intOfSize
  show (UInt32.ofNat n).toBitVec.toInt = n ↔ _
  have hword : (UInt32.ofNat n).toBitVec.toNat = n % 2 ^ 32 := hnat
  rw [BitVec.toInt_eq_toNat_cond, hword]
  split_ifs with hsmall
  · omega
  · omega

/-- `encode_buf`, with what it returns. -/
def encodeBytes (e : Encoded) (p : List UInt8) : Encoded :=
  { encodeBuf e p with ret := e.ret + intOfSize p.length }

/-- `decode_buf` into an array of the copied size, with what it returns. -/
def decodeBytes {n : ℕ} (out : List.Vector UInt8 n) (base : List UInt8) (c : Cursor) :
    Decoded (List.Vector UInt8 n) :=
  if c.rem < n then ⟨0, out, c⟩ else ⟨intOfSize n, sliceVec base c.idx n, c.advance n⟩

/-! ### The pairs of routines -/

/-- The pairs of routines. -/
inductive Primitive where
  | uint8
  | uint16
  | uint32
  | uint64
  | buf (n : ℕ)
  | mac
  | cookie

namespace Primitive

/-- What is encoded. -/
def Value : Primitive → Type
  | uint8 => UInt8
  | uint16 => UInt16
  | uint32 => UInt32
  | uint64 => UInt64
  | buf n => List.Vector UInt8 n
  | mac => Mac
  | cookie => UInt32

/-- The bytes that are written. -/
def size : Primitive → ℕ
  | uint8 => 1
  | uint16 => 2
  | uint32 => 4
  | uint64 => 8
  | buf n => n
  | mac => 6
  | cookie => 4

/-- The routine that writes. -/
def encode (o : ByteOrder) (e : Encoded) : (c : Primitive) → c.Value → Encoded
  | uint8, v => encodeUint8 e v
  | uint16, v => encodeUint16 e v
  | uint32, v => encodeUint32 e v
  | uint64, v => encodeUint64 o e v
  | buf _, v => encodeBytes e v.toList
  | mac, v => encodeMac e v
  | cookie, v => encodeCookie e v

/-- The routine that reads. -/
def decode (o : ByteOrder) (base : List UInt8) (c : Cursor) :
    (p : Primitive) → p.Value → Decoded p.Value
  | uint8, out => decodeUint8 out base c
  | uint16, out => decodeUint16 out base c
  | uint32, out => decodeUint32 out base c
  | uint64, out => decodeUint64 o out base c
  | buf _, out => decodeBytes out base c
  | mac, out => decodeMac out base c
  | cookie, out => decodeCookie out base c

/-- What a pair is to do with a buffer and a value: what has been encoded is decoded, both move the
index by the same amount, which is taken from the remaining bytes and returned, and no other byte
has changed.  If there are fewer bytes left, nothing is decoded. -/
structure RoundTrips (o : ByteOrder) (p : Primitive) (base : List UInt8) (idx rem : ℕ)
    (v out : p.Value) : Prop where
  length : (p.encode o ⟨base, idx, 0⟩ v).base.length = base.length
  outside : ∀ k, k < idx ∨ (p.encode o ⟨base, idx, 0⟩ v).idx ≤ k →
    (p.encode o ⟨base, idx, 0⟩ v).base.getD k 0 = base.getD k 0
  moved : (p.encode o ⟨base, idx, 0⟩ v).idx = idx + p.size
  decoded : p.size ≤ rem →
    p.decode o (p.encode o ⟨base, idx, 0⟩ v).base ⟨rem, idx⟩ out =
      ⟨p.size, v, ⟨rem - p.size, (p.encode o ⟨base, idx, 0⟩ v).idx⟩⟩
  short : rem < p.size →
    p.decode o (p.encode o ⟨base, idx, 0⟩ v).base ⟨rem, idx⟩ out = ⟨0, out, ⟨rem, idx⟩⟩

/-- When a pair does that: a word of 64 bits has to be what is made of the start of the buffer, and
the number of copied bytes has to be an `int`. -/
def Sound (o : ByteOrder) (base : List UInt8) (idx rem : ℕ) : (p : Primitive) → p.Value → Prop
  | uint64, v => 8 ≤ rem →
      o.word64 (overwrite base idx (bytes64 v)) 0 + UInt64.ofNat idx = o.htobe64 v
  | buf n, _ => n ≤ rem → n < 2 ^ 31
  | _, _ => True

/-! ### What is read -/

section

variable {base bytes : List UInt8} {idx : ℕ}

/-- The buffer with the part that is written in the middle. -/
theorem overwrite_eq (base : List UInt8) (idx : ℕ) (bytes : List UInt8) :
    overwrite base idx bytes = base.take idx ++ (bytes ++ base.drop (idx + bytes.length)) :=
  List.append_assoc _ _ _

theorem length_take_idx (h : idx + bytes.length ≤ base.length) : (base.take idx).length = idx :=
  List.length_take_of_le (by omega)

/-- Outside of what is written the buffer is as it was. -/
theorem getD_overwrite_outside (h : idx + bytes.length ≤ base.length) {k : ℕ}
    (hk : k < idx ∨ idx + bytes.length ≤ k) :
    (overwrite base idx bytes).getD k 0 = base.getD k 0 := by
  have htake := length_take_idx h
  rw [overwrite_eq]
  rcases hk with hbefore | hbehind
  · rw [List.getD_append _ _ _ _ (by omega), List.getD_eq_getElem?_getD,
      List.getElem?_take_of_lt hbefore, ← List.getD_eq_getElem?_getD]
  · rw [List.getD_append_right _ _ _ _ (by omega), List.getD_append_right _ _ _ _ (by omega),
      List.getD_eq_getElem?_getD, List.getElem?_drop, ← List.getD_eq_getElem?_getD]
    congr 1
    omega

/-- What is written is there. -/
theorem slice_overwrite (h : idx + bytes.length ≤ base.length) :
    slice (overwrite base idx bytes) idx bytes.length = bytes := by
  have htake := length_take_idx h
  rw [overwrite, List.append_assoc]
  have hmiddle := slice_middle (z := base.drop (idx + bytes.length)) htake (rfl : bytes.length = _)
  rwa [List.append_assoc] at hmiddle

end

variable {o : ByteOrder} {p : Primitive} {base : List UInt8} {idx rem : ℕ} {v out : p.Value}

/-- A pair of routines of which one writes some bytes and the other reads a value in their
place. -/
theorem roundTrips_field (hfits : idx + p.size ≤ base.length) {b : List UInt8} {ret : ℤ}
    {val : p.Value} (hlen : b.length = p.size)
    (hbase : (p.encode o ⟨base, idx, 0⟩ v).base = overwrite base idx b)
    (hidx : (p.encode o ⟨base, idx, 0⟩ v).idx = idx + b.length)
    (hdec : p.decode o (overwrite base idx b) ⟨rem, idx⟩ out =
      if rem < p.size then ⟨0, out, ⟨rem, idx⟩⟩ else ⟨ret, val, ⟨rem - p.size, idx + p.size⟩⟩) :
    RoundTrips o p base idx rem v out ↔ (p.size ≤ rem → ret = p.size ∧ val = v) := by
  constructor
  · intro h hrem
    have hread := h.decoded hrem
    rw [hbase, hdec, if_neg (not_lt.mpr hrem)] at hread
    exact ⟨congrArg Decoded.ret hread, congrArg Decoded.out hread⟩
  · intro h
    rw [← hlen] at hfits
    refine ⟨?_, fun k hk => ?_, by rw [hidx, hlen], fun hrem => ?_, fun hrem => ?_⟩
    · rw [hbase, length_overwrite hfits]
    · rw [hidx] at hk
      rw [hbase, getD_overwrite_outside hfits hk]
    · obtain ⟨hret, hval⟩ := h hrem
      rw [hbase, hidx, hlen, hdec, if_neg (not_lt.mpr hrem), hret, hval]
    · rw [hbase, hdec, if_pos hrem]

/-- What is read where it has been written. -/
theorem read_overwrite {α : Type} {f : List UInt8 → ℕ → α}
    (happend : ∀ x y k, f (x ++ y) (x.length + k) = f y k) {b : List UInt8}
    (hlen : idx + b.length ≤ base.length) :
    f (overwrite base idx b) idx = f (b ++ base.drop (idx + b.length)) 0 := by
  have hread := happend (base.take idx) (b ++ base.drop (idx + b.length)) 0
  rwa [length_take_idx hlen, Nat.add_zero, ← overwrite_eq] at hread

/-- The vector that is read where a vector has been written. -/
theorem sliceVec_overwrite {n : ℕ} (v : List.Vector UInt8 n) (hfits : idx + n ≤ base.length) :
    sliceVec (overwrite base idx v.toList) idx n = v := by
  have hlen : v.toList.length = n := v.toList_length
  have hslice := slice_overwrite (by rwa [hlen] : idx + v.toList.length ≤ base.length)
  rw [hlen] at hslice
  exact Subtype.ext hslice

/-- **A pair of routines gives back what was encoded, at any offset, moves both indices by what it
returns and leaves the other bytes alone; for words of 64 bits exactly if the first word of the
buffer and the offset add up to the encoded word, for copied bytes exactly if their number is an
`int`.** -/
theorem roundTrips_iff (hfits : idx + p.size ≤ base.length) :
    RoundTrips o p base idx rem v out ↔ p.Sound o base idx rem v := by
  cases p with
  | uint8 =>
    have hread : (overwrite base idx [v]).getD idx 0 = v :=
      read_overwrite (f := fun l k => l.getD k 0) (fun x y k => getD_append_add x y k) hfits
    rw [roundTrips_field hfits (b := [v]) rfl rfl rfl rfl]
    exact iff_of_true (fun _ => ⟨rfl, hread⟩) trivial
  | uint16 =>
    have hread := read_overwrite be16At_append (b := bytes16 v) hfits
    rw [roundTrips_field hfits (b := bytes16 v) rfl rfl rfl rfl]
    exact iff_of_true (fun _ => ⟨rfl, hread.trans (be16At_bytes16 v _)⟩) trivial
  | uint32 | cookie =>
    have hread := read_overwrite be32At_append (b := bytes32 v) hfits
    rw [roundTrips_field hfits (b := bytes32 v) rfl rfl rfl rfl]
    exact iff_of_true (fun _ => ⟨rfl, hread.trans (be32At_bytes32 v _)⟩) trivial
  | uint64 =>
    have hbytes : o.hostBytes64 (o.htobe64 v) = bytes64 v := o.hostBytes64_htobe64 v
    rw [roundTrips_field hfits (b := o.hostBytes64 (o.htobe64 v)) (o.length_hostBytes64 _)
      rfl rfl rfl, hbytes]
    -- both sides of the sum go through the same swap
    have hswap : ∀ w, o.be64toh w = v ↔ w = o.htobe64 v := fun w =>
      ⟨fun h => o.be64toh_injective (h.trans (o.be64toh_htobe64 v).symm),
        fun h => h ▸ o.be64toh_htobe64 v⟩
    exact forall_congr' fun _ => ⟨fun h => (hswap _).mp h.2, fun h => ⟨rfl, (hswap _).mpr h⟩⟩
  | buf n =>
    have hread := sliceVec_overwrite v hfits
    have hlen : v.toList.length = n := v.toList_length
    rw [roundTrips_field hfits (b := v.toList) hlen rfl rfl rfl]
    exact forall_congr' fun _ =>
      ⟨fun h => (intOfSize_eq_iff n).mp h.1, fun h => ⟨(intOfSize_eq_iff n).mpr h, hread⟩⟩
  | mac =>
    have hread := sliceVec_overwrite v hfits
    rw [roundTrips_field hfits (b := v.toList) v.toList_length rfl rfl rfl]
    exact iff_of_true (fun _ => ⟨rfl, hread⟩) trivial

/-- A word at the start of the buffer is read as it was written. -/
theorem sound_start (v : UInt64) : Sound o base 0 rem .uint64 v := by
  intro _
  have hbytes : o.hostBytes64 (o.htobe64 v) = bytes64 v := o.hostBytes64_htobe64 v
  have hfirst : overwrite base 0 (bytes64 v) =
      o.hostBytes64 (o.htobe64 v) ++ base.drop (0 + (bytes64 v).length) := by
    rw [hbytes]
    rfl
  rw [hfirst, o.word64_hostBytes64]
  exact UInt64.add_zero _

/-- Behind the first word the buffer has to hold the difference there. -/
theorem sound_behind (h : 8 ≤ idx) (hbase : idx ≤ base.length) (v : UInt64) :
    Sound o base idx rem .uint64 v ↔
      (8 ≤ rem → o.word64 base 0 + UInt64.ofNat idx = o.htobe64 v) := by
  have htake : 8 ≤ (base.take idx).length := by
    rw [List.length_take_of_le hbase]
    exact h
  have hword : o.word64 (overwrite base idx (bytes64 v)) 0 = o.word64 base 0 := by
    rw [overwrite_eq, o.word64_take htake]
    conv_rhs => rw [← List.take_append_drop idx base, o.word64_take htake]
  rw [← hword]
  rfl

theorem roundTrips_uint64_zero :
    (0 + uint64.size ≤ [1, 2, 3, 4, 5, 6, 7, 8].length) ∧
      (RoundTrips .little .uint64 [1, 2, 3, 4, 5, 6, 7, 8] 0 8 (9 : UInt64) (0 : UInt64) ↔
        Sound .little [1, 2, 3, 4, 5, 6, 7, 8] 0 8 .uint64 (9 : UInt64)) :=
  ⟨by decide, roundTrips_iff (by decide)⟩

/-- The number 0 behind a word 0 is read as the offset. -/
theorem not_roundTrips_uint64 :
    ¬ RoundTrips .little .uint64 (List.replicate 16 0) 8 8 (0 : UInt64) (0 : UInt64) := by
  intro h
  have hread : decodeUint64 .little 0 (List.replicate 16 0) ⟨8, 8⟩ = ⟨8, 0, ⟨0, 16⟩⟩ :=
    h.decoded (le_refl 8)
  have hout : (0x0800000000000000 : UInt64) = 0 := congrArg Decoded.out hread
  exact absurd hout (by decide)

end Primitive

end N2n
