import N2nTun.HeaderEncryption
import N2nTun.Lib.Access

/-!
# The bounds of a packet

`packet_header_decrypt` takes the length of the header out of the packet.  It reads the first 20
bytes for this, whatever the length of the packet is; and it makes sure that the header is not
longer than the packet, but not that it has the 16 bytes which are subtracted then.  The
supernode asks for 24 bytes, but calls it a second time with 16 bytes less; the edge asks for
none.

## Main definitions

* `packetHeaderDecryptMem` — the routine on a memory that records the accesses.
* `HeaderInside` — the packet is long enough, and so is its header.

## Main results

* `packetHeaderDecryptMem_eq` — inside the packet, the routine is `packetHeaderDecrypt`.
* `within_packet_iff` — **when it stays inside the packet.**
-/

namespace N2n

open Bytes

/-! ### The routine -/

/-- `speck_ctr` on `len` bytes at `i`, with the first 16 bytes for the nonce.  Nothing is read
for no bytes at all. -/
def speckCtrMem (m : Memory) (i len : ℕ) (ctx : SpeckContext) : List UInt8 × Memory :=
  if len = 0 then ([], m)
  else
    let (nonce, m) := m.read 0 16
    let (inp, m) := m.read i len
    (speckCtr inp nonce ctx, m)

/-- `packet_header_decrypt`: the result, the stamp and the memory. -/
def packetHeaderDecryptMem (m : Memory) (packetLen : UInt16) (communityName : CommunityName)
    (ctx ctxIv : SpeckContext) (stamp : UInt64) : Bool × UInt64 × Memory :=
  let (testMagic, m) := speckCtrMem m 16 4 ctx
  let headerLen := be32At testMagic 0 - headerMagic
  if headerLen.toNat ≤ packetLen.toNat then
    let (header, m) := speckCtrMem m 16 (headerLen - 16).toNat ctx
    let m := m.write 16 header
    let (iv, m) := m.read 0 16
    let m := m.write 0 (speck128Decrypt iv ctxIv)
    let (time, m) := m.read 4 8
    let stamp := be64At time 0
    let (high, m) := m.read 0 4
    let checksumHigh := be32At high 0
    -- the original order of the packet
    let (start, m) := m.read 20 4
    let m := m.write 0 start
    let m := m.write 4 communityName.toList
    let (whole, m) := m.read 0 packetLen.toNat
    let checksum := pearsonHash64 whole
    if checksum >>> 32 ≠ checksumHigh.toUInt64 then (false, stamp, m)
    else (true, stamp ^^^ (checksum <<< 32), m)
  else (false, stamp, m)

/-- The length of the header, as it is hidden in the bytes from 16 on. -/
def hiddenLen (packet : ℕ → UInt8) (ctx : SpeckContext) : UInt32 :=
  be32At (speckCtr ((Memory.of packet).slice 16 4) ((Memory.of packet).slice 0 16) ctx) 0 -
    headerMagic

/-- The packet has the bytes from which the length is taken; and unless the length is too large,
it has those of the smallest header, and the header has its 16 bytes. -/
def HeaderInside (packet : ℕ → UInt8) (packetLen : UInt16) (ctx : SpeckContext) : Prop :=
  20 ≤ packetLen.toNat ∧ ((hiddenLen packet ctx).toNat ≤ packetLen.toNat →
    16 ≤ (hiddenLen packet ctx).toNat ∧ 24 ≤ packetLen.toNat)

theorem speckCtrMem_touched (m : Memory) (i len : ℕ) (ctx : SpeckContext) :
    (speckCtrMem m i len ctx).2.touched =
      m.touched ++ if len = 0 then [] else [(0, 16), (i, len)] := by
  unfold speckCtrMem
  split_ifs
  · simp
  · simp

theorem length_speckCtrMem (m : Memory) (i len : ℕ) (ctx : SpeckContext) :
    (speckCtrMem m i len ctx).1.length = len := by
  unfold speckCtrMem
  split_ifs with hzero
  · rw [hzero]
    rfl
  · simp

/-- The accesses of the routine. -/
theorem packetHeaderDecryptMem_touched (packet : ℕ → UInt8) (packetLen : UInt16)
    (communityName : CommunityName) (ctx ctxIv : SpeckContext) (stamp : UInt64) :
    let len := (hiddenLen packet ctx - 16).toNat
    (packetHeaderDecryptMem (.of packet) packetLen communityName ctx ctxIv stamp).2.2.touched =
      [(0, 16), (16, 4)] ++
        if (hiddenLen packet ctx).toNat ≤ packetLen.toNat then
          (if len = 0 then [] else [(0, 16), (16, len)]) ++
            [(16, len), (0, 16), (0, 16), (4, 8), (0, 4), (20, 4), (0, 4), (4, 20),
              (0, packetLen.toNat)]
        else [] := by
  have hblock : ∀ iv : List UInt8, iv.length = 16 → (speck128Decrypt iv ctxIv).length = 16 :=
    fun iv hiv => by rw [length_speck128Decrypt (by omega), hiv]
  have hmem : ∀ (c : Prop) [Decidable c] (s s' : UInt64) (m : Memory),
      (if c then (false, s, m) else (true, s', m)).2.2 = m := by
    intro c _ s s' m
    split_ifs <;> rfl
  have hhidden : be32At (speckCtrMem (.of packet) 16 4 ctx).1 0 - headerMagic =
      hiddenLen packet ctx := rfl
  have htouched : (speckCtrMem (.of packet) 16 4 ctx).2.touched = [(0, 16), (16, 4)] :=
    speckCtrMem_touched (.of packet) 16 4 ctx
  unfold packetHeaderDecryptMem
  dsimp only
  rw [hhidden]
  generalize speckCtrMem (.of packet) 16 4 ctx = first at htouched
  have hlen := length_speckCtrMem first.2 16 (hiddenLen packet ctx - 16).toNat ctx
  have hheader := speckCtrMem_touched first.2 16 (hiddenLen packet ctx - 16).toNat ctx
  generalize speckCtrMem first.2 16 (hiddenLen packet ctx - 16).toNat ctx = second at hlen hheader
  by_cases hle : (hiddenLen packet ctx).toNat ≤ packetLen.toNat
  · rw [if_pos hle, if_pos hle, hmem]
    simp only [Memory.write_touched, Memory.read_touched, Memory.read_fst, hheader, htouched, hlen]
    rw [hblock _ (Memory.length_slice _ _ _), Memory.length_slice, List.Vector.toList_length]
    simp only [List.append_assoc, List.cons_append, List.nil_append]
  · rw [if_neg hle, if_neg hle]
    exact htouched

/-- **When the routine stays inside the packet.** -/
theorem within_packet_iff (packet : ℕ → UInt8) (packetLen : UInt16)
    (communityName : CommunityName) (ctx ctxIv : SpeckContext) (stamp : UInt64) :
    (packetHeaderDecryptMem (.of packet) packetLen communityName ctx ctxIv stamp).2.2.Within
        packetLen.toNat ↔ HeaderInside packet packetLen ctx := by
  have htouched := packetHeaderDecryptMem_touched packet packetLen communityName ctx ctxIv stamp
  have hlt := packetLen.toNat_lt
  have hhidden := (hiddenLen packet ctx).toNat_lt
  have hsixteen : (16 : UInt32).toNat = 16 := rfl
  unfold Memory.Within HeaderInside
  dsimp only at htouched
  rw [htouched]
  constructor
  · intro hwithin
    have hfirst := hwithin (16, 4) (by simp)
    refine ⟨by simpa using hfirst, fun hle => ?_⟩
    rw [if_pos hle] at hwithin
    have hheader := hwithin (16, (hiddenLen packet ctx - 16).toNat) (by simp)
    have horder := hwithin (20, 4) (by simp)
    refine ⟨?_, by simpa using horder⟩
    -- less than 16 bytes, and the length wraps to more than any packet has
    by_contra hshort
    rw [UInt32.toNat_sub, hsixteen] at hheader
    dsimp only at hheader
    omega
  · rintro ⟨hfirst, hinside⟩ r hr
    split_ifs at hr with hle hzero
    · obtain ⟨hheader, horder⟩ := hinside hle
      simp only [List.cons_append, List.nil_append, List.mem_cons, List.not_mem_nil, or_false] at hr
      rcases hr with rfl | rfl | rfl | rfl | rfl | rfl | rfl | rfl | rfl | rfl | rfl <;>
        dsimp only <;> omega
    · obtain ⟨hheader, horder⟩ := hinside hle
      have hlen : (hiddenLen packet ctx - 16).toNat = (hiddenLen packet ctx).toNat - 16 :=
        UInt32.toNat_sub_of_le _ _ (by rw [UInt32.le_iff_toNat_le]; exact hheader)
      rw [hlen] at hr
      simp only [List.cons_append, List.nil_append, List.mem_cons, List.not_mem_nil, or_false] at hr
      rcases hr with
        rfl | rfl | rfl | rfl | rfl | rfl | rfl | rfl | rfl | rfl | rfl | rfl | rfl <;>
        dsimp only <;> omega
    · rw [List.append_nil] at hr
      simp only [List.mem_cons, List.not_mem_nil, or_false] at hr
      rcases hr with rfl | rfl <;> dsimp only <;> omega

/-- The supernode calls a second time for a datagram of 24 bytes, with a length of 8. -/
theorem not_within_short :
    ¬(packetHeaderDecryptMem (.of fun _ => 0) 8 (List.Vector.replicate 20 0)
      (speckInit (List.replicate 16 0)) (speckInit (List.replicate 16 0)) 0).2.2.Within 8 := by
  intro hwithin
  have htouched := packetHeaderDecryptMem_touched (fun _ => 0) 8 (List.Vector.replicate 20 0)
    (speckInit (List.replicate 16 0)) (speckInit (List.replicate 16 0)) 0
  dsimp only at htouched
  have hfirst := hwithin (16, 4) (by rw [htouched]; simp)
  revert hfirst
  decide

/-! ### Inside the packet -/

theorem slice_block {p : List UInt8} (h : 16 ≤ p.length) : slice p 0 16 = p.take 16 := by
  rw [slice_eq_take_drop (by omega), List.drop_zero]

/-- Counter mode takes the first 16 bytes for the nonce. -/
theorem speckCtr_slice {p : List UInt8} (h : 16 ≤ p.length) (inp : List UInt8)
    (ctx : SpeckContext) : speckCtr inp (slice p 0 16) ctx = speckCtr inp p ctx := by
  have hlen : (p.take 16).length = 16 := by rw [List.length_take, Nat.min_eq_left h]
  have hnonce := speckCtr_nonce inp hlen [] (p.drop 16) ctx
  rw [List.append_nil, List.take_append_drop] at hnonce
  rw [slice_block h, hnonce]

theorem speckCtrMem_fst {m : Memory} {p : List UInt8} (h : m.Holds p) {i len : ℕ}
    (hin : i + len ≤ p.length) (hnonce : 16 ≤ p.length) (ctx : SpeckContext) :
    (speckCtrMem m i len ctx).1 = speckCtr (slice p i len) p ctx := by
  unfold speckCtrMem
  split_ifs with hzero
  · subst hzero
    rfl
  · dsimp only
    rw [Memory.read_fst, Memory.read_fst, Memory.read_slice, h.slice hin,
      h.slice (show 0 + 16 ≤ p.length by omega), speckCtr_slice hnonce]

theorem speckCtrMem_holds {m : Memory} {p : List UInt8} (h : m.Holds p) (i len : ℕ)
    (ctx : SpeckContext) : (speckCtrMem m i len ctx).2.Holds p := by
  unfold speckCtrMem
  split_ifs
  · exact h
  · exact h

/-- Counter mode in place is a write. -/
theorem speckCtrAt_eq {p : List UInt8} {i len : ℕ} (h : i + len ≤ p.length) (ctx : SpeckContext) :
    speckCtrAt p i len p ctx = overwrite p i (speckCtr (slice p i len) p ctx) := by
  rw [speckCtrAt, overwrite, length_speckCtr, length_slice, slice_eq_take_drop h, List.drop_drop]

/-- So is the block cipher. -/
theorem overwrite_speck128Decrypt {p : List UInt8} (h : 16 ≤ p.length) (ctx : SpeckContext) :
    overwrite p 0 (speck128Decrypt (slice p 0 16) ctx) = speck128Decrypt p ctx := by
  have hlen : (p.take 16).length = 16 := by rw [List.length_take, Nat.min_eq_left h]
  have happend := speck128Decrypt_append hlen (p.drop 16) ctx
  rw [List.take_append_drop] at happend
  rw [happend, slice_block h, overwrite, length_speck128Decrypt (by omega), hlen]
  rfl

theorem be32At_slice (p : List UInt8) (i : ℕ) : be32At (slice p i 4) 0 = be32At p i := rfl

theorem be64At_slice (p : List UInt8) (i : ℕ) : be64At (slice p i 8) 0 = be64At p i := rfl

/-- **Inside the packet, the routine is the one on lists.** -/
theorem packetHeaderDecryptMem_eq {packet : ℕ → UInt8} {p : List UInt8}
    (h : (Memory.of packet).Holds p) {packetLen : UInt16} (hlen : packetLen.toNat ≤ p.length)
    {ctx : SpeckContext} (hinside : HeaderInside packet packetLen ctx)
    (communityName : CommunityName) (ctxIv : SpeckContext) (stamp : UInt64) :
    let r := packetHeaderDecryptMem (.of packet) packetLen communityName ctx ctxIv stamp
    let d := packetHeaderDecrypt p packetLen communityName.toList ctx ctxIv stamp
    r.1 = d.ok ∧ r.2.1 = d.stamp ∧ r.2.2.Holds d.packet := by
  obtain ⟨hfirst, hheader⟩ := hinside
  have hmagic : (speckCtrMem (.of packet) 16 4 ctx).1 = speckCtr (slice p 16 4) p ctx :=
    speckCtrMem_fst h (by omega) (by omega) ctx
  have hhidden : hiddenLen packet ctx =
      be32At (speckCtr (slice p 16 4) p ctx) 0 - headerMagic := by
    rw [← hmagic]
    rfl
  have hholds := speckCtrMem_holds h 16 4 ctx
  rw [hhidden] at hheader
  unfold packetHeaderDecryptMem packetHeaderDecrypt
  dsimp only
  rw [hmagic]
  generalize speckCtrMem (.of packet) 16 4 ctx = first at hholds
  generalize be32At (speckCtr (slice p 16 4) p ctx) 0 - headerMagic = headerLen at hheader ⊢
  by_cases hle : headerLen.toNat ≤ packetLen.toNat
  · obtain ⟨hsixteen, horder⟩ := hheader hle
    have hrest : (headerLen - 16).toNat = headerLen.toNat - 16 :=
      UInt32.toNat_sub_of_le _ _ (by rw [UInt32.le_iff_toNat_le]; exact hsixteen)
    rw [if_pos hle, if_pos hle]
    -- the header is decrypted in place
    have hin : 16 + (headerLen - 16).toNat ≤ p.length := by omega
    have hdec := speckCtrMem_fst hholds hin (by omega) ctx
    have hholds₂ := speckCtrMem_holds hholds 16 (headerLen - 16).toNat ctx
    rw [hdec, speckCtrAt_eq hin]
    generalize speckCtrMem first.2 16 (headerLen - 16).toNat ctx = second at hholds₂
    have hwrite := hholds₂.write (i := 16) (q := speckCtr (slice p 16 (headerLen - 16).toNat) p ctx)
      (by rw [length_speckCtr, length_slice]; exact hin)
    have hlen₁ : (overwrite p 16 (speckCtr (slice p 16 (headerLen - 16).toNat) p ctx)).length =
        p.length := length_overwrite (by rw [length_speckCtr, length_slice]; exact hin)
    generalize overwrite p 16 _ = p₁ at hwrite hlen₁
    generalize second.2.write 16 _ = m₁ at hwrite
    -- the IV
    have hblk : (m₁.read 0 16).1 = slice p₁ 0 16 := hwrite.slice (by omega)
    rw [hblk]
    have hblock : (speck128Decrypt (slice p₁ 0 16) ctxIv).length = 16 := by
      rw [length_speck128Decrypt (by simp), length_slice]
    have hiv := (hwrite.read 0 16).write (i := 0) (q := speck128Decrypt (slice p₁ 0 16) ctxIv)
      (by omega)
    have hlen₂ := length_speck128Decrypt (show 16 ≤ p₁.length by omega) ctxIv
    rw [overwrite_speck128Decrypt (by omega)] at hiv
    generalize speck128Decrypt p₁ ctxIv = p₂ at hiv hlen₂
    generalize (m₁.read 0 16).2.write 0 _ = m₂ at hiv
    have htime : (m₂.read 4 8).1 = slice p₂ 4 8 := hiv.slice (by omega)
    have hhigh : ((m₂.read 4 8).2.read 0 4).1 = slice p₂ 0 4 := hiv.slice (by omega)
    have hhead : (((m₂.read 4 8).2.read 0 4).2.read 20 4).1 = slice p₂ 20 4 :=
      hiv.slice (by omega)
    rw [htime, hhigh, hhead, be64At_slice, be32At_slice]
    -- the original order
    have hstart := (((hiv.read 4 8).read 0 4).read 20 4).write (i := 0) (q := slice p₂ 20 4)
      (by rw [length_slice]; omega)
    have hlen₃ : (overwrite p₂ 0 (slice p₂ 20 4)).length = p₂.length :=
      length_overwrite (by rw [length_slice]; omega)
    generalize overwrite p₂ 0 (slice p₂ 20 4) = p₃ at hstart hlen₃
    generalize (((m₂.read 4 8).2.read 0 4).2.read 20 4).2.write 0 _ = m₃ at hstart
    have hname := hstart.write (i := 4) (q := communityName.toList)
      (by rw [List.Vector.toList_length]; show 4 + 20 ≤ _; omega)
    have hlen₄ : (overwrite p₃ 4 communityName.toList).length = p₃.length :=
      length_overwrite (by rw [List.Vector.toList_length]; show 4 + 20 ≤ _; omega)
    generalize overwrite p₃ 4 communityName.toList = p₄ at hname hlen₄
    have hwhole : ((m₃.write 4 communityName.toList).read 0 packetLen.toNat).1 =
        slice p₄ 0 packetLen.toNat := hname.slice (by omega)
    rw [hwhole]
    split_ifs
    · exact ⟨rfl, rfl, hname⟩
    · exact ⟨rfl, rfl, hname⟩
  · rw [if_neg hle, if_neg hle]
    exact ⟨rfl, rfl, hholds⟩

end N2n
