import N2nTun.Kcp
import N2nTun.Lib.Access
import N2nTun.Lib.Loop

/-!
# What the classifier of KCP datagrams reads

`n2n_kcp_packet_get_conv` once more, now over a memory that goes on behind the datagram.  It walks
from segment to segment by lengths that the sender has chosen; the sum that advances the walk is
taken in 32 bits, while the number of bytes left has 64.

## Main definitions

* `kcpPacketStep`, `n2nKcpPacketGetConvIn` — the walk and the function.
* `KcpPacket` — a non-empty sequence of segments of one conversation.
* `GetConvMeets` — the function returns, stays inside the buffer and tells such sequences apart.

## Main results

* `kcpWalk_eq` — the walk over the memory is the walk over the list of the bytes.
* `KcpWalk.Inside.run` — it reads nothing behind the buffer, whatever its bytes and its length are.
* `getConvMeets_iff` — **the function does so on all buffers of fewer than `2 ^ 32` bytes and on
  all in which the sum does not wrap; for every greater length there is a buffer on which it does
  not return.**
-/

namespace N2n

open Bytes Loops

/-! ### The function -/

/-- `n2n_kcp_read_le32`. -/
def n2nKcpReadLe32 (m : Memory) (p : ℕ) : UInt32 × Memory :=
  (le32At (m.read p 4).1 0, (m.read p 4).2)

/-- The variables of the loop, and the memory. -/
structure KcpWalk where
  mem : Memory
  p : ℕ
  remaining : ℕ

/-- One pass of the loop of `n2n_kcp_packet_get_conv`, and what follows the loop.  The result is
what is returned and what is left in `conv`. -/
def kcpPacketStep (packetConv : UInt32) (w : KcpWalk) : KcpWalk ⊕ ((ℤ × UInt32) × Memory) :=
  if w.remaining < kcpOverhead then
    .inr (if w.remaining ≠ 0 then (0, 0) else (1, packetConv), w.mem)
  else
    let (segConv, m) := n2nKcpReadLe32 w.mem w.p
    let (cmd, m) := m.read (w.p + 4) 1
    let (segLen, m) := n2nKcpReadLe32 m (w.p + 20)
    if segConv ≠ packetConv then .inr ((0, 0), m)
    else if !n2nKcpCmdIsValid (cmd.getD 0 0) then .inr ((0, 0), m)
    else if segLen.toNat > w.remaining - kcpOverhead then .inr ((0, 0), m)
    else
      -- the sum is of an `int` and a `uint32_t`
      .inl ⟨m, w.p + ((24 : UInt32) + segLen).toNat, w.remaining - ((24 : UInt32) + segLen).toNat⟩

/-- `n2n_kcp_packet_get_conv` on the first `len` bytes of a memory, with at most `passes` passes of
its loop.  `ikcp_getconv` reads the first four bytes. -/
def n2nKcpPacketGetConvIn (passes : ℕ) (m : Memory) (len : ℕ) :
    Option ((ℤ × UInt32) × Memory) :=
  if len < kcpOverhead then some ((0, 0), m)
  else
    let (packetConv, m) := n2nKcpReadLe32 m 0
    loop (kcpPacketStep packetConv) passes ⟨m, 0, len⟩

/-! ### What it is to do -/

/-- At least one segment, and nothing but segments of the conversation. -/
def KcpPacket (conv : UInt32) (buf : List UInt8) : Prop := buf ≠ [] ∧ KcpSegments conv buf

/-- The function returns on the first `len` bytes without a look behind them: 1 and the
conversation for segments of one conversation, else 0 and 0. -/
def GetConvMeets (bytes : ℕ → UInt8) (len : ℕ) : Prop :=
  ∃ passes r m, n2nKcpPacketGetConvIn passes (.of bytes) len = some (r, m) ∧ m.Within len ∧
    (∀ conv, KcpPacket conv ((Memory.of bytes).slice 0 len) → r = (1, conv)) ∧
    ((∀ conv, ¬ KcpPacket conv ((Memory.of bytes).slice 0 len)) → r = (0, 0))

/-! ### It stays inside the buffer -/

/-- The walk is inside the first `len` bytes: so are its reads, and it has as many bytes left as
there are. -/
structure KcpWalk.Inside (len : ℕ) (w : KcpWalk) : Prop where
  mem : w.mem.Within len
  left : w.p + w.remaining = len

theorem kcpAdvance_le (seg : UInt32) : ((24 : UInt32) + seg).toNat ≤ 24 + seg.toNat := by
  rw [UInt32.toNat_add]
  exact Nat.mod_le _ _

/-- The memory after the fields of a header have been read. -/
def KcpWalk.headerRead (w : KcpWalk) : Memory :=
  w.mem.after [(w.p, 4), (w.p + 4, 1), (w.p + 20, 4)]

/-- What one pass reads of the header. -/
theorem kcpPacketStep_eq (conv : UInt32) (w : KcpWalk) (h : kcpOverhead ≤ w.remaining) :
    kcpPacketStep conv w =
      if le32At (w.mem.slice w.p 4) 0 ≠ conv then .inr ((0, 0), w.headerRead)
      else if !n2nKcpCmdIsValid ((w.mem.slice (w.p + 4) 1).getD 0 0) then
        .inr ((0, 0), w.headerRead)
      else if (le32At (w.mem.slice (w.p + 20) 4) 0).toNat > w.remaining - kcpOverhead then
        .inr ((0, 0), w.headerRead)
      else
        .inl ⟨w.headerRead, w.p + ((24 : UInt32) + le32At (w.mem.slice (w.p + 20) 4) 0).toNat,
          w.remaining - ((24 : UInt32) + le32At (w.mem.slice (w.p + 20) 4) 0).toNat⟩ := by
  have hmem : (((w.mem.read w.p 4).2.read (w.p + 4) 1).2.read (w.p + 20) 4).2 = w.headerRead := by
    simp [Memory.read, KcpWalk.headerRead, Memory.after]
  rw [kcpPacketStep, if_neg (by omega)]
  simp only [n2nKcpReadLe32, Memory.read_fst, Memory.read_slice, hmem]

theorem KcpWalk.Inside.headerRead {len : ℕ} {w : KcpWalk} (h : w.Inside len)
    (hhead : kcpOverhead ≤ w.remaining) : w.headerRead.Within len := by
  have hleft := h.left
  have hover : kcpOverhead = 24 := rfl
  intro r hr
  rw [KcpWalk.headerRead, Memory.after_touched, List.mem_append] at hr
  rcases hr with hr | hr
  · exact h.mem r hr
  · simp only [List.mem_cons, List.not_mem_nil, or_false] at hr
    rcases hr with rfl | rfl | rfl
    · right; omega
    · right; omega
    · right; omega

/-- A pass keeps the walk inside. -/
theorem KcpWalk.Inside.next {len : ℕ} {conv : UInt32} {w w' : KcpWalk} (h : w.Inside len)
    (hstep : kcpPacketStep conv w = .inl w') : w'.Inside len := by
  by_cases hshort : w.remaining < kcpOverhead
  · rw [kcpPacketStep, if_pos hshort] at hstep
    cases hstep
  rw [kcpPacketStep_eq conv w (by omega)] at hstep
  split_ifs at hstep with hconv hcmd hlen
  obtain rfl := Sum.inl.inj hstep
  have hleft := h.left
  have hover : kcpOverhead = 24 := rfl
  have hadvance := kcpAdvance_le (le32At (w.mem.slice (w.p + 20) 4) 0)
  refine ⟨h.headerRead (by omega), ?_⟩
  show w.p + ((24 : UInt32) + le32At (w.mem.slice (w.p + 20) 4) 0).toNat +
    (w.remaining - ((24 : UInt32) + le32At (w.mem.slice (w.p + 20) 4) 0).toNat) = len
  omega

/-- The last pass. -/
theorem KcpWalk.Inside.done {len : ℕ} {conv : UInt32} {w : KcpWalk} {r : ℤ × UInt32} {m : Memory}
    (h : w.Inside len) (hstep : kcpPacketStep conv w = .inr (r, m)) : m.Within len := by
  by_cases hshort : w.remaining < kcpOverhead
  · rw [kcpPacketStep, if_pos hshort] at hstep
    have hm := (Prod.mk.inj (Sum.inr.inj hstep)).2
    rw [← hm]
    exact h.mem
  · have hread := h.headerRead (by omega)
    rw [kcpPacketStep_eq conv w (by omega)] at hstep
    split_ifs at hstep with hconv hcmd hlen
    all_goals
      have hm := (Prod.mk.inj (Sum.inr.inj hstep)).2
      rw [← hm]
      exact hread

/-- The walk reads inside the buffer, whatever it holds. -/
theorem KcpWalk.Inside.run {len : ℕ} {conv : UInt32} {r : ℤ × UInt32} {m : Memory} :
    ∀ {passes : ℕ} {w : KcpWalk}, w.Inside len →
      loop (kcpPacketStep conv) passes w = some (r, m) → m.Within len := by
  intro passes
  induction passes with
  | zero =>
    intro w h hloop
    cases hloop
  | succ passes ih =>
    intro w h hloop
    rw [loop] at hloop
    cases hstep : kcpPacketStep conv w with
    | inl w' =>
      rw [hstep] at hloop
      exact ih (h.next hstep) hloop
    | inr result =>
      rw [hstep] at hloop
      obtain rfl := Option.some.inj hloop
      exact h.done hstep

/-! ### It is the walk over the list -/

/-- The bytes that are left. -/
def KcpWalk.rest (w : KcpWalk) : List UInt8 := w.mem.slice w.p w.remaining

theorem KcpWalk.length_rest (w : KcpWalk) : w.rest.length = w.remaining := by
  simp [KcpWalk.rest]

/-- The fields of the header, in the memory and in the list. -/
theorem KcpWalk.fields (w : KcpWalk) (h : kcpOverhead ≤ w.remaining) :
    le32At (w.mem.slice w.p 4) 0 = le32At w.rest 0 ∧
      (w.mem.slice (w.p + 4) 1).getD 0 0 = w.rest.getD 4 0 ∧
      le32At (w.mem.slice (w.p + 20) 4) 0 = le32At w.rest 20 := by
  have hover : kcpOverhead = 24 := rfl
  have hbyte : ∀ i n k, k < n → (w.mem.slice i n).getD k 0 = w.mem.bytes (i + k) := by
    intro i n k hk
    simp [Memory.slice, List.getD_eq_getElem?_getD, hk]
  have hrest : ∀ k, k < kcpOverhead → w.rest.getD k 0 = w.mem.bytes (w.p + k) := fun k hk =>
    hbyte w.p w.remaining k (by omega)
  refine ⟨?_, ?_, ?_⟩
  · simp (disch := omega) only [le32At, hbyte, hrest]
  · rw [hbyte _ _ _ (by omega), hrest 4 (by omega), Nat.add_zero]
  · simp (disch := omega) only [le32At, hbyte, hrest, Nat.add_assoc]

theorem KcpWalk.rest_advance (w : KcpWalk) (m : Memory) (hm : m.bytes = w.mem.bytes) (k : ℕ) :
    (KcpWalk.mk m (w.p + k) (w.remaining - k)).rest = w.rest.drop k := by
  apply List.ext_getElem
  · simp [KcpWalk.rest]
  · intro i h₁ h₂
    simp [KcpWalk.rest, Memory.slice, hm, Nat.add_assoc]

/-- What is returned for what the walk finds. -/
def kcpVerdict (packetConv : UInt32) (onlySegments : Bool) : ℤ × UInt32 :=
  if onlySegments then (1, packetConv) else (0, 0)

/-- **The walk over the memory is the walk over the list.** -/
theorem kcpWalk_eq (conv : UInt32) : ∀ (passes : ℕ) (w : KcpWalk),
    (loop (kcpPacketStep conv) passes w).map Prod.fst =
      (kcpSegmentLoop conv passes w.rest).map (kcpVerdict conv) := by
  intro passes
  induction passes with
  | zero => exact fun _ => rfl
  | succ passes ih =>
    intro w
    rw [loop, kcpSegmentLoop, w.length_rest]
    by_cases hshort : w.remaining < kcpOverhead
    · rw [kcpPacketStep, if_pos hshort, if_pos hshort]
      by_cases hzero : w.remaining = 0
      · simp [hzero, kcpVerdict]
      · simp [hzero, kcpVerdict]
    · obtain ⟨hconv, hcmd, hlen⟩ := w.fields (by omega)
      rw [kcpPacketStep_eq conv w (by omega), if_neg hshort, hconv, hcmd, hlen]
      split_ifs with h₁ h₂ h₃
      · rfl
      · rfl
      · rfl
      · refine (ih _).trans ?_
        rw [w.rest_advance w.headerRead rfl]

/-! ### Buffers on which the sum does not wrap -/

theorem KcpSegments.conv_eq {conv : UInt32} {p : List UInt8} (h : KcpSegments conv p)
    (hp : p ≠ []) : le32At p 0 = conv ∧ kcpOverhead ≤ p.length := by
  cases h with
  | nil => exact absurd rfl hp
  | cons hhead hconv _ _ _ => exact ⟨hconv, hhead⟩

theorem getConvMeets_of_unwrapped {bytes : ℕ → UInt8} {len : ℕ}
    (h : KcpUnwrapped (le32At ((Memory.of bytes).slice 0 len) 0) ((Memory.of bytes).slice 0 len)) :
    GetConvMeets bytes len := by
  obtain ⟨buf, hbuf⟩ : ∃ buf, buf = (Memory.of bytes).slice 0 len := ⟨_, rfl⟩
  have hlength : buf.length = len := by simp [hbuf]
  unfold GetConvMeets
  rw [← hbuf] at h ⊢
  by_cases hshort : len < kcpOverhead
  · -- too short for a header
    refine ⟨0, (0, 0), .of bytes, if_pos hshort, ?_, ?_, fun _ => rfl⟩
    · intro r hr
      cases hr
    · intro conv hpacket
      have hhead := (hpacket.2.conv_eq hpacket.1).2
      omega
  · -- the walk begins with the whole buffer
    obtain ⟨b, hb, hspec⟩ :=
      kcpSegmentLoop_decides (le32At buf 0) (Nat.lt_succ_self buf.length) h
    let w : KcpWalk := ⟨((Memory.of bytes).read 0 4).2, 0, len⟩
    have hrest : w.rest = buf := hbuf.symm
    have hconv : le32At ((Memory.of bytes).slice 0 4) 0 = le32At buf 0 := by
      rw [← hrest, ← (w.fields (not_lt.mp hshort)).1]
      rfl
    have hwalk := kcpWalk_eq (le32At buf 0) (buf.length + 1) w
    rw [hrest, hb, Option.map_some] at hwalk
    obtain ⟨⟨r, m⟩, hloop, hr⟩ := Option.map_eq_some_iff.mp hwalk
    change r = _ at hr
    have hinside : w.Inside len := by
      refine ⟨?_, Nat.zero_add len⟩
      intro r hr
      have hr' : r = (0, 4) := by simpa [w, Memory.of] using hr
      subst hr'
      have hover : kcpOverhead = 24 := rfl
      right
      omega
    refine ⟨buf.length + 1, r, m, ?_, hinside.run hloop, ?_, ?_⟩
    · rw [n2nKcpPacketGetConvIn, if_neg hshort]
      show loop (kcpPacketStep (le32At ((Memory.of bytes).slice 0 4) 0)) _ w = _
      rw [hconv]
      exact hloop
    · rintro conv ⟨hne, hseg⟩
      have heq := (hseg.conv_eq hne).1
      rw [← heq] at hseg
      rw [hr, hspec.mpr hseg, heq]
      rfl
    · intro hno
      have hne : buf ≠ [] := by
        intro hnil
        rw [hnil, List.length_nil] at hlength
        have hover : kcpOverhead = 24 := rfl
        omega
      have hfalse : b = false := by
        rw [← Bool.not_eq_true, hspec]
        exact fun hseg => hno _ ⟨hne, hseg⟩
      rw [hr, hfalse]
      rfl

/-! ### Buffers on which it does -/

/-- A PUSH whose length field, with the length of the header, makes `2 ^ 32`. -/
def standstill : ℕ → UInt8 :=
  fun k => ([0, 0, 0, 0, 81, 0, 0, 0, 0, 0, 0, 0, 0, 0, 0, 0, 0, 0, 0, 0, 0xe8, 0xff, 0xff, 0xff] :
    List UInt8).getD k 0

/-- A pass over it does not advance. -/
theorem kcpPacketStep_standstill {m : Memory} (hm : m.bytes = standstill) {len : ℕ}
    (hlen : 2 ^ 32 ≤ len) :
    kcpPacketStep 0 ⟨m, 0, len⟩ = .inl ⟨KcpWalk.headerRead ⟨m, 0, len⟩, 0, len⟩ := by
  have hslice : ∀ i n, m.slice i n = (Memory.of standstill).slice i n := by
    intro i n
    rw [Memory.slice, Memory.slice, hm]
    rfl
  have hlow : (4294967272 : UInt32).toNat ≤ len - kcpOverhead := by
    change 4294967272 ≤ len - 24
    omega
  have hconv : le32At ((Memory.of standstill).slice 0 4) 0 = 0 := by decide
  have hcmd : n2nKcpCmdIsValid (((Memory.of standstill).slice (0 + 4) 1).getD 0 0) = true := by
    decide
  have hfield : le32At ((Memory.of standstill).slice (0 + 20) 4) 0 = 4294967272 := by decide
  rw [kcpPacketStep_eq 0 _ (by change 24 ≤ len; omega), hslice, hslice, hslice, hconv, hcmd,
    hfield, if_neg (by simp), if_neg (by simp), if_neg (not_lt.mpr hlow)]
  rfl

/-- The walk does not end. -/
theorem loop_standstill {len : ℕ} (hlen : 2 ^ 32 ≤ len) : ∀ (passes : ℕ) (m : Memory),
    m.bytes = standstill → loop (kcpPacketStep 0) passes ⟨m, 0, len⟩ = none := by
  intro passes
  induction passes with
  | zero => exact fun _ _ => rfl
  | succ passes ih =>
    intro m hm
    rw [loop, kcpPacketStep_standstill hm hlen]
    exact ih _ hm

theorem getConvMeets_standstill {len : ℕ} (hlen : 2 ^ 32 ≤ len) :
    ¬ GetConvMeets standstill len := by
  rintro ⟨passes, r, m, hrun, -⟩
  have hover : kcpOverhead = 24 := rfl
  have hconv : le32At ((Memory.of standstill).slice 0 4) 0 = 0 := by decide
  rw [n2nKcpPacketGetConvIn, if_neg (by omega)] at hrun
  change loop (kcpPacketStep (le32At ((Memory.of standstill).slice 0 4) 0)) passes _ = _ at hrun
  rw [hconv, loop_standstill hlen] at hrun
  · cases hrun
  · rfl

/-- **When the function does what it is for**: on every buffer in which the sum does not wrap, and
on all buffers of a length exactly if that is below `2 ^ 32`. -/
theorem getConvMeets_iff (len : ℕ) :
    (∀ bytes,
      KcpUnwrapped (le32At ((Memory.of bytes).slice 0 len) 0) ((Memory.of bytes).slice 0 len) →
        GetConvMeets bytes len) ∧
    ((∀ bytes, GetConvMeets bytes len) ↔ len < 2 ^ 32) := by
  refine ⟨fun bytes h => getConvMeets_of_unwrapped h, ?_⟩
  constructor
  · intro h
    by_contra hlen
    exact getConvMeets_standstill (by omega) (h standstill)
  · intro h bytes
    exact getConvMeets_of_unwrapped (kcpUnwrapped_of_length (by simpa using h))

/-- An ACK, and a byte behind it. -/
theorem getConvMeets_ack :
    GetConvMeets (fun k => ([7, 0, 0, 0, 82] : List UInt8).getD k 0) 24 :=
  (getConvMeets_iff 24).1 _ (kcpUnwrapped_of_length (by simp))

/-- A buffer of `2 ^ 32` bytes on which the function does not return. -/
theorem not_getConvMeets_standstill : ¬ GetConvMeets standstill (2 ^ 32) :=
  getConvMeets_standstill (le_refl _)

end N2n
