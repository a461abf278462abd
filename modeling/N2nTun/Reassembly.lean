import N2nTun.Define
import N2nTun.Lib.Frames

/-!
# Reassembly of packets from a TCP stream

The supernode and the edge read length-prefixed packets from TCP with the same
two 16-bit counters: `expected` bytes of the current frame, the prepended length
included, and `position` of them read.  The length is added to `expected` before
it is compared with the size of the buffer, so that the two largest lengths wrap
around the counter.

## Main definitions

* `Reassembly`, `Reassembly.advance` — the buffer with its counters, and what
  bytes from the stream make of it.
* `Reassembly.Holds` — the buffer holds the beginning of a frame.

## Main results

* `Reassembly.Holds.advance` — **one read**, for every length that does not wrap.
-/

namespace N2n

open Bytes Frames

/-- The buffer of a stream, as the memory that starts there, and its counters. -/
structure Reassembly where
  expected : UInt16
  position : UInt16
  buffer : List UInt8
  deriving DecidableEq

/-- The size of the buffers, which have room for the prepended length. -/
def tcpBufferSize : ℕ := pktBufSize + 2

namespace Reassembly

/-- The size `expected - position` that `recvfrom` is asked for, a `size_t`. -/
def request (a : Reassembly) : ℕ := (a.expected.toNat + 2 ^ 64 - a.position.toNat) % 2 ^ 64

/-- The buffer after `recvfrom` has stored `bread` at the position. -/
def store (a : Reassembly) (bread : List UInt8) : Reassembly :=
  { a with
    buffer := overwrite a.buffer a.position.toNat bread
    position := a.position + UInt16.ofNat bread.length }

/-- What the bytes read so far amount to. -/
inductive Outcome where
  | wait
  | tooLong
  | packet (udpBuf : List UInt8)
  deriving DecidableEq

/-- The bytes `bread` have come in. -/
def advance (limit : ℕ) (a : Reassembly) (bread : List UInt8) : Reassembly × Outcome :=
  let a := a.store bread
  if a.position = a.expected then
    if a.position = 2 then
      -- the prepended length has been read, preparing for the packet
      let a := { a with expected := a.expected + be16At a.buffer 0 }
      if a.expected.toNat > limit then (a, .tooLong) else (a, .wait)
    else (a, .packet (slice a.buffer 2 ((a.position.toNat + 2 ^ 64 - 2) % 2 ^ 64)))
  else (a, .wait)

/-- Reset after a packet, awaiting a new prepended length.  `process_udp` decrypts
in place and has left `left` behind the length. -/
def reset (a : Reassembly) (left : List UInt8) : Reassembly :=
  ⟨2, 0, overwrite a.buffer 2 left⟩

end Reassembly

/-- The lengths a frame may declare: not 0, and such that it fits the buffer. -/
def lengthOk (n : ℕ) : Prop := 0 < n ∧ n + 2 ≤ pktBufSize

instance : DecidablePred lengthOk := fun _ => inferInstanceAs (Decidable (_ ∧ _))

theorem lengthOk_lt (n : ℕ) (h : lengthOk n) : n < be16Framing.bound := by
  have hn := h.2
  rw [pktBufSize] at hn
  rw [be16Framing_bound]
  omega

/-- `rest` is a proper beginning of an acceptable frame. -/
abbrev ShortFrame (rest : List UInt8) : Prop := be16Framing.Short lengthOk rest

/-- No acceptable frame stands at the front of `rest`. -/
abbrev PendingFrame (rest : List UInt8) : Prop := be16Framing.Pending lengthOk rest

/-- `received` is the frames of `ps`, all acceptable, and then `rest`. -/
abbrev CutFrames (received : List UInt8) (ps : List (List UInt8)) (rest : List UInt8) : Prop :=
  be16Framing.Cut lengthOk received ps rest

theorem short_length_le {rest : List UInt8} (h : ShortFrame rest) :
    rest.length + be16Framing.want rest ≤ pktBufSize ∧ 0 < be16Framing.want rest := by
  unfold Framing.want
  rcases h with h | ⟨hok, hge, hlt⟩
  · rw [be16Framing_width] at h ⊢
    rw [if_pos h, pktBufSize]
    omega
  · rw [be16Framing_width] at hge hlt ⊢
    have := hok.2
    rw [if_neg (by omega)]
    omega

namespace Reassembly

/-- The buffer holds the beginning `rest` of a frame. -/
structure Holds (a : Reassembly) (rest : List UInt8) : Prop where
  position : a.position.toNat = rest.length
  expected : a.expected.toNat = if rest.length < 2 then 2 else 2 + be16Framing.declared rest
  buffer : a.buffer.take rest.length = rest
  size : a.buffer.length = tcpBufferSize

variable {a : Reassembly} {rest bread : List UInt8}

theorem Holds.nil {buffer : List UInt8} (h : buffer.length = tcpBufferSize) :
    Holds ⟨2, 0, buffer⟩ [] := ⟨rfl, rfl, rfl, h⟩

/-- The request is for what the frame still lacks, and stays in the buffer. -/
theorem Holds.request (h : a.Holds rest) (hs : ShortFrame rest) :
    a.request = be16Framing.want rest ∧ a.position ≤ a.expected ∧
      a.expected.toNat ≤ pktBufSize := by
  have hbound := short_length_le hs
  have hp := h.position
  have he : a.expected.toNat = rest.length + be16Framing.want rest := by
    rw [h.expected]
    unfold Framing.want at hbound ⊢
    rw [be16Framing_width] at hbound ⊢
    by_cases hlt : rest.length < 2
    · rw [if_pos hlt, if_pos hlt]
      omega
    · rw [if_neg hlt] at hbound
      rw [if_neg hlt, if_neg hlt]
      omega
  have hmax : pktBufSize = 4096 := rfl
  refine ⟨?_, ?_, by omega⟩
  · rw [Reassembly.request, he, hp]
    omega
  · rw [UInt16.le_iff_toNat_le]
    omega

/-- A header that declares 0 leaves nothing to ask for. -/
theorem Holds.request_zero (h : a.Holds rest) (hlen : rest.length = 2)
    (hzero : be16Framing.declared rest = 0) :
    a.request = 0 ∧ a.position = a.expected ∧ a.expected.toNat = 2 := by
  have hp := h.position
  have he := h.expected
  rw [hlen, if_neg (by decide), hzero] at he
  refine ⟨?_, UInt16.toNat_inj.mp (by omega), he⟩
  rw [Reassembly.request, he, hp, hlen]
  rfl

/-- What a read of at most the requested size stores. -/
theorem Holds.store (h : a.Holds rest) (bread : List UInt8)
    (hle : rest.length + bread.length ≤ pktBufSize) :
    (a.store bread).position.toNat = (rest ++ bread).length ∧
      (a.store bread).buffer.take (rest ++ bread).length = rest ++ bread ∧
      (a.store bread).buffer.length = tcpBufferSize := by
  have hmax : pktBufSize = 4096 := rfl
  have hbuf : tcpBufferSize = 4098 := rfl
  have hsize := h.size
  simp only [Reassembly.store, h.position, List.length_append]
  refine ⟨?_, ?_, ?_⟩
  · rw [UInt16.toNat_add, UInt16.toNat_ofNat', h.position]
    omega
  · rw [take_overwrite_end (by omega), h.buffer]
  · rw [length_overwrite (by omega), hsize]

/-- The first word of the buffer is the declared length once it has been read. -/
theorem be16At_of_take {buf r : List UInt8} (h : buf.take r.length = r) (hr : 2 ≤ r.length) :
    (be16At buf 0).toNat = be16Framing.declared r := by
  rw [be16Framing_declared hr, ← h]
  simp only [be16At, List.getD_eq_getElem?_getD]
  rw [List.getElem?_take_of_lt (by omega), List.getElem?_take_of_lt (by omega)]

theorem advance_incomplete (h : (a.store bread).position ≠ a.expected) :
    a.advance pktBufSize bread = (a.store bread, .wait) := if_neg h

/-- The read that completes the header. -/
theorem Holds.advance_header (h : a.Holds rest) (hrest : rest.length < 2)
    (hlen : (rest ++ bread).length = 2) (hwrap : be16Framing.declared (rest ++ bread) < 65534) :
    ∃ a' : Reassembly, a'.Holds (rest ++ bread) ∧
      a.advance pktBufSize bread =
        (a',
          if 2 + be16Framing.declared (rest ++ bread) > pktBufSize then .tooLong else .wait) := by
  have hsum : rest.length + bread.length = 2 := by rw [← hlen, List.length_append]
  obtain ⟨hpos, hbuf, hsize⟩ := h.store bread (by rw [hsum]; decide)
  have hexp : (a.store bread).expected = 2 := by
    apply UInt16.toNat_inj.mp
    exact h.expected.trans (if_pos hrest)
  have hpos2 : (a.store bread).position = 2 := by
    apply UInt16.toNat_inj.mp
    rw [hpos, hlen]
    rfl
  have hword := be16At_of_take hbuf hlen.ge
  -- the sum is taken in 16 bits
  have hadd : ((2 : UInt16) + be16At (a.store bread).buffer 0).toNat =
      2 + be16Framing.declared (rest ++ bread) := by
    rw [UInt16.toNat_add, hword]
    exact Nat.mod_eq_of_lt (by change 2 + _ < 65536; omega)
  refine ⟨{ a.store bread with expected := 2 + be16At (a.store bread).buffer 0 },
    ⟨hpos, ?_, hbuf, hsize⟩, ?_⟩
  · rw [hlen, if_neg (by decide), hadd]
  · simp only [advance, hpos2, hexp, if_true, hadd]
    split <;> rfl

/-- The read that completes the body. -/
theorem Holds.advance_body (h : a.Holds rest) (hrest : 2 ≤ rest.length)
    (hlen : (rest ++ bread).length = 2 + be16Framing.declared rest)
    (hok : lengthOk (be16Framing.declared rest)) :
    a.advance pktBufSize bread = (a.store bread, .packet ((rest ++ bread).drop 2)) := by
  have hmax : pktBufSize = 4096 := rfl
  have hbody := hok.2
  have hsum : (rest ++ bread).length = rest.length + bread.length := List.length_append
  obtain ⟨hpos, hbuf, hsize⟩ := h.store bread (by omega)
  have hexp : (a.store bread).position = (a.store bread).expected := by
    apply UInt16.toNat_inj.mp
    rw [hpos, hlen]
    exact (h.expected.trans (if_neg (by omega))).symm
  have hpos2 : (a.store bread).position ≠ 2 := by
    intro heq
    have hval := congrArg UInt16.toNat heq
    rw [hpos, hlen] at hval
    have hval2 : 2 + be16Framing.declared rest = 2 := hval
    have := hok.1
    omega
  have hslice : slice (a.store bread).buffer 2
      (((a.store bread).position.toNat + 2 ^ 64 - 2) % 2 ^ 64) = (rest ++ bread).drop 2 := by
    rw [hpos, show ((rest ++ bread).length + 2 ^ 64 - 2) % 2 ^ 64 = (rest ++ bread).length - 2 by
      omega, slice_eq_take_drop, ← List.drop_take, hbuf]
    rw [hsize, tcpBufferSize, pktBufSize]
    omega
  simp only [advance, hslice]
  rw [if_pos hexp, if_neg hpos2]

/-- A read that leaves the rest short. -/
theorem Holds.advance_short (h : a.Holds rest) (hs : ShortFrame rest)
    (hle : bread.length ≤ be16Framing.want rest) (hs' : ShortFrame (rest ++ bread)) :
    ∃ a' : Reassembly, a'.Holds (rest ++ bread) ∧ a.advance pktBufSize bread = (a', .wait) := by
  have hmax : pktBufSize = 4096 := rfl
  have hsum : (rest ++ bread).length = rest.length + bread.length := List.length_append
  obtain ⟨hbound, -⟩ := short_length_le hs
  obtain ⟨hpos, hbuf, hsize⟩ := h.store bread (by omega)
  rcases hs' with hlt | ⟨hok, hge, hlt⟩
  · -- still in the header
    rw [be16Framing_width] at hlt
    have hexp : a.expected.toNat = 2 := by rw [h.expected, if_pos (by omega)]
    refine ⟨a.store bread, ⟨hpos, ?_, hbuf, hsize⟩, advance_incomplete ?_⟩
    · rw [if_pos hlt]
      exact hexp
    · intro heq
      have := congrArg UInt16.toNat heq
      omega
  · rw [be16Framing_width] at hge hlt
    by_cases hrest : rest.length < 2
    · -- the header is complete, and its length acceptable
      rw [Framing.want, be16Framing_width, if_pos hrest] at hle
      have hlen : (rest ++ bread).length = 2 := by omega
      obtain ⟨a', hholds, hadv⟩ := h.advance_header hrest hlen (by have := hok.2; omega)
      rw [if_neg (by have := hok.2; omega)] at hadv
      exact ⟨a', hholds, hadv⟩
    · -- in the body
      have hdecl : be16Framing.declared (rest ++ bread) = be16Framing.declared rest :=
        Framing.declared_append (by rw [be16Framing_width]; omega)
      have hexp : a.expected.toNat = 2 + be16Framing.declared rest := by
        rw [h.expected, if_neg hrest]
      refine ⟨a.store bread, ⟨hpos, ?_, hbuf, hsize⟩, advance_incomplete ?_⟩
      · rw [if_neg (by omega), hdecl]
        exact hexp
      · intro heq
        have := congrArg UInt16.toNat heq
        omega

/-- **One read** of at most the wanted size, the declared length not wrapping: the
buffer holds more of the frame, or a header that declares nothing, or one that
declares too much, or it yields the body of the frame. -/
theorem Holds.advance (h : a.Holds rest) (hs : ShortFrame rest)
    (hle : bread.length ≤ be16Framing.want rest)
    (hwrap : 2 ≤ (rest ++ bread).length → be16Framing.declared (rest ++ bread) < 65534) :
    (∃ a', a.advance pktBufSize bread = (a', .wait) ∧ a'.Holds (rest ++ bread) ∧
      ShortFrame (rest ++ bread)) ∨
    (∃ a', a.advance pktBufSize bread = (a', .wait) ∧ a'.Holds (rest ++ bread) ∧
      (rest ++ bread).length = 2 ∧ be16Framing.declared (rest ++ bread) = 0) ∨
    (∃ a', a.advance pktBufSize bread = (a', .tooLong) ∧ a'.Holds (rest ++ bread) ∧
      (rest ++ bread).length = 2 ∧ pktBufSize < 2 + be16Framing.declared (rest ++ bread)) ∨
    (∃ a' p, a.advance pktBufSize bread = (a', .packet p) ∧ a'.buffer.length = tcpBufferSize ∧
      rest ++ bread = be16Framing.frame p ∧ lengthOk p.length) := by
  have hsum : (rest ++ bread).length = rest.length + bread.length := List.length_append
  rcases hs.append_cases hle with hs' | ⟨hlen, hbad⟩ | ⟨hlen, hok⟩
  · obtain ⟨a', hholds, hadv⟩ := h.advance_short hs hle hs'
    exact Or.inl ⟨a', hadv, hholds, hs'⟩
  · rw [be16Framing_width] at hlen
    have hrest : rest.length < 2 := by
      by_contra hge
      rcases hs with hlt | ⟨hok, hge', -⟩
      · exact hge hlt
      · rw [Framing.declared_append hge'] at hbad
        exact hbad hok
    obtain ⟨a', hholds, hadv⟩ := h.advance_header hrest hlen (hwrap hlen.ge)
    by_cases hbig : 2 + be16Framing.declared (rest ++ bread) > pktBufSize
    · rw [if_pos hbig] at hadv
      exact Or.inr (Or.inr (Or.inl ⟨a', hadv, hholds, hlen, hbig⟩))
    · rw [if_neg hbig] at hadv
      have hzero : be16Framing.declared (rest ++ bread) = 0 := by
        by_contra hnz
        exact hbad ⟨by omega, by omega⟩
      exact Or.inr (Or.inl ⟨a', hadv, hholds, hlen, hzero⟩)
  · have hframe := Framing.eq_frame hlen
    rw [be16Framing_width] at hlen hframe
    have hrest : 2 ≤ rest.length := by
      by_contra hlt
      have := hok.1
      rw [Framing.want, be16Framing_width, if_pos (by omega)] at hle
      omega
    have hdecl : be16Framing.declared (rest ++ bread) = be16Framing.declared rest :=
      Framing.declared_append hrest
    have hbody : ((rest ++ bread).drop 2).length = be16Framing.declared (rest ++ bread) := by
      rw [List.length_drop]
      omega
    have hfit := hok.2
    obtain ⟨-, -, hsize⟩ := h.store bread (by omega)
    refine Or.inr (Or.inr (Or.inr ⟨a.store bread, _, ?_, hsize, hframe, by rw [hbody]; exact hok⟩))
    exact h.advance_body hrest (by rw [← hdecl]; exact hlen) (by rw [← hdecl]; exact hok)

/-- The buffer keeps its size over a reset. -/
theorem length_reset_buffer (h : a.buffer.length = tcpBufferSize) {left p : List UInt8}
    (hleft : left.length = p.length) (hok : lengthOk p.length) :
    (a.reset left).buffer.length = tcpBufferSize := by
  have hfit := hok.2
  rw [Reassembly.reset, length_overwrite, h]
  rw [hleft, h, tcpBufferSize]
  omega

end Reassembly

end N2n
