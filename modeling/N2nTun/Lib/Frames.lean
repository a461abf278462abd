import Mathlib.Data.List.Basic
import N2nTun.Lib.Bytes

/-!
# Length-prefixed framing of a stream

A stream carries frames, each a header of fixed width that declares the length
of the body behind it.  A receiver takes the stream in pieces of any size, but
never asks for more than the current frame still lacks.

## Main definitions

* `Framing` — a header codec.
* `Framing.Cut` — a stream as whole frames and a rest.
* `Framing.Short` — a rest that is the beginning of an acceptable frame.
* `Framing.want` — how many symbols the current frame still lacks.
* `Framing.Whole`, `Framing.Stopped` — a written stream, in use and after its end.

## Main results

* `Framing.Cut.first_frames` — **whole frames at the front of a stream are the first
  frames of every cut whose rest holds none**, so such a cut is unique.
* `Framing.Short.append_cases` — what a piece of at most the wanted size makes of
  a short rest.
-/

namespace Frames

/-- A header codec: headers of `width` symbols for the lengths below `bound`. -/
structure Framing (α : Type*) where
  width : ℕ
  bound : ℕ
  hdr : ℕ → List α
  len : List α → ℕ
  width_pos : 0 < width
  length_hdr : ∀ n, (hdr n).length = width
  len_hdr : ∀ n, n < bound → len (hdr n) = n
  hdr_len : ∀ h, h.length = width → hdr (len h) = h

namespace Framing

variable {α : Type*} (F : Framing α) (ok : ℕ → Prop)

/-- The frame of a body. -/
def frame (p : List α) : List α := F.hdr p.length ++ p

/-- The length the header at the front of `s` declares. -/
def declared (s : List α) : ℕ := F.len (s.take F.width)

/-- The stream `s` is the frames of the bodies `ps`, all of acceptable length,
and then `rest`. -/
structure Cut (s : List α) (ps : List (List α)) (rest : List α) : Prop where
  eq : s = ps.flatMap F.frame ++ rest
  ok : ∀ p ∈ ps, ok p.length

/-- No frame of acceptable length stands at the front of `rest`. -/
def Pending (rest : List α) : Prop := ∀ p t, ok p.length → rest ≠ F.frame p ++ t

/-- `rest` is a proper beginning of a frame of acceptable length, as far as can
be told from it. -/
def Short (rest : List α) : Prop :=
  rest.length < F.width ∨
    (ok (F.declared rest) ∧ F.width ≤ rest.length ∧
      rest.length < F.width + F.declared rest)

/-- How many symbols are missing: of the header first, then of the body. -/
def want (rest : List α) : ℕ :=
  if rest.length < F.width then F.width - rest.length
  else F.width + F.declared rest - rest.length

variable {F ok}

@[simp] theorem length_frame (p : List α) : (F.frame p).length = F.width + p.length := by
  rw [frame, List.length_append, F.length_hdr]

theorem declared_append {s t : List α} (h : F.width ≤ s.length) :
    F.declared (s ++ t) = F.declared s := by
  rw [declared, declared, List.take_append_of_le_length h]

theorem declared_frame {p : List α} (h : p.length < F.bound) (t : List α) :
    F.declared (F.frame p ++ t) = p.length := by
  have hlen := F.length_hdr p.length
  rw [declared, frame, List.append_assoc, ← hlen, List.take_left, F.len_hdr _ h]

/-- A stream whose header declares what follows is a frame. -/
theorem eq_frame {s : List α} (h : s.length = F.width + F.declared s) :
    s = F.frame (s.drop F.width) := by
  have hbody : (s.drop F.width).length = F.declared s := by
    rw [List.length_drop]
    omega
  have hhead : (s.take F.width).length = F.width := by
    rw [List.length_take]
    omega
  rw [frame, hbody, declared, F.hdr_len _ hhead, List.take_append_drop]

/-- Two frames at the front of one stream are the same. -/
theorem frame_append_inj {p q t u : List α} (hp : p.length < F.bound) (hq : q.length < F.bound)
    (h : F.frame p ++ t = F.frame q ++ u) : p = q ∧ t = u := by
  have hlen : p.length = q.length := by
    rw [← declared_frame hp t, h, declared_frame hq u]
  obtain ⟨hframe, htail⟩ := List.append_inj h (by rw [length_frame, length_frame, hlen])
  rw [frame, frame, hlen] at hframe
  exact ⟨List.append_cancel_left hframe, htail⟩

/-! ### Cuts -/

theorem Cut.nil (s : List α) : F.Cut ok s [] s := ⟨rfl, by simp⟩

theorem Cut.append {s rest : List α} {ps : List (List α)} (h : F.Cut ok s ps rest) (t : List α) :
    F.Cut ok (s ++ t) ps (rest ++ t) :=
  ⟨by rw [h.eq, List.append_assoc], h.ok⟩

/-- A frame at the front of the rest joins the whole ones. -/
theorem Cut.snoc {s t : List α} {ps : List (List α)} {p : List α}
    (h : F.Cut ok s ps (F.frame p ++ t)) (hp : ok p.length) : F.Cut ok s (ps ++ [p]) t := by
  refine ⟨?_, ?_⟩
  · rw [h.eq, List.flatMap_append, List.flatMap_singleton, List.append_assoc]
  · intro q hq
    rcases List.mem_append.mp hq with hq | hq
    · exact h.ok q hq
    · rw [List.mem_singleton.mp hq]
      exact hp

/-- **The frames at the front of a stream come first in every cut whose rest has
no frame at its front.** -/
theorem Cut.first_frames (hok : ∀ n, ok n → n < F.bound) {s t rest : List α} :
    ∀ {qs ps : List (List α)}, F.Cut ok s qs t → F.Cut ok s ps rest → F.Pending ok rest →
      qs <+: ps := by
  intro qs
  induction qs generalizing s with
  | nil =>
    intro ps _ _ _
    exact List.nil_prefix
  | cons q qs ih =>
    intro ps hqs hps hrest
    have hq : ok q.length := hqs.ok q List.mem_cons_self
    have hs := hqs.eq
    rw [List.flatMap_cons, List.append_assoc] at hs
    cases ps with
    | nil =>
      -- the rest itself would start with the frame of `q`
      have hr := hps.eq
      rw [List.flatMap_nil, List.nil_append] at hr
      exact absurd (hr.symm.trans hs) (hrest q _ hq)
    | cons p ps =>
      have hp : ok p.length := hps.ok p List.mem_cons_self
      have hs' := hps.eq
      rw [List.flatMap_cons, List.append_assoc] at hs'
      obtain ⟨rfl, htail⟩ := frame_append_inj (hok _ hq) (hok _ hp) (hs.symm.trans hs')
      have hqs' : F.Cut ok (qs.flatMap F.frame ++ t) qs t :=
        ⟨rfl, fun r hr => hqs.ok r (List.mem_cons_of_mem _ hr)⟩
      have hps' : F.Cut ok (qs.flatMap F.frame ++ t) ps rest :=
        ⟨htail, fun r hr => hps.ok r (List.mem_cons_of_mem _ hr)⟩
      exact List.cons_prefix_cons.mpr ⟨rfl, ih hqs' hps' hrest⟩

/-! ### Rests -/

theorem short_nil : F.Short ok [] := Or.inl F.width_pos

/-- A header of no acceptable length blocks the stream. -/
theorem pending_of_not_ok (hok : ∀ n, ok n → n < F.bound) {rest : List α}
    (h : ¬ ok (F.declared rest)) : F.Pending ok rest := by
  intro p t hp hrest
  rw [hrest, declared_frame (hok _ hp)] at h
  exact h hp

theorem Short.pending (hok : ∀ n, ok n → n < F.bound) {rest : List α} (h : F.Short ok rest) :
    F.Pending ok rest := by
  intro p t hp hrest
  have hlen : rest.length = F.width + p.length + t.length := by
    rw [hrest, List.length_append, length_frame]
  rcases h with h | ⟨-, -, h⟩
  · omega
  · rw [hrest, declared_frame (hok _ hp), ← hrest] at h
    omega

/-- **A piece of at most the wanted size leaves a short rest short, completes a
header that is not acceptable, or completes a frame.** -/
theorem Short.append_cases {rest piece : List α} (h : F.Short ok rest)
    (hpiece : piece.length ≤ F.want rest) :
    F.Short ok (rest ++ piece) ∨
      ((rest ++ piece).length = F.width ∧ ¬ ok (F.declared (rest ++ piece))) ∨
      ((rest ++ piece).length = F.width + F.declared (rest ++ piece) ∧
        ok (F.declared (rest ++ piece))) := by
  have hlen : (rest ++ piece).length = rest.length + piece.length := List.length_append
  by_cases hhdr : rest.length < F.width
  · -- the header is being read
    rw [want, if_pos hhdr] at hpiece
    by_cases hfull : (rest ++ piece).length < F.width
    · exact Or.inl (Or.inl hfull)
    · have hwidth : (rest ++ piece).length = F.width := by omega
      by_cases hk : ok (F.declared (rest ++ piece))
      · by_cases hzero : F.declared (rest ++ piece) = 0
        · exact Or.inr (Or.inr ⟨by omega, hk⟩)
        · exact Or.inl (Or.inr ⟨hk, by omega, by omega⟩)
      · exact Or.inr (Or.inl ⟨hwidth, hk⟩)
  · rcases h with h | ⟨hk, hge, hlt⟩
    · exact absurd h hhdr
    · rw [want, if_neg hhdr] at hpiece
      have hdecl : F.declared (rest ++ piece) = F.declared rest := declared_append hge
      rw [hdecl]
      by_cases hfull : (rest ++ piece).length < F.width + F.declared rest
      · refine Or.inl (Or.inr ⟨?_, by omega, ?_⟩) <;> rw [hdecl]
        · exact hk
        · exact hfull
      · exact Or.inr (Or.inr ⟨by omega, hk⟩)

/-! ### Writing a stream -/

variable (F ok)

/-- The stream is made of whole frames. -/
def Whole (s : List α) : Prop := ∃ ps, F.Cut ok s ps []

/-- The stream is made of whole frames and a proper beginning of one more. -/
def Broken (s : List α) : Prop :=
  ∃ ps part p t, F.Cut ok s ps part ∧ ok p.length ∧ t ≠ [] ∧ F.frame p = part ++ t

/-- A stream that is written no more: whole frames, and possibly a beginning. -/
def Stopped (s : List α) : Prop := F.Whole ok s ∨ F.Broken ok s

variable {F ok}

theorem whole_nil : F.Whole ok [] := ⟨[], Cut.nil []⟩

/-- Another frame. -/
theorem Whole.frame {s p : List α} (h : F.Whole ok s) (hp : ok p.length) :
    F.Whole ok (s ++ F.frame p) := by
  obtain ⟨ps, hcut⟩ := h
  refine ⟨ps ++ [p], ?_, ?_⟩
  · rw [hcut.eq]
    simp
  · intro q hq
    rcases List.mem_append.mp hq with hq | hq
    · exact hcut.ok q hq
    · rw [List.mem_singleton.mp hq]
      exact hp

/-- Only the header of another frame. -/
theorem Whole.hdr {s p : List α} (h : F.Whole ok s) (hp : ok p.length) :
    F.Stopped ok (s ++ F.hdr p.length) := by
  by_cases hnil : p = []
  · left
    have := h.frame hp
    rwa [Framing.frame, hnil, List.append_nil, ← hnil] at this
  · obtain ⟨ps, hcut⟩ := h
    exact Or.inr ⟨ps, F.hdr p.length, p, p, ⟨by simp [hcut.eq], hcut.ok⟩, hp, hnil, rfl⟩

/-- A beginning of a frame is not made of whole frames. -/
theorem Short.not_whole (hok : ∀ n, ok n → n < F.bound) {rest : List α} (h : F.Short ok rest)
    (hne : rest ≠ []) : ¬ F.Whole ok rest := by
  rintro ⟨ps, hcut⟩
  cases ps with
  | nil => exact hne (by simpa using hcut.eq)
  | cons p ps =>
    refine h.pending hok p (ps.flatMap F.frame) (hcut.ok p List.mem_cons_self) ?_
    simpa using hcut.eq

end Framing

/-! ### Headers of one big-endian word -/

/-- The codec whose header is the length as a 16-bit big-endian word. -/
def be16Framing : Framing UInt8 where
  width := 2
  bound := 65536
  hdr := fun n => Bytes.bytes16 (UInt16.ofNat n)
  len := fun h => (Bytes.be16At h 0).toNat
  width_pos := by decide
  length_hdr := fun _ => rfl
  len_hdr := by
    intro n hn
    have h : Bytes.be16At (Bytes.bytes16 (UInt16.ofNat n)) 0 = UInt16.ofNat n :=
      Bytes.be16_bytes16 _
    rw [h, UInt16.toNat_ofNat_of_lt' hn]
  hdr_len := by
    intro h hlen
    obtain ⟨hi, lo, rfl⟩ := List.length_eq_two.mp hlen
    rw [UInt16.ofNat_toNat]
    exact Bytes.bytes16_be16 hi lo

@[simp] theorem be16Framing_width : be16Framing.width = 2 := rfl

@[simp] theorem be16Framing_bound : be16Framing.bound = 65536 := rfl

theorem be16Framing_declared {s : List UInt8} (h : 2 ≤ s.length) :
    be16Framing.declared s = (Bytes.be16At s 0).toNat := by
  match s, h with
  | _ :: _ :: _, _ => rfl

end Frames
