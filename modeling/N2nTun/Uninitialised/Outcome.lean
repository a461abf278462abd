import N2nTun.HeaderRoundTrip
import N2nTun.Notes
import N2nTun.WireRoundTrip

/-!
# Outcomes of two runs

When two runs have the same outcome, and that encrypted headers hide no difference: answers
with different bytes before the encryption have different bytes after it.

## Main definitions

* `World.SameOutcome` — the same state of the supernode, and the same bytes to the same
  destinations.

## Main results

* `World.encryptHeader_inj` — **encryption hides no difference.**
* `World.SameOutcome.answer` — two answers are the same if the outcome is.
-/

namespace N2n

open Bytes

/-- What leaves the supernode: the bytes and where they go. -/
def Emission.wire (e : Emission) : Sock × ℤ × List UInt8 := (e.dest, e.socketFd, e.pkt.bytes)

/-- Two runs end in the same state of the supernode and have emitted the same bytes to the same
destinations. -/
structure World.SameOutcome (w w' : World) : Prop where
  sss : w'.sss = w.sss
  emitted : w'.emitted.map Emission.wire = w.emitted.map Emission.wire
  written : w'.written = w.written

theorem World.SameOutcome.of_noting {w w' : World} {a : ℕ → Mac → List UInt64}
    (h : w' = w.noting a) : w.SameOutcome w' := by
  subst h
  exact ⟨rfl, rfl, rfl⟩

namespace World

theorem sendtoFdRaw_emitted (w : World) (fd : ℤ) (p : List UInt8) :
    (w.sendtoFdRaw fd p).1.emitted = w.emitted := by
  unfold sendtoFdRaw
  dsimp only
  split_ifs <;> rfl

theorem sendtoFd_emitted (w : World) (fd : ℤ) (sock : Sock) (p : List UInt8)
    (policy : TransportPolicy) : (w.sendtoFd fd sock p policy).1.emitted = w.emitted := by
  unfold sendtoFd
  dsimp only
  split_ifs
  · rfl
  · exact sendtoFdRaw_emitted _ fd p
  · exact sendtoFdRaw_emitted w fd p

theorem sendFrame_emitted (w : World) (fd : ℤ) (sock : Sock) (p : List UInt8)
    (policy : TransportPolicy) : (w.sendFrame fd sock p policy).1.emitted = w.emitted := by
  unfold sendFrame
  dsimp only
  split_ifs
  · exact sendtoFd_emitted w fd sock _ policy
  · rw [sendtoFd_emitted, sendtoFd_emitted]
  · exact sendtoFd_emitted w fd sock p policy

/-- An answer is the last emission. -/
theorem replySock_emitted (w : World) (rx : Rx) (pkt : Pkt) :
    (w.replySock rx pkt).emitted = w.emitted ++ [⟨.sender, rx.sender, rx.socketFd, pkt⟩] :=
  sendFrame_emitted _ _ _ _ _

/-- Two answers after the same run are the same if the outcome is. -/
theorem SameOutcome.answer {w v v' : World} {r : Rx} {pkt pkt' : Pkt}
    (h : v.SameOutcome v') (hv : v.emitted = w.emitted ++ [⟨.sender, r.sender, r.socketFd, pkt⟩])
    (hv' : v'.emitted = w.emitted ++ [⟨.sender, r.sender, r.socketFd, pkt'⟩]) :
    pkt'.bytes = pkt.bytes := by
  have hwire := h.emitted
  rw [hv, hv', List.map_append, List.map_append] at hwire
  simpa [Emission.wire] using List.append_cancel_left hwire

/-- **Encrypted headers hide no difference** between packets of one length with the same common
part. -/
theorem encryptHeader_inj (w : World) (ctx iv : Option SpeckContext) (n : ℕ) {cmn : Common}
    {rest rest' : List UInt8} (hlen : rest'.length = rest.length)
    (h : (w.encryptHeader ctx iv (.ofPlain (cmn.header ++ rest')) n).2.bytes =
      (w.encryptHeader ctx iv (.ofPlain (cmn.header ++ rest)) n).2.bytes) : rest' = rest := by
  cases ctx with
  | none => exact List.append_cancel_left h
  | some ctx =>
    cases iv with
    | none => exact List.append_cancel_left h
    | some iv =>
      have hsize : (cmn.header ++ rest').length = (cmn.header ++ rest).length := by
        rw [List.length_append, List.length_append, hlen]
      have hname : cmn.community.toList.length = communitySize := cmn.community.2
      simp only [encryptHeader, Pkt.ofPlain] at h
      rw [hsize] at h
      unfold Common.header at h
      exact packetHeaderEncrypt_inj rfl hname hlen _ _ ctx iv _ _ h

/-- The same for the dynamic key, if headers are encrypted at all. -/
theorem sealDynamic_inj (w : World) (comm n : ℕ) {cmn : Common} {rest rest' : List UInt8}
    (hlen : rest'.length = rest.length)
    (h : (w.sealDynamic comm (cmn.header ++ rest') n).2.bytes =
      (w.sealDynamic comm (cmn.header ++ rest) n).2.bytes) : rest' = rest := by
  unfold sealDynamic at h
  cases hget : w.sss.communities.get? comm with
  | none =>
    simp only [hget] at h
    exact List.append_cancel_left h
  | some c =>
    simp only [hget] at h
    split_ifs at h
    · exact encryptHeader_inj w _ _ n hlen h
    · exact List.append_cancel_left h

/-- The same for the static key. -/
theorem sealStatic_inj (w : World) (comm : ℕ) {cmn : Common} {rest rest' : List UInt8}
    (hlen : rest'.length = rest.length)
    (h : (w.sealStatic comm (cmn.header ++ rest')).2.bytes =
      (w.sealStatic comm (cmn.header ++ rest)).2.bytes) : rest' = rest := by
  unfold sealStatic at h
  cases hget : w.sss.communities.get? comm with
  | none =>
    simp only [hget] at h
    exact List.append_cancel_left h
  | some c =>
    simp only [hget] at h
    split_ifs at h
    · rw [List.length_append, hlen, ← List.length_append] at h
      exact encryptHeader_inj w _ _ _ hlen h
    · exact List.append_cancel_left h

/-- The hash of the user is put behind the packet, and is always of one size. -/
theorem sealHashed_bytes (w : World) (comm : ℕ) (user : Option SnUser) :
    ∃ k, ∀ plain, ∃ hash : List UInt8, hash.length = k ∧
      (w.sealHashed comm plain user).2.bytes = (w.sealStatic comm plain).2.bytes ++ hash := by
  have hsss : ∀ plain, (w.sealStatic comm plain).1.sss = w.sss := by
    intro plain
    unfold sealStatic encryptHeader
    dsimp only
    split
    · split_ifs
      · split <;> rfl
      · rfl
    · rfl
  have hplain : ∀ p : List UInt8, ∃ hash : List UInt8, hash.length = 0 ∧ p = p ++ hash :=
    fun p => ⟨[], rfl, (List.append_nil p).symm⟩
  unfold sealHashed
  simp only [hsss]
  cases w.sss.communities.get? comm with
  | none => exact ⟨0, fun plain => hplain _⟩
  | some c =>
    cases user with
    | none => exact ⟨0, fun plain => hplain _⟩
    | some user =>
      dsimp only
      by_cases hash : c.headerEncryption = .enabled ∧ c.hasUsers
      · simp only [if_pos hash]
        exact ⟨regSupHashCheckLen, fun plain => ⟨_, length_slice _ _ _, rfl⟩⟩
      · simp only [if_neg hash]
        exact ⟨0, fun plain => hplain _⟩

/-- The same for the static key, with the hash of the user behind it. -/
theorem sealHashed_inj (w : World) (comm : ℕ) (user : Option SnUser) {cmn : Common}
    {rest rest' : List UInt8} (hlen : rest'.length = rest.length)
    (h : (w.sealHashed comm (cmn.header ++ rest') user).2.bytes =
      (w.sealHashed comm (cmn.header ++ rest) user).2.bytes) : rest' = rest := by
  obtain ⟨k, hk⟩ := w.sealHashed_bytes comm user
  obtain ⟨hash', hlen', heq'⟩ := hk (cmn.header ++ rest')
  obtain ⟨hash, hlenHash, heq⟩ := hk (cmn.header ++ rest)
  rw [heq', heq] at h
  exact w.sealStatic_inj comm hlen (List.append_inj' h (by rw [hlen', hlenHash])).1

end World

end N2n
