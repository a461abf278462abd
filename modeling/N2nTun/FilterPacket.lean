import N2nTun.FilterRules
import N2nTun.Lib.Access

/-!
# What the traffic filter reads of a frame

`collect_packet_info` takes addresses and ports out of an Ethernet frame. It looks at the size
behind each header that it skips, and there only for a byte that is left; what it then reads of the
next header may not be there. The length of the IPv4 header is the one that the frame states.

## Main definitions

* `collectPacketInfo` — the routine, on a memory that keeps a record of what is read.
* `AddrHeader`, `PortHeader` — the frame has a whole IPv4 header, or a transport header behind it.
* `CollectLaw` — nothing is read outside the frame, or taken from anything but such headers.
* `FrameComplete` — the frames that are long enough for what they say they are.

## Main results

* `collectPacketInfo_touched` — what is read.
* `collectLaw_iff` — **the law holds exactly for these frames.**
-/

namespace N2n

open Bytes

/-! ### The routine -/

/-- `ntohs` of a word of the frame. -/
def readWord (m : Memory) (i : ℕ) : UInt16 × Memory :=
  let (p, m) := m.read i 2
  (be16At p 0, m)

/-- An address of the frame, which is left in network byte order. -/
def readAddr (m : Memory) (i : ℕ) : UInt32 × Memory :=
  let (p, m) := m.read i 4
  (le32At p 0, m)

/-- The branch for a protocol with ports; `size` counts from the IPv4 header on. -/
def collectPorts (info : PacketInfo) (m : Memory) (size : ℤ) : PacketInfo × Memory :=
  let (vhl, m) := m.read 14 1
  let ihl := (vhl.getD 0 0 &&& 0x0f).toNat
  let size := size - ihl * 4
  if size ≤ 0 then (info, m)
  else
    let (source, m) := readWord m (14 + ihl * 4)
    let (dest, m) := readWord m (14 + ihl * 4 + 2)
    ({ info with srcPort := source, dstPort := dest }, m)

/-- The branch for an IPv4 header. -/
def collectIpv4 (info : PacketInfo) (m : Memory) (size : ℤ) : PacketInfo × Memory :=
  let (saddr, m) := readAddr m 26
  let (daddr, m) := readAddr m 30
  let info := { info with srcIp := saddr, dstIp := daddr }
  let (protocol, m) := m.read 23 1
  match (protocol.getD 0 0).toNat with
  | 0x01 => ({ info with proto := .icmp }, m)
  | 0x02 => ({ info with proto := .igmp }, m)
  | 0x06 => collectPorts { info with proto := .tcp } m size
  | 0x11 => collectPorts { info with proto := .udp } m size
  | _ => ({ info with proto := .unknown }, m)

/-- `collect_packet_info` on the frame at the start of the memory. -/
def collectPacketInfo (m : Memory) (size : ℕ) : PacketInfo × Memory :=
  -- the type is read before any size is looked at
  let (etherType, m) := readWord m 12
  let info : PacketInfo := ⟨0, 0, 0, 0, .unknown⟩
  match etherType.toNat with
  | 0x0800 =>
    let size : ℤ := size - 14
    if size ≤ 0 then (info, m)
    else
      let (vhl, m) := m.read 14 1
      match (vhl.getD 0 0 >>> 4).toNat with
      | 4 => collectIpv4 info m size
      | _ => ({ info with proto := .unknown }, m)
  | 0x0806 => ({ info with proto := .arp }, m)
  | _ => ({ info with proto := .unknown }, m)

/-! ### Headers of a frame -/

/-- `ether_type`. -/
def etherType (frame : ℕ → UInt8) : ℕ := (be16 (frame 12) (frame 13)).toNat

/-- The version of the IP header. -/
def ipVersion (frame : ℕ → UInt8) : ℕ := (frame 14 >>> 4).toNat

/-- The length field of the IP header, in words. -/
def ipIhl (frame : ℕ → UInt8) : ℕ := (frame 14 &&& 0x0f).toNat

/-- The protocol field of the IP header. -/
def ipProtocol (frame : ℕ → UInt8) : ℕ := (frame 23).toNat

/-- Where the transport header begins. -/
def portOffset (frame : ℕ → UInt8) : ℕ := 14 + ipIhl frame * 4

/-- The frame says that it carries IPv4, and has a byte of it. -/
def IsIpv4 (frame : ℕ → UInt8) (size : ℕ) : Prop :=
  etherType frame = 0x0800 ∧ 14 < size ∧ ipVersion frame = 4

/-- The size of the transport header of a protocol with ports. -/
def transportSize : ℕ → Option ℕ
  | 0x06 => some 20
  | 0x11 => some 8
  | _ => none

theorem transportSize_pos {k n : ℕ} (h : transportSize k = some n) : 0 < n := by
  unfold transportSize at h
  split at h
  · cases h
    decide
  · cases h
    decide
  · cases h

/-- The frame has a whole IPv4 header of 20 bytes. -/
def AddrHeader (frame : ℕ → UInt8) (size : ℕ) : Prop := IsIpv4 frame size ∧ 34 ≤ size

/-- The frame has a whole transport header behind an IPv4 header of at least 5 words. -/
def PortHeader (frame : ℕ → UInt8) (size : ℕ) : Prop :=
  AddrHeader frame size ∧ 5 ≤ ipIhl frame ∧
    ∃ n, transportSize (ipProtocol frame) = some n ∧ portOffset frame + n ≤ size

/-- The address at an offset. -/
def addrAt (frame : ℕ → UInt8) (i : ℕ) : UInt32 :=
  le32 (frame i) (frame (i + 1)) (frame (i + 2)) (frame (i + 3))

/-- The port at an offset. -/
def portAt (frame : ℕ → UInt8) (i : ℕ) : UInt16 := be16 (frame i) (frame (i + 1))

/-- **What is to be read and taken**: bytes inside the frame, addresses of a whole IPv4 header and
ports of a whole transport header; what is not there is left zero. -/
structure CollectLaw (frame : ℕ → UInt8) (size : ℕ) : Prop where
  inside : (collectPacketInfo (.of frame) size).2.Within size
  addresses : AddrHeader frame size →
    (collectPacketInfo (.of frame) size).1.srcIp = addrAt frame 26 ∧
      (collectPacketInfo (.of frame) size).1.dstIp = addrAt frame 30
  no_addresses : ¬ AddrHeader frame size →
    (collectPacketInfo (.of frame) size).1.srcIp = 0 ∧
      (collectPacketInfo (.of frame) size).1.dstIp = 0
  ports : PortHeader frame size →
    (collectPacketInfo (.of frame) size).1.srcPort = portAt frame (portOffset frame) ∧
      (collectPacketInfo (.of frame) size).1.dstPort = portAt frame (portOffset frame + 2)
  no_ports : ¬ PortHeader frame size →
    (collectPacketInfo (.of frame) size).1.srcPort = 0 ∧
      (collectPacketInfo (.of frame) size).1.dstPort = 0

/-- **The frames that are long enough.** There is an Ethernet header; an IPv4 header that has
begun is whole; and where TCP or UDP has begun behind it, the header length is that of an IPv4
header and the transport header is whole, or at least its ports are there and zero. -/
structure FrameComplete (frame : ℕ → UInt8) (size : ℕ) : Prop where
  ether : 14 ≤ size
  ip : IsIpv4 frame size → 34 ≤ size
  transport : IsIpv4 frame size → ∀ n, transportSize (ipProtocol frame) = some n →
    portOffset frame < size → portOffset frame + 4 ≤ size ∧
      ((5 ≤ ipIhl frame ∧ portOffset frame + n ≤ size) ∨
        (portAt frame (portOffset frame) = 0 ∧ portAt frame (portOffset frame + 2) = 0))

/-! ### What is read and taken -/

section

variable (m : Memory)

theorem readWord_eq (i : ℕ) : readWord m i = (portAt m.bytes i, m.after [(i, 2)]) := rfl

theorem readAddr_eq (i : ℕ) : readAddr m i = (addrAt m.bytes i, m.after [(i, 4)]) := rfl

theorem read_byte_eq (i : ℕ) : m.read i 1 = ([m.bytes i], m.after [(i, 1)]) := rfl

/-- The ports are taken from wherever the header length leads, if there is a byte behind it. -/
theorem collectPorts_eq (info : PacketInfo) (size : ℕ) :
    collectPorts info m ((size : ℤ) - 14) =
      if size ≤ portOffset m.bytes then (info, m.after [(14, 1)])
      else
        ({ info with
            srcPort := portAt m.bytes (portOffset m.bytes)
            dstPort := portAt m.bytes (portOffset m.bytes + 2) },
          m.after [(14, 1), (portOffset m.bytes, 2), (portOffset m.bytes + 2, 2)]) := by
  have hihl : (([m.bytes 14].getD 0 0 &&& 0x0f).toNat) = ipIhl m.bytes := rfl
  have hsize : (size : ℤ) - 14 - (ipIhl m.bytes * 4 : ℕ) ≤ 0 ↔ size ≤ portOffset m.bytes := by
    unfold portOffset
    omega
  unfold collectPorts
  dsimp only
  rw [read_byte_eq]
  dsimp only
  rw [hihl, readWord_eq, Memory.after_bytes, Memory.after_after]
  dsimp only
  rw [readWord_eq, Memory.after_bytes, Memory.after_after]
  push_cast at hsize ⊢
  simp only [hsize]
  rfl

/-- The protocol that the filter tells from the field of the header. -/
def protoOf : ℕ → FilterPacketProto
  | 0x01 => .icmp
  | 0x02 => .igmp
  | 0x06 => .tcp
  | 0x11 => .udp
  | _ => .unknown

/-- The addresses are taken in any case, and ports for the protocols that have them. -/
theorem collectIpv4_eq (info : PacketInfo) (size : ℕ) :
    collectIpv4 info m ((size : ℤ) - 14) =
      let info := { info with
        srcIp := addrAt m.bytes 26
        dstIp := addrAt m.bytes 30
        proto := protoOf (ipProtocol m.bytes) }
      let m := m.after [(26, 4), (30, 4), (23, 1)]
      if (transportSize (ipProtocol m.bytes)).isSome then collectPorts info m ((size : ℤ) - 14)
      else (info, m) := by
  unfold collectIpv4
  dsimp only
  rw [readAddr_eq]
  dsimp only
  rw [readAddr_eq, Memory.after_bytes, Memory.after_after]
  dsimp only
  rw [read_byte_eq, Memory.after_bytes, Memory.after_after]
  dsimp only
  have hproto : ([m.bytes 23].getD 0 0).toNat = ipProtocol m.bytes := rfl
  rw [hproto, Memory.after_bytes]
  generalize ipProtocol m.bytes = n
  -- the protocols one by one
  by_cases h1 : n = 1
  · subst h1
    rfl
  by_cases h2 : n = 2
  · subst h2
    rfl
  by_cases h6 : n = 6
  · subst h6
    rfl
  by_cases h17 : n = 17
  · subst h17
    rfl
  · have hunknown : protoOf n = .unknown := by
      unfold protoOf
      split <;> first | rfl | contradiction
    have hnone : transportSize n = none := by
      unfold transportSize
      split <;> first | rfl | contradiction
    rw [hunknown, hnone]
    split <;> first | rfl | contradiction

end

/-- A frame without IPv4: nothing is taken, and at most the byte of the version is read. -/
theorem collectPacketInfo_other {frame : ℕ → UInt8} {size : ℕ} (h : ¬ IsIpv4 frame size) :
    ∃ proto rs, collectPacketInfo (.of frame) size =
        (⟨0, 0, 0, 0, proto⟩, (Memory.of frame).after ((12, 2) :: rs)) ∧
      (∀ r ∈ rs, r = (14, 1) ∧ 14 < size) := by
  unfold collectPacketInfo
  rw [readWord_eq]
  dsimp only
  have htype : (portAt (Memory.of frame).bytes 12).toNat = etherType frame := rfl
  rw [htype]
  by_cases hip : etherType frame = 0x0800
  · simp only [hip]
    by_cases hsize : size ≤ 14
    · rw [if_pos (by omega)]
      exact ⟨.unknown, [], rfl, by simp⟩
    · rw [if_neg (by omega), read_byte_eq, Memory.after_bytes, Memory.after_after]
      dsimp only
      have hversion : ([(Memory.of frame).bytes 14].getD 0 0 >>> 4).toNat = ipVersion frame := rfl
      rw [hversion]
      have hfour : ipVersion frame ≠ 4 := fun heq => h ⟨hip, by omega, heq⟩
      refine ⟨.unknown, [(14, 1)], ?_, by simpa using by omega⟩
      split
      · contradiction
      · rfl
  · split
    · contradiction
    · exact ⟨.arp, [], rfl, by simp⟩
    · exact ⟨.unknown, [], rfl, by simp⟩

/-- A frame with IPv4. -/
theorem collectPacketInfo_ipv4 {frame : ℕ → UInt8} {size : ℕ} (h : IsIpv4 frame size) :
    collectPacketInfo (.of frame) size =
      let info : PacketInfo :=
        ⟨addrAt frame 26, 0, addrAt frame 30, 0, protoOf (ipProtocol frame)⟩
      let m := (Memory.of frame).after [(12, 2), (14, 1), (26, 4), (30, 4), (23, 1)]
      if (transportSize (ipProtocol frame)).isSome then
        if size ≤ portOffset frame then (info, m.after [(14, 1)])
        else
          ({ info with
              srcPort := portAt frame (portOffset frame)
              dstPort := portAt frame (portOffset frame + 2) },
            m.after [(14, 1), (portOffset frame, 2), (portOffset frame + 2, 2)])
      else (info, m) := by
  obtain ⟨hip, hsize, hfour⟩ := h
  have htype : (portAt (Memory.of frame).bytes 12).toNat = 0x0800 := hip
  have hversion : ([(Memory.of frame).bytes 14].getD 0 0 >>> 4).toNat = 4 := hfour
  unfold collectPacketInfo
  rw [readWord_eq]
  dsimp only
  rw [htype]
  rw [if_neg (by omega), read_byte_eq, Memory.after_bytes, Memory.after_after]
  dsimp only
  rw [hversion]
  rw [collectIpv4_eq]
  dsimp only
  rw [collectPorts_eq, Memory.after_after]
  rfl

/-- Without IPv4 only the Ethernet header has to be there. -/
theorem collectLaw_other {frame : ℕ → UInt8} {size : ℕ} (h : ¬ IsIpv4 frame size) :
    CollectLaw frame size ↔ 14 ≤ size := by
  obtain ⟨proto, rs, heq, hrs⟩ := collectPacketInfo_other h
  have haddr : ¬ AddrHeader frame size := fun ha => h ha.1
  have hport : ¬ PortHeader frame size := fun hp => haddr hp.1
  constructor
  · intro hlaw
    have hin := hlaw.inside (12, 2) (by rw [heq]; simp [Memory.of])
    simpa using hin
  · intro hsize
    refine ⟨?_, fun ha => absurd ha haddr, fun _ => ?_, fun hp => absurd hp hport, fun _ => ?_⟩
    · intro r hr
      rw [heq, Memory.after_touched, Memory.of, List.nil_append] at hr
      rcases List.mem_cons.mp hr with rfl | hr
      · exact .inr hsize
      · obtain ⟨rfl, hlt⟩ := hrs r hr
        exact .inr hlt
    · rw [heq]
      exact ⟨rfl, rfl⟩
    · rw [heq]
      exact ⟨rfl, rfl⟩

/-- With IPv4, but without ports to be taken, the IPv4 header has to be there. -/
theorem collectLaw_noPorts {frame : ℕ → UInt8} {size : ℕ} (hip : IsIpv4 frame size)
    {l : List (ℕ × ℕ)} (hl : ∀ r ∈ l, r = (14, 1)) (hport : ¬ PortHeader frame size)
    (heq : collectPacketInfo (.of frame) size =
      (⟨addrAt frame 26, 0, addrAt frame 30, 0, protoOf (ipProtocol frame)⟩,
        (Memory.of frame).after ([(12, 2), (14, 1), (26, 4), (30, 4), (23, 1)] ++ l))) :
    CollectLaw frame size ↔ 34 ≤ size := by
  constructor
  · intro hlaw
    have hin := hlaw.inside (30, 4) (by rw [heq]; simp)
    simpa using hin
  · intro hsize
    refine ⟨?_, fun _ => by rw [heq]; exact ⟨rfl, rfl⟩, fun ha => absurd ⟨hip, hsize⟩ ha,
      fun hp => absurd hp hport, fun _ => by rw [heq]; exact ⟨rfl, rfl⟩⟩
    intro r hr
    rw [heq, Memory.after_touched, Memory.of, List.nil_append] at hr
    simp only [List.mem_append, List.mem_cons, List.not_mem_nil, or_false] at hr
    right
    rcases hr with (rfl | rfl | rfl | rfl | rfl) | hr
    · exact le_trans (by decide) hsize
    · exact le_trans (by decide) hsize
    · exact le_trans (by decide) hsize
    · exact hsize
    · exact le_trans (by decide) hsize
    · rw [hl r hr]
      exact le_trans (by decide) hsize

/-- With IPv4, and ports that are taken, all depends on where they come from. -/
theorem collectLaw_ports {frame : ℕ → UInt8} {size n : ℕ} (hip : IsIpv4 frame size)
    (hn : transportSize (ipProtocol frame) = some n) (hoff : portOffset frame < size) :
    CollectLaw frame size ↔ 34 ≤ size ∧ portOffset frame + 4 ≤ size ∧
      ((5 ≤ ipIhl frame ∧ portOffset frame + n ≤ size) ∨
        (portAt frame (portOffset frame) = 0 ∧ portAt frame (portOffset frame + 2) = 0)) := by
  have heq := collectPacketInfo_ipv4 hip
  dsimp only at heq
  rw [hn, Option.isSome_some, if_pos rfl, if_neg (by omega), Memory.after_after] at heq
  have hport : 34 ≤ size → (PortHeader frame size ↔
      5 ≤ ipIhl frame ∧ portOffset frame + n ≤ size) := by
    intro hsize
    constructor
    · rintro ⟨-, hihl, n', hn', hlen⟩
      obtain rfl : n = n' := Option.some.inj (hn.symm.trans hn')
      exact ⟨hihl, hlen⟩
    · rintro ⟨hihl, hlen⟩
      exact ⟨⟨hip, hsize⟩, hihl, n, hn, hlen⟩
  constructor
  · intro hlaw
    have hsize : 34 ≤ size := by
      have hin := hlaw.inside (30, 4) (by rw [heq]; simp)
      simpa using hin
    have hlast : portOffset frame + 4 ≤ size := by
      have hin := hlaw.inside (portOffset frame + 2, 2) (by rw [heq]; simp)
      simpa using hin
    refine ⟨hsize, hlast, ?_⟩
    by_cases hp : PortHeader frame size
    · exact .inl ((hport hsize).mp hp)
    · have hzero := hlaw.no_ports hp
      rw [heq] at hzero
      exact .inr hzero
  · rintro ⟨hsize, hlast, hsource⟩
    refine ⟨?_, fun _ => by rw [heq]; exact ⟨rfl, rfl⟩, fun ha => absurd ⟨hip, hsize⟩ ha,
      fun _ => by rw [heq]; exact ⟨rfl, rfl⟩, fun hp => ?_⟩
    · intro r hr
      rw [heq, Memory.after_touched, Memory.of, List.nil_append] at hr
      simp only [List.mem_append, List.mem_cons, List.not_mem_nil, or_false] at hr
      right
      rcases hr with (rfl | rfl | rfl | rfl | rfl) | rfl | rfl | rfl <;> dsimp only <;> omega
    · -- no whole header: the bytes that were taken are zero
      obtain hheader | hzero := hsource
      · exact absurd ((hport hsize).mpr hheader) hp
      · rw [heq]
        exact hzero

/-- **When the routine keeps to the headers of the frame.** -/
theorem collectLaw_iff (frame : ℕ → UInt8) (size : ℕ) :
    CollectLaw frame size ↔ FrameComplete frame size := by
  by_cases hip : IsIpv4 frame size
  · have heq := collectPacketInfo_ipv4 hip
    have hether : 34 ≤ size → 14 ≤ size := le_trans (by decide)
    dsimp only at heq
    cases hn : transportSize (ipProtocol frame) with
    | none =>
      rw [hn] at heq
      have hport : ¬ PortHeader frame size := by
        rintro ⟨-, -, n, hn', -⟩
        rw [hn] at hn'
        cases hn'
      rw [collectLaw_noPorts hip (l := []) (by simp) hport (by simpa using heq)]
      refine ⟨fun hsize => ⟨hether hsize, fun _ => hsize, fun _ n hn' => ?_⟩, fun h => h.ip hip⟩
      rw [hn] at hn'
      cases hn'
    | some n =>
      by_cases hoff : portOffset frame < size
      · rw [collectLaw_ports hip hn hoff]
        constructor
        · rintro ⟨hsize, hlast⟩
          refine ⟨hether hsize, fun _ => hsize, fun _ n' hn' _ => ?_⟩
          obtain rfl : n = n' := Option.some.inj (hn.symm.trans hn')
          exact hlast
        · intro h
          exact ⟨h.ip hip, h.transport hip n hn hoff⟩
      · -- the transport header has not begun
        rw [hn, Option.isSome_some, if_pos rfl, if_pos (by omega), Memory.after_after] at heq
        have hport : ¬ PortHeader frame size := by
          rintro ⟨-, -, n', hn', hlen⟩
          obtain rfl : n = n' := Option.some.inj (hn.symm.trans hn')
          have hpos := transportSize_pos hn
          omega
        rw [collectLaw_noPorts hip (l := [(14, 1)]) (by simp) hport heq]
        exact ⟨fun hsize => ⟨hether hsize, fun _ => hsize, fun _ _ _ h => absurd h hoff⟩,
          fun h => h.ip hip⟩
  · rw [collectLaw_other hip]
    exact ⟨fun hsize => ⟨hsize, fun h => absurd h hip, fun h => absurd h hip⟩, FrameComplete.ether⟩

/-! ### A short frame -/

/-- The bytes of a frame; behind it the memory is full of ones. -/
def frameOf (p : List UInt8) : ℕ → UInt8 := fun i => p.getD i 0xff

/-- An Ethernet header with the type of IPv4, and one byte of an IPv4 header. -/
def shortFrame : ℕ → UInt8 := frameOf (List.replicate 12 2 ++ [0x08, 0x00, 0x45])

/-- The addresses of a frame of 15 bytes are read behind its end. -/
theorem not_collectLaw_short : ¬ CollectLaw shortFrame 15 := by
  intro h
  have hin := h.inside (26, 4) (by decide)
  simp at hin

end N2n
