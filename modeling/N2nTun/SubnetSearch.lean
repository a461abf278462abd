import N2nTun.AddressSearch
import N2nTun.CommunityFile

/-!
# The search for a sub-network

`assign_one_ip_subnet` gives a new community a sub-network of the configured range.  It asks for
each sub-network whether it overlaps with the one of another community, first from a proposal
down to the lower end of the range, then up to the upper end.

Two things go wrong.  A community for which no sub-network was left has 0.0.0.0/0, and this
overlaps with all: as long as there is one, no other community gets a sub-network either.  And if
the range ends with the last address, the loop upwards comes to 0.0.0.0 behind it and goes on.

## Main definitions

* `autoIpRange`, `communityNet` — the checks of option `-a` and of the community file.
* `Sn.RangeOk`, `NetOk` — what they accept.
* `Sn.SubnetLaw` — what a community is to get.

## Main results

* `subnetAvailable_iff` — the test for overlaps, in terms of addresses.
* `Sn.NetsOk.withSubnet`, `Sn.NetsOk.line` — the sub-networks stay aligned.
* `subnetLaw_iff` — **when `assign_one_ip_subnet` keeps to the law.**
-/

namespace N2n

/-! ### What is accepted -/

/-- An address for a network is neither 0.0.0.0 nor 255.255.255.255, and its host part is
empty. -/
def netAddrOk (net : UInt32) (bitlen : UInt8) : Bool :=
  net != 0xffffffff && net != 0 && net &&& ~~~ bitlen2mask bitlen == 0

/-- Option `-a`: the ends of the range for sub-networks. -/
def autoIpRange (netMin netMax : UInt32) (bitlen : UInt8) : Option (IpSubnet × IpSubnet) :=
  if !netAddrOk netMin bitlen || !netAddrOk netMax bitlen || netMin > netMax then none
  else if bitlen > 30 || bitlen == 0 then none
  else some (⟨netMin, bitlen⟩, ⟨netMax, bitlen⟩)

/-- The sub-network of a community in `load_allowed_sn_community`. -/
def communityNet (net : UInt32) (bitlen : UInt8) : Option IpSubnet :=
  if !netAddrOk net bitlen then none
  else if bitlen > 30 || bitlen == 0 then none
  else some ⟨net, bitlen⟩

/-- The range is one that `-a` accepts. -/
def Sn.RangeOk (sss : Sn) : Prop :=
  ∃ netMin netMax bitlen,
    autoIpRange netMin netMax bitlen = some (sss.minAutoIpNet, sss.maxAutoIpNet)

/-- The range without `-a`: 10.128.0.0-10.255.255.0/24. -/
example : autoIpRange 0x0a800000 0x0affff00 24 =
    some (⟨0x0a800000, 24⟩, ⟨0x0affff00, 24⟩) := by decide +kernel

/-- A community holds no sub-network, or one that begins with its network address. -/
def NetOk (net : IpSubnet) : Prop :=
  net = ⟨0, 0⟩ ∨ PrefixOk net.netBitlen ∧ netSize net.netBitlen ∣ net.netAddr.toNat

/-- All communities have such a sub-network. -/
def Sn.NetsOk (sss : Sn) : Prop :=
  ∀ p c, sss.communities.get? p = some c → NetOk c.autoIpNet

theorem netAddrOk_iff {net : UInt32} {bitlen : UInt8} (h : bitlen.toNat ≤ 32) :
    netAddrOk net bitlen = true ↔
      net ≠ 0xffffffff ∧ net ≠ 0 ∧ netSize bitlen ∣ net.toNat := by
  have hhost : net &&& ~~~ bitlen2mask bitlen = 0 ↔ netSize bitlen ∣ net.toNat := by
    rw [Nat.dvd_iff_mod_eq_zero, ← and_not_mask_toNat h, ← UInt32.toNat_inj]
    rfl
  unfold netAddrOk
  rw [Bool.and_eq_true, Bool.and_eq_true, bne_iff_ne, bne_iff_ne, beq_iff_eq, hhost, and_assoc]

theorem prefixOk_of_accepted {bitlen : UInt8} (h : ¬(bitlen > 30 || bitlen == 0) = true) :
    PrefixOk bitlen := by
  simp only [Bool.or_eq_true, decide_eq_true_eq, beq_iff_eq, not_or, gt_iff_lt,
    UInt8.not_lt] at h
  obtain ⟨hle, hne⟩ := h
  have hpos : bitlen.toNat ≠ 0 := fun hzero => hne (UInt8.toNat_inj.mp hzero)
  have hle' := UInt8.le_iff_toNat_le.mp hle
  exact ⟨by omega, hle'⟩

/-- **The community file sets aligned sub-networks only.** -/
theorem communityNet_ok {net : UInt32} {bitlen : UInt8} {r : IpSubnet}
    (h : communityNet net bitlen = some r) : NetOk r := by
  unfold communityNet at h
  split_ifs at h with haddr hbits
  have hbitlen := prefixOk_of_accepted hbits
  rw [Bool.not_eq_true', Bool.not_eq_false, netAddrOk_iff hbitlen.le] at haddr
  cases h
  exact Or.inr ⟨hbitlen, haddr.2.2⟩

/-- **The range in units of a sub-network.** -/
theorem Sn.RangeOk.units {sss : Sn} (h : sss.RangeOk) :
    PrefixOk sss.minAutoIpNet.netBitlen ∧ ∃ low high, 1 ≤ low ∧ low ≤ high ∧
      sss.minAutoIpNet.netAddr.toNat = low * netSize sss.minAutoIpNet.netBitlen ∧
      sss.maxAutoIpNet.netAddr.toNat = high * netSize sss.minAutoIpNet.netBitlen := by
  obtain ⟨netMin, netMax, bitlen, h⟩ := h
  unfold autoIpRange at h
  split_ifs at h with haddr hbits
  have hbitlen := prefixOk_of_accepted hbits
  simp only [Bool.or_eq_true, Bool.not_eq_true', decide_eq_true_eq, not_or, Bool.not_eq_false,
    netAddrOk_iff hbitlen.le, gt_iff_lt, UInt32.not_lt, UInt32.le_iff_toNat_le] at haddr
  obtain ⟨⟨⟨-, hne, hmin⟩, -, -, hmax⟩, hle⟩ := haddr
  obtain ⟨hsnMin, hsnMax⟩ := Prod.mk.inj (Option.some.inj h)
  rw [← hsnMin, ← hsnMax]
  have hpos := netSize_pos bitlen
  obtain ⟨low, hlow⟩ := hmin
  obtain ⟨high, hhigh⟩ := hmax
  rw [Nat.mul_comm] at hlow hhigh
  refine ⟨hbitlen, low, high, Nat.pos_of_ne_zero ?_, ?_, hlow, hhigh⟩
  · rintro rfl
    exact hne (UInt32.toNat_inj.mp (by rw [hlow, Nat.zero_mul]; rfl))
  · rw [hlow, hhigh] at hle
    exact Nat.le_of_mul_le_mul_right hle hpos

/-! ### Overlaps -/

/-- The addresses of a sub-network. -/
def IpSubnet.Contains (net : IpSubnet) (a : UInt32) : Prop :=
  net.netAddr.toNat ≤ a.toNat ∧ a.toNat < net.netAddr.toNat + netSize net.netBitlen

/-- No address is in both. -/
def IpSubnet.Disjoint (net other : IpSubnet) : Prop := ∀ a, net.Contains a → ¬other.Contains a

/-- Another community, and not the federation. -/
def Sn.IsOther (sss : Sn) (comm : ℕ) (c : Community) : Prop :=
  c.isFederation = false ∧ ∃ p, p ≠ comm ∧ sss.communities.get? p = some c

theorem NetOk.aligned {net : IpSubnet} (h : NetOk net) :
    net.netBitlen.toNat ≤ 32 ∧ netSize net.netBitlen ∣ net.netAddr.toNat := by
  rcases h with rfl | ⟨hbitlen, hdvd⟩
  · exact ⟨Nat.zero_le _, Nat.dvd_zero _⟩
  · exact ⟨hbitlen.le, hdvd⟩

/-- A sub-network does not reach past the last address. -/
theorem NetOk.add_le {net : IpSubnet} (h : NetOk net) :
    net.netAddr.toNat + netSize net.netBitlen ≤ 2 ^ 32 := by
  obtain ⟨-, q, hq⟩ := h.aligned
  have hlt := net.netAddr.toNat_lt
  rw [hq, Nat.mul_comm] at hlt ⊢
  exact mul_netSize_add_le hlt

/-- The last address of a sub-network. -/
theorem NetOk.last_toNat {net : IpSubnet} (h : NetOk net) :
    (net.netAddr + ~~~ bitlen2mask net.netBitlen).toNat =
      net.netAddr.toNat + netSize net.netBitlen - 1 := by
  have hle := h.add_le
  have hpos := netSize_pos net.netBitlen
  rw [UInt32.toNat_add, not_mask_toNat h.aligned.1, Nat.mod_eq_of_lt (by omega)]
  omega

/-- Sub-networks are disjoint if one of them ends before the other begins. -/
theorem NetOk.disjoint_iff {net other : IpSubnet} (h : NetOk net) (hother : NetOk other) :
    net.Disjoint other ↔
      ¬(net.netAddr ≤ other.netAddr + ~~~ bitlen2mask other.netBitlen ∧
        other.netAddr ≤ net.netAddr + ~~~ bitlen2mask net.netBitlen) := by
  have hpos := netSize_pos net.netBitlen
  have hpos' := netSize_pos other.netBitlen
  rw [UInt32.le_iff_toNat_le, UInt32.le_iff_toNat_le, h.last_toNat, hother.last_toNat]
  unfold IpSubnet.Disjoint IpSubnet.Contains
  constructor
  · intro hdisjoint hends
    -- the larger one of the first addresses is in both
    by_cases hle : net.netAddr.toNat ≤ other.netAddr.toNat
    · exact hdisjoint other.netAddr (by omega) (by omega)
    · exact hdisjoint net.netAddr (by omega) (by omega)
  · intro hends a ha hother
    omega

/-- **The test for overlaps.** -/
theorem subnetAvailable_iff {sss : Sn} (h : sss.NetsOk) {bitlen : UInt8} {netId : UInt32}
    (hnet : NetOk ⟨netId, bitlen⟩) (comm : ℕ) :
    sss.subnetAvailable comm (bitlen2mask bitlen) netId = true ↔
      ∀ c, sss.IsOther comm c → IpSubnet.Disjoint ⟨netId, bitlen⟩ c.autoIpNet := by
  unfold Sn.subnetAvailable
  rw [Option.isNone_iff_eq_none, Table.first?_eq_none]
  constructor
  · rintro hnone c ⟨hfed, p, hne, hget⟩
    have hmem : c ∈ sss.communities.del comm :=
      Table.mem_def.mpr ⟨p, Table.get?_eq_some.mp (by rw [Table.get?_del, if_neg hne, hget])⟩
    have hfalse := hnone c hmem
    rw [hnet.disjoint_iff (h p c hget)]
    simpa [hfed] using hfalse
  · intro hdisjoint c hmem
    obtain ⟨p, hp⟩ := Table.mem_def.mp hmem
    have hget := Table.get?_eq_some.mpr hp
    rw [Table.get?_del] at hget
    split_ifs at hget with heq
    cases hfed : c.isFederation with
    | true => rfl
    | false =>
      have hends := (hnet.disjoint_iff (h p c hget)).mp (hdisjoint c ⟨hfed, p, heq, hget⟩)
      simpa using hends

/-! ### The order of the search -/

/-- A sub-network of the range. -/
def Sn.RangeSubnet (sss : Sn) (a : UInt32) : Prop :=
  sss.minAutoIpNet.netAddr ≤ a ∧ a ≤ sss.maxAutoIpNet.netAddr ∧
    netSize sss.minAutoIpNet.netBitlen ∣ a.toNat

/-- The address of a sub-network, by number. -/
def blockAddr (size q : ℕ) : UInt32 := UInt32.ofNat (q * size)

theorem blockAddr_toNat {size q : ℕ} (h : q * size < 2 ^ 32) :
    (blockAddr size q).toNat = q * size :=
  toNat_ofNat h

theorem blockAddr_succ (size q : ℕ) :
    blockAddr size (q + 1) = blockAddr size q + UInt32.ofNat size := by
  unfold blockAddr
  rw [Nat.add_mul, Nat.one_mul, UInt32.ofNat_add]

/-- The loops go from sub-network to sub-network, also over the ends. -/
theorem dvd_add_size {size : ℕ} (hdvd : size ∣ 2 ^ 32) (a : UInt32) (ha : size ∣ a.toNat) :
    size ∣ (a + UInt32.ofNat size).toNat := by
  rw [UInt32.toNat_add, UInt32.toNat_ofNat']
  exact (Nat.dvd_mod_iff hdvd).mpr (ha.add ((Nat.dvd_mod_iff hdvd).mpr dvd_rfl))

theorem dvd_sub_size {size : ℕ} (hdvd : size ∣ 2 ^ 32) (hsize : size < 2 ^ 32) (a : UInt32)
    (ha : size ∣ a.toNat) : size ∣ (a - UInt32.ofNat size).toNat := by
  rw [UInt32.toNat_sub, toNat_ofNat hsize]
  exact (Nat.dvd_mod_iff hdvd).mpr ((Nat.dvd_sub hdvd dvd_rfl).add ha)

/-- The sub-networks in the order in which they are tried. -/
def subnetOrder (size low first high : ℕ) : List UInt32 :=
  (List.range (first - low + 1)).map (fun i => blockAddr size (first - i)) ++
    (List.range (high - first)).map fun i => blockAddr size (first + 1 + i)

/-- All of them are tried. -/
theorem mem_subnetOrder {size low first high : ℕ} (hlow : low ≤ first) (hhigh : first ≤ high)
    (a : UInt32) :
    a ∈ subnetOrder size low first high ↔ ∃ q, low ≤ q ∧ q ≤ high ∧ a = blockAddr size q := by
  unfold subnetOrder
  simp only [List.mem_append, List.mem_map, List.mem_range]
  constructor
  · rintro (⟨i, hi, rfl⟩ | ⟨i, hi, rfl⟩)
    · exact ⟨first - i, by omega, by omega, rfl⟩
    · exact ⟨first + 1 + i, by omega, by omega, rfl⟩
  · rintro ⟨q, hq, hq', rfl⟩
    by_cases hle : q ≤ first
    · exact Or.inl ⟨first - q, by omega, by rw [show first - (first - q) = q by omega]⟩
    · exact Or.inr ⟨q - (first + 1), by omega, by
        rw [show first + 1 + (q - (first + 1)) = q by omega]⟩

section

variable (test : UInt32 → Bool) {size low first high : ℕ} {netMin netMax : UInt32}

/-- The loop down to the lower end of the range. -/
theorem searchSubnetDown_eq (hpos : 0 < size) (hone : 1 ≤ low) (hlow : low ≤ first)
    (hfirst : first * size < 2 ^ 32) (hmin : netMin.toNat = low * size)
    {fuel : ℕ} (hfuel : 2 ^ 32 ≤ fuel) (last : UInt32 × Bool) :
    ∃ addr, searchAddr (netMin ≤ ·) (· - UInt32.ofNat size) test fuel (blockAddr size first) last =
      some (searched (((List.range (first - low + 1)).map fun i =>
        blockAddr size (first - i)).find? test) addr) := by
  have hlt : ∀ q, q ≤ first → q * size < 2 ^ 32 := fun q hq =>
    Nat.lt_of_le_of_lt (Nat.mul_le_mul_right size hq) hfirst
  have hcount : first ≤ first * size := Nat.le_mul_of_pos_right first hpos
  have hturns := @searchAddr_eq (netMin ≤ ·) (· - UInt32.ofNat size) test (first - low + 1)
    (fun i => blockAddr size (first - i)) (fun i hi => ?_) (fun i hi => ?_) ?_ fuel
    (show first - low + 1 < fuel by omega) last
  · rw [if_neg (Nat.succ_ne_zero _)] at hturns
    exact ⟨_, hturns⟩
  · rw [decide_eq_true_iff, UInt32.le_iff_toNat_le, hmin, blockAddr_toNat (hlt _ (by omega))]
    exact Nat.mul_le_mul_right size (by omega)
  · rw [show first - i = first - (i + 1) + 1 by omega, blockAddr_succ, UInt32.add_sub_cancel]
  · rw [decide_eq_false_iff_not, UInt32.le_iff_toNat_le, hmin,
      blockAddr_toNat (hlt _ (by omega)), Nat.not_le]
    exact Nat.mul_lt_mul_of_pos_right (by omega) hpos

/-- The turns of the loop up to the upper end of the range. -/
theorem searchSubnetUp_turns (hfirst : first ≤ high) (hmax : netMax.toNat = high * size)
    (fuel : ℕ) (last : UInt32 × Bool) :
    searchAddr (· ≤ netMax) (· + UInt32.ofNat size) test (high - first + fuel)
        (blockAddr size (first + 1)) last =
      match ((List.range (high - first)).map
          fun i => blockAddr size (first + 1 + i)).find? test with
      | some addr => some (addr, true)
      | none =>
        searchAddr (· ≤ netMax) (· + UInt32.ofNat size) test fuel (blockAddr size (high + 1))
          (if high - first = 0 then last
            else (blockAddr size (first + 1 + (high - first - 1)), false)) := by
  have hmaxlt := netMax.toNat_lt
  have hturns := @searchAddr_turns (· ≤ netMax) (· + UInt32.ofNat size) test (high - first)
    (fun i => blockAddr size (first + 1 + i)) (fun i hi => ?_) (fun i hi => ?_) fuel last
  · rw [show first + 1 + (high - first) = high + 1 by omega] at hturns
    exact hturns
  · have hle : (first + 1 + i) * size ≤ high * size := Nat.mul_le_mul_right size (by omega)
    rw [decide_eq_true_iff, UInt32.le_iff_toNat_le, hmax, blockAddr_toNat (by omega)]
    exact hle
  · rw [← blockAddr_succ, Nat.add_assoc]

/-- The loops find the first sub-network of the order that passes the test. -/
theorem searchSubnet_first (hpos : 0 < size) (hone : 1 ≤ low) (hlow : low ≤ first)
    (hfirst : first ≤ high) (hmin : netMin.toNat = low * size)
    (hmax : netMax.toNat = high * size) {addr : UInt32}
    (hfind : (subnetOrder size low first high).find? test = some addr) (last : UInt32 × Bool) :
    searchBoth searchFuel (netMin ≤ ·) (· ≤ netMax) (UInt32.ofNat size) test
      (blockAddr size first) last = some (addr, true) := by
  have hmaxlt := netMax.toNat_lt
  have hle : first * size ≤ high * size := Nat.mul_le_mul_right size hfirst
  have hcount : high ≤ high * size := Nat.le_mul_of_pos_right high hpos
  obtain ⟨addr₁, hdown⟩ := searchSubnetDown_eq test hpos hone hlow (by omega) hmin
    (Nat.le_refl searchFuel) last
  rw [subnetOrder, List.find?_append] at hfind
  unfold searchBoth
  rw [hdown]
  cases hfound : ((List.range (first - low + 1)).map fun i =>
      blockAddr size (first - i)).find? test with
  | some a =>
    rw [hfound, Option.some_or] at hfind
    cases hfind
    rfl
  | none =>
    rw [hfound, Option.none_or] at hfind
    dsimp only [searched]
    obtain ⟨fuel, hfuel⟩ : ∃ fuel, searchFuel = high - first + fuel :=
      ⟨searchFuel - (high - first), by unfold searchFuel; omega⟩
    rw [← blockAddr_succ, hfuel, searchSubnetUp_turns test hfirst hmax, hfind]

/-- If there is none, the loops end without success, unless the range ends with the last
address. -/
theorem searchSubnet_none (hpos : 0 < size) (hone : 1 ≤ low) (hlow : low ≤ first)
    (hfirst : first ≤ high) (hmin : netMin.toNat = low * size)
    (hmax : netMax.toNat = high * size) (hend : (high + 1) * size < 2 ^ 32)
    (hfind : (subnetOrder size low first high).find? test = none) :
    ∃ addr, searchBoth searchFuel (netMin ≤ ·) (· ≤ netMax) (UInt32.ofNat size) test
      (blockAddr size first) (0, false) = some (addr, false) := by
  have hle : first * size ≤ high * size := Nat.mul_le_mul_right size hfirst
  have hmaxlt := netMax.toNat_lt
  have hcount : high ≤ high * size := Nat.le_mul_of_pos_right high hpos
  obtain ⟨addr₁, hdown⟩ := searchSubnetDown_eq test hpos hone hlow (by omega) hmin
    (Nat.le_refl searchFuel) (0, false)
  rw [subnetOrder, List.find?_append, Option.or_eq_none_iff] at hfind
  rw [hfind.1] at hdown
  unfold searchBoth
  rw [hdown]
  dsimp only [searched]
  obtain ⟨fuel, hfuel⟩ : ∃ fuel, searchFuel = high - first + (fuel + 1) :=
    ⟨searchFuel - (high - first) - 1, by unfold searchFuel; omega⟩
  rw [← blockAddr_succ, hfuel, searchSubnetUp_turns test hfirst hmax, hfind.2]
  dsimp only
  rw [searchAddr, if_neg]
  · split_ifs <;> exact ⟨_, rfl⟩
  · rw [decide_eq_true_iff, UInt32.le_iff_toNat_le, hmax, blockAddr_toNat hend, Nat.not_le]
    exact Nat.mul_lt_mul_of_pos_right (Nat.lt_succ_self high) hpos

/-- A range that ends with the last address is never left: the loop up does not end without
success. -/
theorem searchSubnet_wraps (hdvd : size ∣ 2 ^ 32) (hmax : netMax.toNat = high * size)
    (hend : (high + 1) * size = 2 ^ 32) (low : UInt32 → Bool) {addr : UInt32}
    (haddr : size ∣ addr.toNat) (last : UInt32 × Bool) (r : UInt32) :
    searchBoth searchFuel low (· ≤ netMax) (UInt32.ofNat size) test addr last ≠
      some (r, false) := by
  have hmore : ∀ a : UInt32, size ∣ a.toNat → decide (a ≤ netMax) = true := by
    rintro a ⟨q, hq⟩
    have hlt := a.toNat_lt
    rw [hq, ← hend, Nat.mul_comm] at hlt
    have hqle : q < high + 1 := Nat.lt_of_mul_lt_mul_right hlt
    rw [decide_eq_true_iff, UInt32.le_iff_toNat_le, hmax, hq, Nat.mul_comm]
    exact Nat.mul_le_mul_right size (by omega)
  unfold searchBoth
  split
  · exact searchAddr_ne_false test hmore (dvd_add_size hdvd) _ (dvd_add_size hdvd addr haddr) _ r
  · next hdown =>
    intro heq
    exact hdown r heq

/-- What the loops find has passed the test, and what holds of all addresses that they come to
holds of this one. -/
theorem searchBoth_found {I : UInt32 → Prop} {increment : UInt32}
    (hsub : ∀ a, I a → I (a - increment)) (hadd : ∀ a, I a → I (a + increment)) {fuel : ℕ}
    {more more' : UInt32 → Bool} {addr r : UInt32} (haddr : I addr)
    (h : searchBoth fuel more more' increment test addr (0, false) = some (r, true)) :
    test r = true ∧ I r := by
  unfold searchBoth at h
  split at h
  · exact searchAddr_found test hadd fuel (hadd addr haddr) rfl h
  · exact searchAddr_found test hsub fuel haddr rfl h

end

/-! ### When a community gets a sub-network -/

theorem PrefixOk.netSize_lt {bitlen : UInt8} (h : PrefixOk bitlen) : netSize bitlen < 2 ^ 32 :=
  Nat.pow_lt_pow_right (by decide) (by have := h.1; omega)

/-- The distance from one sub-network to the next. -/
theorem not_mask_add_one {bitlen : UInt8} (h : PrefixOk bitlen) :
    ~~~ bitlen2mask bitlen + 1 = UInt32.ofNat (netSize bitlen) := by
  have hlt := h.netSize_lt
  have hpos := netSize_pos bitlen
  apply UInt32.toNat_inj.mp
  rw [UInt32.toNat_add, not_mask_toNat h.le, toNat_ofNat hlt, show (1 : UInt32).toNat = 1 from rfl,
    Nat.mod_eq_of_lt (by omega)]
  omega

/-- The proposal is a sub-network of the range. -/
theorem Sn.subnetProposal_eq {sss : Sn} {low high : ℕ}
    (hbitlen : PrefixOk sss.minAutoIpNet.netBitlen) (hle : low ≤ high)
    (hmin : sss.minAutoIpNet.netAddr.toNat = low * netSize sss.minAutoIpNet.netBitlen)
    (hmax : sss.maxAutoIpNet.netAddr.toNat = high * netSize sss.minAutoIpNet.netBitlen)
    (name : CommunityName) :
    ∃ first, low ≤ first ∧ first ≤ high ∧
      sss.subnetProposal name = blockAddr (netSize sss.minAutoIpNet.netBitlen) first := by
  have hbits : (32 - sss.minAutoIpNet.netBitlen.toUInt32).toNat =
      32 - sss.minAutoIpNet.netBitlen.toNat := by
    rw [UInt32.toNat_sub_of_le]
    · rfl
    · rw [UInt32.le_iff_toNat_le]
      exact hbitlen.le
  have hshift : (32 - sss.minAutoIpNet.netBitlen.toNat) % 32 =
      32 - sss.minAutoIpNet.netBitlen.toNat :=
    Nat.mod_eq_of_lt (by have := hbitlen.1; omega)
  have hspan : ((sss.maxAutoIpNet.netAddr - sss.minAutoIpNet.netAddr) >>>
      (32 - sss.minAutoIpNet.netBitlen.toUInt32)).toNat = high - low := by
    have hle' : sss.minAutoIpNet.netAddr ≤ sss.maxAutoIpNet.netAddr := by
      rw [UInt32.le_iff_toNat_le, hmin, hmax]
      exact Nat.mul_le_mul_right _ hle
    rw [UInt32.toNat_shiftRight, UInt32.toNat_sub_of_le _ _ hle', hbits, hshift, hmin, hmax,
      ← Nat.mul_sub_right_distrib, Nat.shiftRight_eq_div_pow]
    exact Nat.mul_div_cancel _ (netSize_pos _)
  have hmaxlt := sss.maxAutoIpNet.netAddr.toNat_lt
  have hfour := hbitlen.four_le
  have hcount : high * 4 ≤ high * netSize sss.minAutoIpNet.netBitlen :=
    Nat.mul_le_mul_left high hfour
  have hone : (1 : UInt32).toNat = 1 := rfl
  unfold Sn.subnetProposal
  dsimp only
  generalize (32 - sss.minAutoIpNet.netBitlen.toUInt32) = shift at hbits hspan ⊢
  generalize hnet : pearsonHash32 name.toList %
    (((sss.maxAutoIpNet.netAddr - sss.minAutoIpNet.netAddr) >>> shift) + 1) = netId
  have hnetlt : netId.toNat < high - low + 1 := by
    have hsum : (((sss.maxAutoIpNet.netAddr - sss.minAutoIpNet.netAddr) >>> shift) + 1).toNat =
        high - low + 1 := by
      rw [UInt32.toNat_add, hspan, hone, Nat.mod_eq_of_lt (by omega)]
    rw [← hnet, UInt32.toNat_mod, hsum]
    exact Nat.mod_lt _ (Nat.succ_pos _)
  have hmul : (low + netId.toNat) * netSize sss.minAutoIpNet.netBitlen ≤
      high * netSize sss.minAutoIpNet.netBitlen := Nat.mul_le_mul_right _ (by omega)
  refine ⟨low + netId.toNat, Nat.le_add_right _ _, by omega, ?_⟩
  apply UInt32.toNat_inj.mp
  rw [Nat.add_mul] at hmul
  rw [blockAddr_toNat (by rw [Nat.add_mul]; omega), UInt32.toNat_add, hmin,
    UInt32.toNat_shiftLeft, hbits, hshift, Nat.shiftLeft_eq, Nat.add_mul]
  show (_ + netId.toNat * netSize _ % _) % _ = _
  rw [Nat.mod_eq_of_lt (by omega), Nat.mod_eq_of_lt (by omega)]

/-- The community has got a sub-network. -/
def Community.HoldsNet (c : Community) : Prop := c.autoIpNet.netBitlen ≠ 0

/-- The sub-network of the range at an address overlaps with none that another community
holds. -/
def Sn.SubnetFree (sss : Sn) (comm : ℕ) (a : UInt32) : Prop :=
  ∀ c, sss.IsOther comm c → c.HoldsNet →
    IpSubnet.Disjoint ⟨a, sss.minAutoIpNet.netBitlen⟩ c.autoIpNet

/-- There is one left. -/
def Sn.SubnetLeft (sss : Sn) (comm : ℕ) : Prop :=
  ∃ a, sss.RangeSubnet a ∧ sss.SubnetFree comm a

/-- What `assign_one_ip_subnet` is to do: it comes to an end, on success with a sub-network of
the range that overlaps with no other, and it fails only if none is left. -/
def Sn.SubnetLaw (sss : Sn) (comm : ℕ) (name : CommunityName) : Prop :=
  ∃ addr found, sss.searchSubnet comm name = some (addr, found) ∧
    if found then sss.RangeSubnet addr ∧ sss.SubnetFree comm addr
    else ∀ a, sss.RangeSubnet a → ¬sss.SubnetFree comm a

theorem Sn.RangeSubnet.netOk {sss : Sn} (h : PrefixOk sss.minAutoIpNet.netBitlen) {a : UInt32}
    (ha : sss.RangeSubnet a) : NetOk ⟨a, sss.minAutoIpNet.netBitlen⟩ :=
  Or.inr ⟨h, ha.2.2⟩

/-- A community without a sub-network stands in the way of all. -/
theorem Community.HoldsNet.of_disjoint {c : Community} (hnet : NetOk c.autoIpNet) {net : IpSubnet}
    (h : net.Disjoint c.autoIpNet) : c.HoldsNet := by
  intro hzero
  rcases hnet with hnone | ⟨hbitlen, -⟩
  · have hcontains : net.Contains net.netAddr := ⟨le_rfl, by
      have := netSize_pos net.netBitlen
      omega⟩
    refine h net.netAddr hcontains ?_
    rw [hnone]
    exact ⟨Nat.zero_le _, by rw [show netSize 0 = 2 ^ 32 from rfl]; exact net.netAddr.toNat_lt⟩
  · rw [hzero] at hbitlen
    exact absurd hbitlen.1 (by decide)

/-- **What passes the test**: a sub-network that is free, if all others have got theirs. -/
theorem Sn.subnetAvailable_range {sss : Sn} (hnets : sss.NetsOk)
    (hbitlen : PrefixOk sss.minAutoIpNet.netBitlen) (comm : ℕ) {a : UInt32}
    (ha : sss.RangeSubnet a) :
    sss.subnetAvailable comm (bitlen2mask sss.minAutoIpNet.netBitlen) a = true ↔
      sss.SubnetFree comm a ∧ ∀ c, sss.IsOther comm c → c.HoldsNet := by
  rw [subnetAvailable_iff hnets (ha.netOk hbitlen)]
  constructor
  · intro hdisjoint
    refine ⟨fun c hc _ => hdisjoint c hc, fun c hc => ?_⟩
    obtain ⟨p, -, hget⟩ := hc.2
    exact Community.HoldsNet.of_disjoint (hnets p c hget) (hdisjoint c hc)
  · rintro ⟨hfree, hheld⟩ c hc
    exact hfree c hc (hheld c hc)

/-- The sub-networks of the range, by number. -/
theorem mem_rangeOrder {sss : Sn} {low first high : ℕ} (hlow : low ≤ first) (hhigh : first ≤ high)
    (hmin : sss.minAutoIpNet.netAddr.toNat = low * netSize sss.minAutoIpNet.netBitlen)
    (hmax : sss.maxAutoIpNet.netAddr.toNat = high * netSize sss.minAutoIpNet.netBitlen)
    (a : UInt32) :
    a ∈ subnetOrder (netSize sss.minAutoIpNet.netBitlen) low first high ↔ sss.RangeSubnet a := by
  have hpos := netSize_pos sss.minAutoIpNet.netBitlen
  have hmaxlt := sss.maxAutoIpNet.netAddr.toNat_lt
  rw [mem_subnetOrder hlow hhigh]
  unfold Sn.RangeSubnet
  rw [UInt32.le_iff_toNat_le, UInt32.le_iff_toNat_le, hmin, hmax]
  constructor
  · rintro ⟨q, hq, hq', rfl⟩
    have hqle := Nat.mul_le_mul_right (netSize sss.minAutoIpNet.netBitlen) hq'
    rw [blockAddr_toNat (by omega)]
    exact ⟨Nat.mul_le_mul_right _ hq, hqle, Nat.dvd_mul_left _ _⟩
  · rintro ⟨hq, hq', q, hdvd⟩
    rw [hdvd, Nat.mul_comm _ q] at hq hq'
    refine ⟨q, Nat.le_of_mul_le_mul_right hq hpos, Nat.le_of_mul_le_mul_right hq' hpos, ?_⟩
    unfold blockAddr
    rw [Nat.mul_comm, ← hdvd, UInt32.ofNat_toNat]

/-- The search in units of a sub-network. -/
theorem Sn.searchSubnet_eq {sss : Sn} (hrange : sss.RangeOk) (comm : ℕ) (name : CommunityName) :
    ∃ low first high, 1 ≤ low ∧ low ≤ first ∧ first ≤ high ∧
      sss.minAutoIpNet.netAddr.toNat = low * netSize sss.minAutoIpNet.netBitlen ∧
      sss.maxAutoIpNet.netAddr.toNat = high * netSize sss.minAutoIpNet.netBitlen ∧
      sss.searchSubnet comm name =
        searchBoth searchFuel (sss.minAutoIpNet.netAddr ≤ ·) (· ≤ sss.maxAutoIpNet.netAddr)
          (UInt32.ofNat (netSize sss.minAutoIpNet.netBitlen))
          (sss.subnetAvailable comm (bitlen2mask sss.minAutoIpNet.netBitlen))
          (blockAddr (netSize sss.minAutoIpNet.netBitlen) first) (0, false) := by
  obtain ⟨hbitlen, low, high, hone, hle, hmin, hmax⟩ := hrange.units
  obtain ⟨first, hlow, hhigh, hproposal⟩ := Sn.subnetProposal_eq hbitlen hle hmin hmax name
  refine ⟨low, first, high, hone, hlow, hhigh, hmin, hmax, ?_⟩
  unfold Sn.searchSubnet
  dsimp only
  rw [hproposal, not_mask_add_one hbitlen]

/-- What the search finds is aligned and has passed the test. -/
theorem Sn.searchSubnet_found {sss : Sn} (hrange : sss.RangeOk) {comm : ℕ} {name : CommunityName}
    {a : UInt32} (h : sss.searchSubnet comm name = some (a, true)) :
    sss.subnetAvailable comm (bitlen2mask sss.minAutoIpNet.netBitlen) a = true ∧
      NetOk ⟨a, sss.minAutoIpNet.netBitlen⟩ := by
  obtain ⟨low, first, high, -, -, hhigh, -, hmax, hsearch⟩ := Sn.searchSubnet_eq hrange comm name
  have hbitlen := hrange.units.1
  have hdvd := netSize_dvd sss.minAutoIpNet.netBitlen
  have hfirst := Nat.mul_le_mul_right (netSize sss.minAutoIpNet.netBitlen) hhigh
  have hmaxlt := sss.maxAutoIpNet.netAddr.toNat_lt
  rw [hsearch] at h
  obtain ⟨htest, hblock⟩ := searchBoth_found _
    (I := fun b => netSize sss.minAutoIpNet.netBitlen ∣ b.toNat)
    (dvd_sub_size hdvd hbitlen.netSize_lt) (dvd_add_size hdvd)
    (by rw [blockAddr_toNat (by omega)]; exact Nat.dvd_mul_left _ _) h
  exact ⟨htest, Or.inr ⟨hbitlen, hblock⟩⟩

/-- **The search**: all sub-networks of the range are tried, in some order; without success it
ends if and only if the range ends before the last address. -/
theorem Sn.searchSubnet_order {sss : Sn} (hrange : sss.RangeOk) (comm : ℕ) (name : CommunityName) :
    ∃ order : List UInt32, (∀ a, a ∈ order ↔ sss.RangeSubnet a) ∧
      match order.find? (sss.subnetAvailable comm (bitlen2mask sss.minAutoIpNet.netBitlen)) with
      | some a => sss.searchSubnet comm name = some (a, true)
      | none =>
        if sss.maxAutoIpNet.netAddr.toNat + netSize sss.minAutoIpNet.netBitlen < 2 ^ 32 then
          ∃ last, sss.searchSubnet comm name = some (last, false)
        else ∀ last, sss.searchSubnet comm name ≠ some (last, false) := by
  obtain ⟨low, first, high, hone, hlow, hhigh, hmin, hmax, hsearch⟩ :=
    Sn.searchSubnet_eq hrange comm name
  have hpos := netSize_pos sss.minAutoIpNet.netBitlen
  refine ⟨_, mem_rangeOrder hlow hhigh hmin hmax, ?_⟩
  rw [hsearch]
  cases hfind : (subnetOrder (netSize sss.minAutoIpNet.netBitlen) low first high).find?
      (sss.subnetAvailable comm (bitlen2mask sss.minAutoIpNet.netBitlen)) with
  | some a => exact searchSubnet_first _ hpos hone hlow hhigh hmin hmax hfind (0, false)
  | none =>
    dsimp only
    rw [hmax]
    split_ifs with hend
    · rw [← Nat.add_one_mul] at hend
      exact searchSubnet_none _ hpos hone hlow hhigh hmin hmax hend hfind
    · have hnet : NetOk ⟨sss.maxAutoIpNet.netAddr, sss.minAutoIpNet.netBitlen⟩ :=
        Or.inr ⟨hrange.units.1, hmax ▸ Nat.dvd_mul_left _ _⟩
      have hreach := hnet.add_le
      dsimp only at hreach
      rw [hmax] at hreach
      rw [← Nat.add_one_mul] at hend hreach
      refine searchSubnet_wraps _ (netSize_dvd _) hmax (by omega) _ ?_ _
      have hfirst := Nat.mul_le_mul_right (netSize sss.minAutoIpNet.netBitlen) hhigh
      have hmaxlt := sss.maxAutoIpNet.netAddr.toNat_lt
      rw [blockAddr_toNat (by omega)]
      exact Nat.dvd_mul_left _ _

/-- **When `assign_one_ip_subnet` keeps to the law**: as long as a sub-network is left, all other
communities must have got theirs; and if none is left, the range must end before the last
address. -/
theorem subnetLaw_iff {sss : Sn} (hrange : sss.RangeOk) (hnets : sss.NetsOk) (comm : ℕ)
    (name : CommunityName) :
    sss.SubnetLaw comm name ↔
      (sss.SubnetLeft comm → ∀ c, sss.IsOther comm c → c.HoldsNet) ∧
      (¬sss.SubnetLeft comm →
        sss.maxAutoIpNet.netAddr.toNat + netSize sss.minAutoIpNet.netBitlen < 2 ^ 32) := by
  obtain ⟨order, hmem, hsearch⟩ := Sn.searchSubnet_order hrange comm name
  have havail := fun a (ha : sss.RangeSubnet a) =>
    Sn.subnetAvailable_range hnets hrange.units.1 comm ha
  unfold Sn.SubnetLaw
  cases hfind : order.find? (sss.subnetAvailable comm (bitlen2mask sss.minAutoIpNet.netBitlen)) with
  | some a =>
    rw [hfind] at hsearch
    have ha := (hmem a).mp (List.mem_of_find?_eq_some hfind)
    obtain ⟨hfree, hheld⟩ := (havail a ha).mp (List.find?_some hfind)
    rw [exists_searched hsearch]
    exact iff_of_true ⟨ha, hfree⟩ ⟨fun _ => hheld, fun hnot => absurd ⟨a, ha, hfree⟩ hnot⟩
  | none =>
    rw [hfind] at hsearch
    have hnone : ∀ a, sss.RangeSubnet a → sss.SubnetFree comm a →
        ¬∀ c, sss.IsOther comm c → c.HoldsNet := fun a ha hfree hheld =>
      List.find?_eq_none.mp hfind a ((hmem a).mpr ha) ((havail a ha).mpr ⟨hfree, hheld⟩)
    dsimp only at hsearch
    by_cases hleft : sss.SubnetLeft comm
    · -- one is left, but some community without a sub-network is in the way
      obtain ⟨a, ha, hfree⟩ := hleft
      refine iff_of_false ?_ fun h => hnone a ha hfree (h.1 ⟨a, ha, hfree⟩)
      rintro ⟨addr, found, heq, hlaw⟩
      cases found with
      | false => exact hlaw a ha hfree
      | true =>
        have hfound := (Sn.searchSubnet_found hrange heq).1
        exact hnone a ha hfree ((havail addr hlaw.1).mp hfound).2
    · split_ifs at hsearch with hend
      · obtain ⟨last, hended⟩ := hsearch
        rw [exists_searched hended]
        exact iff_of_true (fun a ha hfree => hleft ⟨a, ha, hfree⟩)
          ⟨fun h => absurd h hleft, fun _ => hend⟩
      · -- the loop upwards has come to 0.0.0.0
        refine iff_of_false ?_ fun h => hend (h.2 hleft)
        rintro ⟨addr, found, heq, hlaw⟩
        cases found with
        | true => exact hleft ⟨addr, hlaw⟩
        | false => exact hsearch addr heq

/-! ### A range of one sub-network -/

/-- The range 10.128.0.0-10.128.0.0/24, with a community that has the sub-network, or none, and a
new one. -/
def oneSubnetSn (net : IpSubnet) : Sn :=
  { idleSn with
    maxAutoIpNet := ⟨0x0a800000, 24⟩
    communities := (Table.empty.add { Community.zero with autoIpNet := net }).add Community.zero }

theorem oneSubnetSn_range (net : IpSubnet) : (oneSubnetSn net).RangeOk := by
  refine ⟨0x0a800000, 0x0a800000, 24, ?_⟩
  show _ = some ((⟨0x0a800000, 24⟩, ⟨0x0a800000, 24⟩) : IpSubnet × IpSubnet)
  decide +kernel

theorem oneSubnetSn_get? {net : IpSubnet} {p : ℕ} {c : Community}
    (h : (oneSubnetSn net).communities.get? p = some c) :
    p = 0 ∧ c = { Community.zero with autoIpNet := net } ∨ p = 1 ∧ c = Community.zero := by
  have hmem := Table.get?_eq_some.mp h
  rcases List.mem_pair.mp hmem with heq | heq <;> cases heq
  · exact Or.inl ⟨rfl, rfl⟩
  · exact Or.inr ⟨rfl, rfl⟩

theorem oneSubnetSn_nets {net : IpSubnet} (h : NetOk net) : (oneSubnetSn net).NetsOk := by
  intro p c hget
  rcases oneSubnetSn_get? hget with ⟨-, rfl⟩ | ⟨-, rfl⟩
  · exact h
  · exact Or.inl rfl

/-- The only sub-network of the range is in use, and the search fails. -/
theorem subnetLaw_oneSubnet :
    (oneSubnetSn ⟨0x0a800000, 24⟩).SubnetLaw 1 (List.Vector.replicate 20 0) := by
  have hnets : (oneSubnetSn ⟨0x0a800000, 24⟩).NetsOk :=
    oneSubnetSn_nets (Or.inr ⟨by decide, by decide⟩)
  refine (subnetLaw_iff (oneSubnetSn_range _) hnets 1 (List.Vector.replicate 20 0)).mpr
    ⟨fun _ c hc => ?_, fun _ => by decide⟩
  obtain ⟨-, p, hne, hget⟩ := hc
  rcases oneSubnetSn_get? hget with ⟨-, rfl⟩ | ⟨rfl, -⟩
  · exact (by decide : (24 : UInt8) ≠ 0)
  · exact absurd rfl hne

/-- The community that had it has been purged, but one that got none is still there. -/
theorem not_subnetLaw_purged : ¬(oneSubnetSn ⟨0, 0⟩).SubnetLaw 1 (List.Vector.replicate 20 0) := by
  have hnone : ∀ c, (oneSubnetSn ⟨0, 0⟩).IsOther 1 c → ¬c.HoldsNet := by
    rintro c ⟨-, p, hne, hget⟩ hheld
    rcases oneSubnetSn_get? hget with ⟨-, rfl⟩ | ⟨-, rfl⟩ <;> exact hheld rfl
  rintro ⟨addr, found, heq, hlaw⟩
  cases found with
  | false =>
    exact hlaw 0x0a800000 ⟨by decide, by decide, by decide⟩
      fun c hc hheld => absurd hheld (hnone c hc)
  | true =>
    have hother : (oneSubnetSn ⟨0, 0⟩).IsOther 1 { Community.zero with autoIpNet := ⟨0, 0⟩ } :=
      ⟨rfl, 0, by decide, rfl⟩
    have havail := Sn.subnetAvailable_range (oneSubnetSn_nets (Or.inl rfl))
      (oneSubnetSn_range ⟨0, 0⟩).units.1 1 hlaw.1
    have hfound := (Sn.searchSubnet_found (oneSubnetSn_range _) heq).1
    exact hnone _ hother ((havail.mp hfound).2 _ hother)

/-! ### Where sub-networks come from -/

/-- The sub-network of one community changes. -/
theorem Sn.NetsOk.modifyComm {sss : Sn} (h : sss.NetsOk) (p : ℕ) {f : Community → Community}
    (hf : ∀ c, NetOk c.autoIpNet → NetOk (f c).autoIpNet) : (sss.modifyComm p f).NetsOk :=
  Table.All.modify h p fun c hget => hf c (h p c hget)

/-- **The search leaves an aligned sub-network, or none.** -/
theorem Sn.NetsOk.withSubnet {sss : Sn} (h : sss.NetsOk) (hrange : sss.RangeOk) (p : ℕ)
    (name : CommunityName) : (sss.withSubnet p name).NetsOk := by
  refine h.modifyComm p fun _ _ => ?_
  dsimp only
  unfold Sn.assignOneIpSubnet
  cases hsearch : sss.searchSubnet p name with
  | none => exact Or.inl rfl
  | some r =>
    obtain ⟨addr, found⟩ := r
    cases found with
    | true => exact (Sn.searchSubnet_found hrange hsearch).2
    | false => exact Or.inl rfl

/-- A new community has no sub-network at first. -/
theorem Sn.NetsOk.add {sss : Sn} (h : sss.NetsOk) {c : Community} (hc : c.autoIpNet = ⟨0, 0⟩) :
    ({ sss with communities := sss.communities.add c } : Sn).NetsOk :=
  Table.All.add h (Or.inl hc)

/-- **A registration brings up a community.** -/
theorem Sn.NetsOk.addCommunity {sss : Sn} (h : sss.NetsOk) (hrange : sss.RangeOk)
    (cmn : CommunityName) : (sss.addCommunity cmn).NetsOk :=
  Sn.NetsOk.withSubnet (h.add rfl) hrange _ _

/-- **A line of the community file**, with a sub-network that has passed the check. -/
theorem Sn.NetsOk.line {l : Loading} (h : l.sss.NetsOk) (hrange : l.sss.RangeOk)
    {line : CommunityLine}
    (hline : ∀ name net, line = .community name (some net) →
      ∃ a bitlen, communityNet a bitlen = some net) : (l.line line).sss.NetsOk := by
  cases line with
  | community name net =>
    cases net with
    | none => exact Sn.NetsOk.withSubnet (h.add rfl) hrange _ _
    | some net =>
      obtain ⟨a, bitlen, haccepted⟩ := hline name net rfl
      exact Sn.NetsOk.modifyComm (h.add rfl) _ fun _ _ => communityNet_ok haccepted
  | rule rule => exact h
  | user publicKey rule =>
    unfold Loading.line
    dsimp only
    split
    · exact h.modifyComm _ fun c hc => hc
    · exact h

end N2n
