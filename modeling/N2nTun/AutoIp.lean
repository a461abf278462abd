import N2nTun.SnState

/-!
# Automatic addresses

How a supernode finds a sub-network for a new community and an address for an edge that
asks for one.  Addresses are in host order, and all sums are taken in 32 bits, so that the
searches need a bound: `none` stands for one that has not come to an end after `2 ^ 32`
steps.

## Main definitions

* `assignOneIpSubnet` — the sub-network of a community.
* `assignOneIpAddr` — the address of an edge; it sorts the table of edges.
-/

namespace N2n

/-- `bitlen2mask`; from 33 bits on the shift has no meaning, and the mask is left alone. -/
def bitlen2mask (bitlen : UInt8) : UInt32 :=
  (List.range bitlen.toNat).foldl
    (fun mask i => if i < 32 then mask ||| (1 <<< (31 - UInt32.ofNat i)) else mask) 0

/-- `mask2bitlen`. -/
def mask2bitlen (mask : UInt32) : UInt8 :=
  UInt8.ofNat ((List.range 32).takeWhile
    fun i => (mask <<< UInt32.ofNat i) &&& 0x80000000 != 0).length

/-- The number of steps after which a search has seen every address. -/
def searchFuel : ℕ := 2 ^ 32

/-- A `for` loop over addresses whose body tests the address and ends in `break` if it
passes: the last address tested, and whether it passed.  What these are before the first
test is given. -/
def searchAddr (more : UInt32 → Bool) (next : UInt32 → UInt32) (test : UInt32 → Bool) :
    ℕ → UInt32 → UInt32 × Bool → Option (UInt32 × Bool)
  | 0, _, _ => none
  | fuel + 1, addr, last =>
    if more addr then
      if test addr then some (addr, true)
      else searchAddr more next test fuel (next addr) (addr, false)
    else some last

/-- A loop down from `addr`, and if it ends without success one up from the address behind it. -/
def searchBoth (fuel : ℕ) (low high : UInt32 → Bool) (increment : UInt32) (test : UInt32 → Bool)
    (addr : UInt32) (last : UInt32 × Bool) : Option (UInt32 × Bool) :=
  match searchAddr low (· - increment) test fuel addr last with
  | some (last, false) => searchAddr high (· + increment) test fuel (addr + increment) (last, false)
  | r => r

/-! ### Sub-networks -/

/-- `subnet_available`. -/
def Sn.subnetAvailable (sss : Sn) (comm : ℕ) (mask netId : UInt32) : Bool :=
  ((sss.communities.del comm).first? fun c => c.isFederation == false &&
    (netId ≤ c.autoIpNet.netAddr + ~~~ bitlen2mask c.autoIpNet.netBitlen &&
      c.autoIpNet.netAddr ≤ netId + ~~~ mask)).isNone

/-- The sub-network that `assign_one_ip_subnet` tries first. -/
def Sn.subnetProposal (sss : Sn) (name : CommunityName) : UInt32 :=
  let shift := 32 - sss.minAutoIpNet.netBitlen.toUInt32
  let noSubnets := ((sss.maxAutoIpNet.netAddr - sss.minAutoIpNet.netAddr) >>> shift) + 1
  let netId := pearsonHash32 name.toList % noSubnets
  sss.minAutoIpNet.netAddr + (netId <<< shift)

/-- The loops of `assign_one_ip_subnet`: from the proposal downwards, and then upwards. -/
def Sn.searchSubnet (sss : Sn) (comm : ℕ) (name : CommunityName) : Option (UInt32 × Bool) :=
  let mask := bitlen2mask sss.minAutoIpNet.netBitlen
  searchBoth searchFuel (sss.minAutoIpNet.netAddr ≤ ·) (· ≤ sss.maxAutoIpNet.netAddr)
    (~~~ mask + 1) (sss.subnetAvailable comm mask) (sss.subnetProposal name) (0, false)

/-- `assign_one_ip_subnet` for the community at `comm`: the sub-network it gets, which is
0/0 if none is left. -/
def Sn.assignOneIpSubnet (sss : Sn) (comm : ℕ) (name : CommunityName) : Option IpSubnet :=
  (sss.searchSubnet comm name).map fun r =>
    if r.2 then ⟨r.1, sss.minAutoIpNet.netBitlen⟩ else ⟨0, 0⟩

/-! ### Addresses -/

/-- `ip_addr_available`: the scan stops at the first larger address. -/
def ipAddrAvailable (edges : Table PeerInfo) (netAddr : UInt32) : Bool :=
  match edges.first? fun peer => netAddr ≤ peer.devAddr.netAddr with
  | some (_, peer) => peer.devAddr.netAddr != netAddr
  | none => true

/-- The part of an address that `peer_tap_ip_sort` compares. -/
def PeerInfo.hostId (peer : PeerInfo) : UInt32 :=
  peer.devAddr.netAddr &&& ~~~ bitlen2mask peer.devAddr.netBitlen

/-- `peer_tap_ip_sort(a, b) <= 0`. -/
def peerTapIpLe (a b : PeerInfo) : Bool := a.hostId.toInt32 - b.hostId.toInt32 ≤ 0

/-- The address that `assign_one_ip_addr` tries first. -/
def addrProposal (autoIpNet : IpSubnet) (devDesc : Desc) : UInt32 :=
  let mask := bitlen2mask autoIpNet.netBitlen
  let netId := autoIpNet.netAddr &&& mask
  let maxHost := ~~~ mask
  let tmp := pearsonHash32 devDesc.toList &&& maxHost
  let tmp := if tmp = 0 then tmp + 1 else tmp
  let tmp := if tmp = maxHost then tmp - 1 else tmp
  tmp ||| netId

/-- The loops of `assign_one_ip_addr` on the sorted table: the address it leaves, and whether
it is free.  `success` is what the variable of this name holds at first. -/
def searchIpAddr (edges : Table PeerInfo) (autoIpNet : IpSubnet) (devDesc : Desc)
    (success : Bool) : Option (UInt32 × Bool) :=
  let mask := bitlen2mask autoIpNet.netBitlen
  let netId := autoIpNet.netAddr &&& mask
  searchBoth searchFuel (netId < ·) (· < netId + ~~~ mask) 1 (ipAddrAvailable edges)
    (addrProposal autoIpNet devDesc) (0, success)

/-- `assign_one_ip_addr` on the sorted table: the address it leaves, also if none is
free. -/
def assignOneIpAddr (edges : Table PeerInfo) (autoIpNet : IpSubnet) (devDesc : Desc)
    (success : Bool) : Option IpSubnet :=
  (searchIpAddr edges autoIpNet devDesc success).map fun r => ⟨r.1, autoIpNet.netBitlen⟩

end N2n
