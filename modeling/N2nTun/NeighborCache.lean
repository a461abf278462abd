import Mathlib.Data.List.FinRange
import Mathlib.Data.List.Induction
import N2nTun.Define
import N2nTun.Lib.FifoCache

/-!
# The neighbour cache of the wintun device

A wintun adapter has no Ethernet, so the device learns itself which MAC has which address: from
what is written to it, and for what is read from it.  The entries are an array of fixed size with a
count; when it is full, all entries move down by one.

## Main definitions

* `Neighbor`, `NeighborCache` — the array and its count.
* `neighborLearn`, `neighborLookup` — the two routines.
* `NeighborOp`, `neighborRun` — the calls of the routines, in any order.

## Main results

* `live_put` — the array is a cache that evicts what came in first.
* `neighborCache_run` — **what the cache holds, gives and evicts after any calls.**
-/

namespace N2n

open Bytes

/-! ### The array -/

/-- `N2N_NEIGHBOR_CACHE_SIZE`. -/
def neighborCacheSize : ℕ := 32

/-- An entry of `neighbor_cache`; the address is as it is in the packets. -/
structure Neighbor where
  ip : UInt32
  mac : Mac

/-- `neighbor_cache` and `neighbor_count`. -/
structure NeighborCache where
  entries : Fin neighborCacheSize → Neighbor
  count : ℕ
  count_le : count ≤ neighborCacheSize

namespace NeighborCache

/-- One of the entries that count. -/
def entry (c : NeighborCache) (i : Fin c.count) : Neighbor := c.entries (i.castLE c.count_le)

/-- The loop over the entries: the first one with the address. -/
def find (c : NeighborCache) (ip : UInt32) : Option (Fin c.count) :=
  (List.finRange c.count).find? fun i => (c.entry i).ip = ip

/-- The entry for an address is updated or added; in a full cache all others are shifted first. -/
def put (c : NeighborCache) (srcIp : UInt32) (mac : Mac) : NeighborCache :=
  match c.find srcIp with
  | some i =>
    { c with entries := Function.update c.entries (i.castLE c.count_le) ⟨(c.entry i).ip, mac⟩ }
  | none =>
    if h : c.count < neighborCacheSize then
      { entries := Function.update c.entries ⟨c.count, h⟩ ⟨srcIp, mac⟩
        count := c.count + 1
        count_le := h }
    else
      let shifted : Fin neighborCacheSize → Neighbor := fun i =>
        if h : i + 1 < neighborCacheSize then c.entries ⟨i + 1, h⟩ else c.entries i
      { c with entries := Function.update shifted ⟨neighborCacheSize - 1, by decide⟩ ⟨srcIp, mac⟩ }

/-- `neighbor_count` is zero when the device is opened. -/
def empty (entries : Fin neighborCacheSize → Neighbor) : NeighborCache :=
  ⟨entries, 0, Nat.zero_le _⟩

end NeighborCache

/-- `neighbor_learn` on a device with the address `ipAddr`: `ipPkt` is what follows the Ethernet
header. -/
def neighborLearn (ipAddr : UInt32) (c : NeighborCache) (ethSrcMac : Mac) (ipPkt : List UInt8) :
    NeighborCache :=
  if ipPkt.length < 20 then c
  else if ipPkt.getD 0 0 >>> 4 ≠ 4 then c
  else
    let srcIp := le32At ipPkt 12
    if srcIp = 0 then c
    else if srcIp = ipAddr then c
    else c.put srcIp ethSrcMac

/-- `neighbor_lookup`: the MAC, if it returns `TRUE`. -/
def neighborLookup (c : NeighborCache) (ip : UInt32) : Option Mac :=
  if ip = 0 then none else (c.find ip).map fun i => (c.entry i).mac

/-! ### The cache as a list -/

namespace NeighborCache

/-- The entries that count. -/
def live (c : NeighborCache) : List (UInt32 × Mac) :=
  List.ofFn fun i => ((c.entry i).ip, (c.entry i).mac)

/-- The addresses in the cache. -/
def ips (c : NeighborCache) : List UInt32 := c.live.map Prod.fst

@[simp] theorem length_live (c : NeighborCache) : c.live.length = c.count := List.length_ofFn

theorem getElem_live (c : NeighborCache) {i : ℕ} (h : i < c.live.length) :
    c.live[i] = ((c.entry ⟨i, c.length_live ▸ h⟩).ip, (c.entry ⟨i, c.length_live ▸ h⟩).mac) :=
  List.getElem_ofFn h

theorem mem_ips {c : NeighborCache} {ip : UInt32} : ip ∈ c.ips ↔ ∃ i, (c.entry i).ip = ip := by
  simp [ips, live, List.mem_ofFn]

/-- The loop finds an entry with the address. -/
theorem find_eq_some {c : NeighborCache} {ip : UInt32} {i : Fin c.count} (h : c.find ip = some i) :
    (c.entry i).ip = ip := by
  simpa using List.find?_some h

theorem find_eq_none {c : NeighborCache} {ip : UInt32} : c.find ip = none ↔ ip ∉ c.ips := by
  simp [find, mem_ips, List.find?_eq_none]

/-- Where the addresses differ, an address is found in one place only. -/
theorem entry_injective {c : NeighborCache} (h : c.ips.Nodup) :
    Function.Injective fun i => (c.entry i).ip := by
  have hofFn : c.ips = List.ofFn fun i => (c.entry i).ip := by
    simp [ips, live, List.map_ofFn, Function.comp_def]
  exact List.nodup_ofFn.mp (hofFn ▸ h)

theorem live_update {c : NeighborCache} (h : c.ips.Nodup) {srcIp : UInt32} {i : Fin c.count}
    (hip : (c.entry i).ip = srcIp) (mac : Mac) :
    ({ c with entries := Function.update c.entries (i.castLE c.count_le) ⟨(c.entry i).ip, mac⟩ } :
      NeighborCache).live = FifoCache.replace srcIp mac c.live := by
  refine List.ext_getElem (by simp) fun j hj hj' => ?_
  simp only [FifoCache.replace, List.getElem_map, getElem_live]
  have hlt : j < c.count := c.length_live ▸ (FifoCache.length_replace srcIp mac c.live ▸ hj')
  by_cases hji : (⟨j, hlt⟩ : Fin c.count) = i
  · subst hji
    rw [if_pos hip]
    simp only [entry, Function.update_self]
    exact Prod.ext hip rfl
  · have hne : (c.entry ⟨j, hlt⟩).ip ≠ srcIp := fun heq =>
      hji (entry_injective h (heq.trans hip.symm))
    have hcast : (⟨j, hlt⟩ : Fin c.count).castLE c.count_le ≠ i.castLE c.count_le :=
      fun heq => hji (Fin.castLE_injective _ heq)
    rw [if_neg hne]
    simp only [entry, Function.update_of_ne hcast]

theorem live_append (c : NeighborCache) (srcIp : UInt32) (mac : Mac)
    (h : c.count < neighborCacheSize) :
    (⟨Function.update c.entries ⟨c.count, h⟩ ⟨srcIp, mac⟩, c.count + 1, h⟩ : NeighborCache).live =
      c.live ++ [(srcIp, mac)] := by
  refine List.ext_getElem (by simp) fun j hj hj' => ?_
  have hle : j < c.count + 1 := by simpa using hj
  rw [getElem_live]
  rcases Nat.lt_succ_iff_lt_or_eq.mp hle with hlt | rfl
  · have hne : (⟨j, hlt.trans h⟩ : Fin neighborCacheSize) ≠ ⟨c.count, h⟩ :=
      fun heq => hlt.ne (Fin.mk.inj heq)
    rw [List.getElem_append_left (by simpa using hlt), getElem_live]
    simp only [entry, Fin.castLE_mk, Function.update_of_ne hne]
  · rw [List.getElem_append_right (by simp)]
    simp [entry]

theorem live_shift (c : NeighborCache) (srcIp : UInt32) (mac : Mac)
    (h : ¬ c.count < neighborCacheSize) :
    ({ c with
        entries := Function.update
          (fun i => if h : i.val + 1 < neighborCacheSize then c.entries ⟨i + 1, h⟩ else c.entries i)
          ⟨neighborCacheSize - 1, by decide⟩ ⟨srcIp, mac⟩ } : NeighborCache).live =
      c.live.tail ++ [(srcIp, mac)] := by
  have hcount : c.count = neighborCacheSize := le_antisymm c.count_le (not_lt.mp h)
  refine List.ext_getElem (by simp [hcount, neighborCacheSize]) fun j hj hj' => ?_
  have hlt : j < neighborCacheSize := by simpa [hcount] using hj
  rw [getElem_live]
  by_cases hlast : j + 1 < neighborCacheSize
  · have hne : (⟨j, hlt⟩ : Fin neighborCacheSize) ≠ ⟨neighborCacheSize - 1, by decide⟩ :=
      fun heq => (Nat.lt_sub_of_add_lt hlast).ne (Fin.mk.inj heq)
    have hlen : j < c.live.tail.length := by
      rw [List.length_tail, length_live, hcount]
      exact Nat.lt_sub_of_add_lt hlast
    rw [List.getElem_append_left hlen, List.getElem_tail, getElem_live]
    simp only [entry, Fin.castLE_mk, Function.update_of_ne hne, dif_pos hlast]
  · obtain rfl : j = neighborCacheSize - 1 := by omega
    rw [List.getElem_append_right (by simp [hcount])]
    simp [entry]

/-- **The array is a cache that evicts what came in first.** -/
theorem live_put {c : NeighborCache} (h : c.ips.Nodup) (srcIp : UInt32) (mac : Mac) :
    (c.put srcIp mac).live = FifoCache.learn neighborCacheSize srcIp mac c.live := by
  unfold put FifoCache.learn
  split
  · next i hfind =>
    have hip := find_eq_some hfind
    have hmem : srcIp ∈ c.live.map Prod.fst := mem_ips.mpr ⟨i, hip⟩
    rw [if_pos hmem, live_update h hip]
  · next hfind =>
    have hmem : srcIp ∉ c.live.map Prod.fst := find_eq_none.mp hfind
    rw [if_neg hmem, length_live]
    split_ifs with hroom
    · exact live_append c srcIp mac hroom
    · exact live_shift c srcIp mac hroom

end NeighborCache

/-! ### Calls in any order -/

/-- A call of one of the two routines. -/
inductive NeighborOp where
  | learn (ethSrcMac : Mac) (ipPkt : List UInt8)
  | lookup (ip : UInt32)

/-- What a call does to the cache. -/
def neighborStep (ipAddr : UInt32) (c : NeighborCache) : NeighborOp → NeighborCache
  | .learn ethSrcMac ipPkt => neighborLearn ipAddr c ethSrcMac ipPkt
  | .lookup _ => c

/-- What calls do to the cache. -/
def neighborRun (ipAddr : UInt32) (c : NeighborCache) (ops : List NeighborOp) : NeighborCache :=
  ops.foldl (neighborStep ipAddr) c

/-- What is learned from a call. -/
def NeighborOp.learned (ipAddr : UInt32) : NeighborOp → Option (UInt32 × Mac)
  | .learn ethSrcMac ipPkt =>
    if 20 ≤ ipPkt.length ∧ ipPkt.getD 0 0 >>> 4 = 4 ∧ le32At ipPkt 12 ≠ 0 ∧
        le32At ipPkt 12 ≠ ipAddr then
      some (le32At ipPkt 12, ethSrcMac)
    else none
  | .lookup _ => none

/-- The MAC that was learned last for an address. -/
def lastLearned (ipAddr ip : UInt32) (ops : List NeighborOp) : Option Mac :=
  ((ops.filterMap (·.learned ipAddr)).reverse.find? fun e => e.1 = ip).map Prod.snd

/-- The addresses in the cache after the first calls. -/
def ipsAt (ipAddr : UInt32) (c : NeighborCache) (ops : List NeighborOp) (j : ℕ) : List UInt32 :=
  (neighborRun ipAddr c (ops.take j)).ips

theorem neighborStep_of_learned {ipAddr ip : UInt32} {mac : Mac} {op : NeighborOp}
    (h : op.learned ipAddr = some (ip, mac)) (c : NeighborCache) :
    neighborStep ipAddr c op = c.put ip mac ∧ ip ≠ 0 ∧ ip ≠ ipAddr := by
  cases op with
  | lookup => cases h
  | learn ethSrcMac ipPkt =>
    rw [NeighborOp.learned] at h
    split_ifs at h with hchecks
    obtain ⟨hlen, hversion, hzero, hown⟩ := hchecks
    cases h
    refine ⟨?_, hzero, hown⟩
    simp only [neighborStep, neighborLearn, if_neg (not_lt.mpr hlen), not_not.mpr hversion,
      if_neg hzero, if_neg hown, if_false]

theorem neighborStep_of_none {ipAddr : UInt32} {op : NeighborOp} (h : op.learned ipAddr = none)
    (c : NeighborCache) : neighborStep ipAddr c op = c := by
  cases op with
  | lookup => rfl
  | learn ethSrcMac ipPkt =>
    simp only [NeighborOp.learned, ite_eq_right_iff, reduceCtorEq, imp_false, not_and] at h
    simp only [neighborStep, neighborLearn]
    split_ifs with hlen hversion hzero hown
    · rfl
    · rfl
    · rfl
    · rfl
    · exact absurd hown (h (not_lt.mp hlen) (not_not.mp hversion) hzero)

theorem neighborRun_concat (ipAddr : UInt32) (c : NeighborCache) (ops : List NeighborOp)
    (op : NeighborOp) :
    neighborRun ipAddr c (ops ++ [op]) = neighborStep ipAddr (neighborRun ipAddr c ops) op :=
  List.foldl_concat _ _ _ _

/-- The cache agrees with the calls made so far. -/
structure NeighborCache.Agrees (ipAddr : UInt32) (ops : List NeighborOp) (c : NeighborCache) :
    Prop where
  nodup : c.ips.Nodup
  proper : ∀ ip ∈ c.ips, ip ≠ 0 ∧ ip ≠ ipAddr
  latest : ∀ ip mac, (ip, mac) ∈ c.live → lastLearned ipAddr ip ops = some mac

theorem lastLearned_concat {ipAddr ip' : UInt32} {mac : Mac} {op : NeighborOp}
    (h : op.learned ipAddr = some (ip', mac)) (ip : UInt32) (ops : List NeighborOp) :
    lastLearned ipAddr ip (ops ++ [op]) =
      if ip' = ip then some mac else lastLearned ipAddr ip ops := by
  unfold lastLearned
  rw [List.filterMap_append, List.filterMap_cons_some h, List.filterMap_nil, List.reverse_append,
    List.reverse_singleton, List.singleton_append, List.find?_cons]
  by_cases hip : ip' = ip
  · simp [hip]
  · simp [hip]

theorem lastLearned_concat_none {ipAddr : UInt32} {op : NeighborOp}
    (h : op.learned ipAddr = none) (ip : UInt32) (ops : List NeighborOp) :
    lastLearned ipAddr ip (ops ++ [op]) = lastLearned ipAddr ip ops := by
  rw [lastLearned, List.filterMap_append, List.filterMap_cons_none h, List.filterMap_nil,
    List.append_nil, lastLearned]

namespace NeighborCache

variable {ipAddr : UInt32} {ops : List NeighborOp} {c : NeighborCache}

/-- One call keeps the agreement. -/
theorem Agrees.step (h : c.Agrees ipAddr ops) (op : NeighborOp) :
    (neighborStep ipAddr c op).Agrees ipAddr (ops ++ [op]) := by
  cases hop : op.learned ipAddr with
  | none =>
    rw [neighborStep_of_none hop]
    refine ⟨h.nodup, h.proper, fun ip mac hmem => ?_⟩
    rw [lastLearned_concat_none hop]
    exact h.latest ip mac hmem
  | some learned =>
    obtain ⟨srcIp, srcMac⟩ := learned
    obtain ⟨hstep, hzero, hown⟩ := neighborStep_of_learned hop c
    have hlive := live_put h.nodup srcIp srcMac
    rw [hstep]
    have hold : ∀ {ip mac}, (ip, mac) ∈ (c.put srcIp srcMac).live →
        ip = srcIp ∧ mac = srcMac ∨ ip ≠ srcIp ∧ (ip, mac) ∈ c.live :=
      fun hmem => FifoCache.mem_learn (hlive ▸ hmem)
    refine ⟨?_, fun ip hip => ?_, fun ip mac hmem => ?_⟩
    · rw [ips, hlive]
      exact (FifoCache.shifts_learn _ _ _ _).nodup h.nodup
    · obtain ⟨⟨ip, mac⟩, hmem, rfl⟩ := List.mem_map.mp hip
      rcases hold hmem with ⟨rfl, -⟩ | ⟨-, hmem⟩
      · exact ⟨hzero, hown⟩
      · exact h.proper ip (List.mem_map.mpr ⟨_, hmem, rfl⟩)
    · rw [lastLearned_concat hop]
      rcases hold hmem with ⟨rfl, rfl⟩ | ⟨hne, hmem⟩
      · exact if_pos rfl
      · rw [if_neg (Ne.symm hne)]
        exact h.latest ip mac hmem

/-- The agreement holds after any calls. -/
theorem agrees_run (ipAddr : UInt32) (entries : Fin neighborCacheSize → Neighbor)
    (ops : List NeighborOp) : (neighborRun ipAddr (empty entries) ops).Agrees ipAddr ops := by
  induction ops using List.reverseRecOn with
  | nil =>
    have hips : (neighborRun ipAddr (empty entries) []).live = [] := rfl
    refine ⟨?_, ?_, ?_⟩
    · rw [ips, hips]
      exact List.nodup_nil
    · rw [ips, hips]
      exact fun _ h => absurd h List.not_mem_nil
    · rw [hips]
      exact fun _ _ h => absurd h List.not_mem_nil
  | append_singleton ops op ih =>
    rw [neighborRun_concat]
    exact ih.step op

/-- The addresses move as they do in a cache that evicts what came in first. -/
theorem Agrees.shifts (h : c.Agrees ipAddr ops) (op : NeighborOp) :
    FifoCache.Shifts c.ips (neighborStep ipAddr c op).ips := by
  cases hop : op.learned ipAddr with
  | none =>
    rw [neighborStep_of_none hop]
    exact .stays _
  | some learned =>
    obtain ⟨srcIp, srcMac⟩ := learned
    rw [(neighborStep_of_learned hop c).1, ips, ips, live_put h.nodup]
    exact FifoCache.shifts_learn _ _ _ _

/-- What is looked up in a cache that agrees with the calls. -/
theorem Agrees.lookup (h : c.Agrees ipAddr ops) (ip : UInt32) :
    neighborLookup c ip = if ip ∈ c.ips then lastLearned ipAddr ip ops else none := by
  unfold neighborLookup
  cases hfind : c.find ip with
  | none =>
    rw [if_neg (find_eq_none.mp hfind), Option.map_none, ite_self]
  | some i =>
    have hip := find_eq_some hfind
    have hmem : ip ∈ c.ips := mem_ips.mpr ⟨i, hip⟩
    have hlive : (ip, (c.entry i).mac) ∈ c.live := List.mem_ofFn.mpr ⟨i, Prod.ext hip rfl⟩
    rw [if_pos hmem, if_neg (h.proper ip hmem).1, Option.map_some, h.latest ip _ hlive]

/-- The addresses stand in the order in which they came in. -/
theorem inOrder (ipAddr : UInt32) (entries : Fin neighborCacheSize → Neighbor)
    (ops : List NeighborOp) :
    FifoCache.InOrder (ipsAt ipAddr (empty entries) ops) ops.length
      (neighborRun ipAddr (empty entries) ops).ips := by
  have hlast : ipsAt ipAddr (empty entries) ops ops.length =
      (neighborRun ipAddr (empty entries) ops).ips := by rw [ipsAt, List.take_length]
  rw [← hlast]
  refine FifoCache.exists_arrivals rfl fun j hj => ?_
  have htake : ops.take (j + 1) = ops.take j ++ [ops[j]] := List.take_succ_eq_append_getElem hj
  rw [ipsAt, ipsAt, htake, neighborRun_concat]
  exact (agrees_run ipAddr entries _).shifts _

end NeighborCache

/-! ### The history of the cache -/

/-- The address comes in with the step from `t` on for the first time of all, whatever happens to it
later. -/
def FirstArrived (keysAt : ℕ → List UInt32) (_ : ℕ) (ip : UInt32) (t : ℕ) : Prop :=
  ip ∈ keysAt (t + 1) ∧ ∀ j, j ≤ t → ip ∉ keysAt j

/-- Of the addresses, the one that came in before all others goes, and `ip` comes. -/
def EvictsOldest (cameIn : UInt32 → ℕ → Prop) (ips ips' : List UInt32) (ip : UInt32) : Prop :=
  ∃ oldest ∈ ips, (∃ t, cameIn oldest t ∧ ∀ other ∈ ips, other ≠ oldest →
      ∀ t', cameIn other t' → t < t') ∧
    ∀ x, x ∈ ips' ↔ x = ip ∨ x ∈ ips ∧ x ≠ oldest

/-- What is to hold after calls of the routines; `cameIn` says what it means in a history that an
address came in with a step. -/
structure NeighborCacheMeets
    (cameIn : (ℕ → List UInt32) → ℕ → UInt32 → ℕ → Prop) (ipAddr : UInt32)
    (c : NeighborCache) (ops : List NeighborOp) : Prop where
  bounded : (neighborRun ipAddr c ops).count ≤ neighborCacheSize
  distinct : (neighborRun ipAddr c ops).ips.Nodup
  proper : ∀ ip ∈ (neighborRun ipAddr c ops).ips, ip ≠ 0 ∧ ip ≠ ipAddr
  latest : ∀ ip ∈ (neighborRun ipAddr c ops).ips, ∃ mac, lastLearned ipAddr ip ops = some mac ∧
    neighborLookup (neighborRun ipAddr c ops) ip = some mac
  absent : ∀ ip, ip ∉ (neighborRun ipAddr c ops).ips →
    neighborLookup (neighborRun ipAddr c ops) ip = none
  evicts : ∀ op ip mac, op.learned ipAddr = some (ip, mac) →
    ip ∉ (neighborRun ipAddr c ops).ips → (neighborRun ipAddr c ops).count = neighborCacheSize →
    EvictsOldest (cameIn (ipsAt ipAddr c ops) ops.length) (neighborRun ipAddr c ops).ips
      (neighborRun ipAddr c (ops ++ [op])).ips ip

/-- A new address in a full cache evicts the one that has been there longest. -/
theorem evictsOldest_run (ipAddr : UInt32) (entries : Fin neighborCacheSize → Neighbor)
    (ops : List NeighborOp) {op : NeighborOp} {ip : UInt32} {mac : Mac}
    (hop : op.learned ipAddr = some (ip, mac))
    (hnew : ip ∉ (neighborRun ipAddr (.empty entries) ops).ips)
    (hfull : (neighborRun ipAddr (.empty entries) ops).count = neighborCacheSize) :
    EvictsOldest (FifoCache.Arrived (ipsAt ipAddr (.empty entries) ops) ops.length)
      (neighborRun ipAddr (.empty entries) ops).ips
      (neighborRun ipAddr (.empty entries) (ops ++ [op])).ips ip := by
  have horder := NeighborCache.inOrder ipAddr entries ops
  have hnodup := (NeighborCache.agrees_run ipAddr entries ops).nodup
  rw [neighborRun_concat, (neighborStep_of_learned hop _).1]
  generalize neighborRun ipAddr (.empty entries) ops = c at *
  have hput : (c.put ip mac).ips = c.ips.tail ++ [ip] := by
    have hmem : ip ∉ c.live.map Prod.fst := hnew
    rw [NeighborCache.ips, NeighborCache.live_put hnodup, FifoCache.learn, if_neg hmem,
      NeighborCache.length_live, if_neg (by omega), List.map_append, List.map_tail]
    rfl
  have hlen : c.ips.length = neighborCacheSize := by
    rw [NeighborCache.ips, List.length_map, NeighborCache.length_live, hfull]
  rw [hput]
  cases hips : c.ips with
  | nil => exact absurd (hips ▸ hlen) (by decide)
  | cons oldest rest =>
    rw [hips] at horder hnodup
    obtain ⟨t, ht⟩ := horder.1 oldest List.mem_cons_self
    refine ⟨oldest, List.mem_cons_self, ⟨t, ht, fun other hother hne t' ht' => ?_⟩, fun x => ?_⟩
    · exact horder.head_lt (List.mem_of_ne_of_mem hne hother) ht ht'
    · have hfront : oldest ∉ rest := (List.nodup_cons.mp hnodup).1
      have hne : x ∈ rest → x ≠ oldest := fun hx heq => hfront (heq ▸ hx)
      simp only [List.tail_cons, List.mem_append, List.mem_cons]
      tauto

/-- **After any calls of the two routines**, the cache holds at most so many different addresses,
none of them null or the device's own; an address that is there is looked up with the MAC that was
learned last; and a new address in a full cache evicts exactly the one that has been there
longest. -/
theorem neighborCache_run (ipAddr : UInt32) (entries : Fin neighborCacheSize → Neighbor)
    (ops : List NeighborOp) :
    NeighborCacheMeets FifoCache.Arrived ipAddr (.empty entries) ops := by
  have hagrees := NeighborCache.agrees_run ipAddr entries ops
  refine ⟨NeighborCache.count_le _, hagrees.nodup, hagrees.proper, fun ip hip => ?_,
    fun ip hip => ?_, fun op ip mac hop hnew hfull => ?_⟩
  · obtain ⟨⟨ip, mac⟩, hmem, rfl⟩ := List.mem_map.mp hip
    have hlatest := hagrees.latest ip mac hmem
    exact ⟨mac, hlatest, (hagrees.lookup ip).trans ((if_pos hip).trans hlatest)⟩
  · rw [hagrees.lookup, if_neg hip]
  · exact evictsOldest_run ipAddr entries ops hop hnew hfull

/-- A packet from an address. -/
def packetFrom (ip : UInt32) : List UInt8 :=
  0x45 :: (List.replicate 11 0 ++ leBytes32 ip ++ List.replicate 4 0)

/-- A call for a packet from an address. -/
def learnFrom (ip : UInt32) : NeighborOp := .learn nullMac (packetFrom ip)

/-- The address 1 comes in first of all, goes, and comes again; after that, an address that came in
between goes before it. -/
theorem not_neighborCacheMeets_again :
    ¬ NeighborCacheMeets FirstArrived 0xffffffff (.empty fun _ => ⟨0, nullMac⟩)
      (((List.range 33).map fun i => learnFrom (UInt32.ofNat (i + 1))) ++ [learnFrom 1]) := by
  intro h
  obtain ⟨oldest, -, ⟨t, ht, hfirst⟩, hgone⟩ :=
    h.evicts (learnFrom 34) 34 nullMac (by decide +kernel) (by decide +kernel) (by decide +kernel)
  have hzero : FirstArrived (ipsAt 0xffffffff (.empty fun _ => ⟨0, nullMac⟩)
      (((List.range 33).map fun i => learnFrom (UInt32.ofNat (i + 1))) ++ [learnFrom 1])) 34 1 0 :=
    ⟨by decide +kernel, by decide +kernel⟩
  have hone : (1 : UInt32) = oldest := by
    by_contra hne
    exact absurd (hfirst 1 (by decide +kernel) hne 0 hzero) (Nat.not_lt_zero t)
  exact ((hgone 1).mp (by decide +kernel)).elim (by decide) fun hkept => hkept.2 hone

end N2n
