import N2nTun.FilterPacket
import N2nTun.Lib.Walk

/-!
# The cache of the traffic filter

The verdict on a packet is kept with the addresses, ports and protocol it was found for. Every
ten thousand packets the entries that were hit less than ten times are freed. This happens inside
the lookup, after the entry for the packet has been found or made, and the caller then reads the
entry.

## Main definitions

* `TrafficFilter`, `TrafficFilter.filterPacket` — the filter, and its verdict on a packet; there
  is none where the entry has been freed.
* `uncachedVerdict` — the verdict of the rules alone.
* `FilterLaw` — the two are the same, and the entry is still there.
* `TrafficFilter.Survives` — the entry for the packet outlives the lookup.
* `CacheOk` — the entries agree with the rules, and none was hit more often than packets came.

## Main results

* `filterLaw_iff` — one packet.
* `filterRun_lawful_iff` — **the law holds along a run exactly when all entries survive.**
-/

namespace N2n

/-! ### The cache -/

/-- `filter_rule_pair_cache_t`. -/
structure FilterRulePairCache where
  key : PacketInfo
  boolAllowTraffic : Bool
  activeCount : UInt32
  deriving DecidableEq

/-- `network_traffic_filter_t`. -/
structure TrafficFilter where
  rules : List FilterRule
  connectionsRuleCache : Table FilterRulePairCache
  workCountSceneLastClear : UInt32

/-- `n2n_verdict`. -/
inductive Verdict where
  | accept
  | drop
  deriving DecidableEq

/-- `CLEAR_CACHE_EVERY_X_COUNT`. -/
def clearCacheEveryXCount : UInt32 := 10000

/-- `CLAER_CACHE_ACTIVE_COUNT`. -/
def clearCacheActiveCount : UInt32 := 10

/-- The flag of the rule for a protocol, where it has one. -/
def FilterRule.accepts (r : FilterRule) : FilterPacketProto → Option Bool
  | .icmp => some r.boolAcceptIcmp
  | .udp => some r.boolAcceptUdp
  | .tcp => some r.boolAcceptTcp
  | _ => none

/-- The body of the clean-up: an entry that was hit too seldom is freed. -/
def clearEntry (cache : Table FilterRulePairCache) (q : ℕ) (item : FilterRulePairCache) :
    Table FilterRulePairCache :=
  if item.activeCount < clearCacheActiveCount then cache.del q
  else cache.modify q fun item => { item with activeCount := 0 }

/-- `update_and_clear_cache_if_need`. -/
def TrafficFilter.updateAndClearCacheIfNeed (filter : TrafficFilter) : TrafficFilter :=
  let workCount := filter.workCountSceneLastClear + 1
  if clearCacheEveryXCount < workCount then
    { filter with
      connectionsRuleCache := filter.connectionsRuleCache.entries.foldl
        (fun cache e => clearEntry cache e.1 e.2) filter.connectionsRuleCache
      workCountSceneLastClear := 0 }
  else { filter with workCountSceneLastClear := workCount }

/-- The end of `get_or_create_filter_rule_cache`, for the entry at `q`. -/
def TrafficFilter.hit (filter : TrafficFilter) (q : ℕ) : TrafficFilter :=
  { filter with
    connectionsRuleCache := filter.connectionsRuleCache.modify q fun item =>
      { item with activeCount := item.activeCount + 1 } }.updateAndClearCacheIfNeed

/-- `get_or_create_filter_rule_cache`: the filter, and the address of the entry. -/
def TrafficFilter.getOrCreateFilterRuleCache (filter : TrafficFilter) (p : PacketInfo) :
    TrafficFilter × Option ℕ :=
  match filter.connectionsRuleCache.find? (·.key == p) with
  | some (q, _) => (filter.hit q, some q)
  | none =>
    match getFilterRule filter.rules p with
    | none => (filter, none)
    | some rule =>
      match rule.accepts p.proto with
      | none => (filter, none)
      | some allow =>
        let q := filter.connectionsRuleCache.next
        let filter := { filter with
          connectionsRuleCache := filter.connectionsRuleCache.add ⟨p, allow, 0⟩ }
        (filter.hit q, some q)

/-- What `filter_packet_from_peer` and `filter_packet_from_tap` do with the description of the
packet; there is no verdict if the entry has been freed when its flag is read. -/
def TrafficFilter.filterPacket (filter : TrafficFilter) (p : PacketInfo) :
    TrafficFilter × Option Verdict :=
  match filter.getOrCreateFilterRuleCache p with
  | (filter, none) => (filter, some .accept)
  | (filter, some q) =>
    (filter, (filter.connectionsRuleCache.get? q).map fun curPktRule =>
      if !curPktRule.boolAllowTraffic then .drop else .accept)

/-- `filter_packet_from_peer`. -/
def TrafficFilter.filterPacketFromPeer (filter : TrafficFilter) (payload : ℕ → UInt8)
    (payloadSize : UInt16) : TrafficFilter × Option Verdict :=
  filter.filterPacket (collectPacketInfo (.of payload) payloadSize.toNat).1

/-- `filter_packet_from_tap`. -/
def TrafficFilter.filterPacketFromTap (filter : TrafficFilter) (payload : ℕ → UInt8)
    (payloadSize : UInt16) : TrafficFilter × Option Verdict :=
  filter.filterPacket (collectPacketInfo (.of payload) payloadSize.toNat).1

/-- `create_network_traffic_filter` and `network_traffic_filter_add_rule`. -/
def createNetworkTrafficFilter (rules : List FilterRule) : TrafficFilter :=
  ⟨rules, .empty, 0⟩

/-! ### Runs -/

/-- A packet that is to be filtered. -/
structure FilterEvent where
  fromTap : Bool
  payload : ℕ → UInt8
  payloadSize : UInt16

/-- What the filter knows of the packet. -/
def FilterEvent.info (e : FilterEvent) : PacketInfo :=
  (collectPacketInfo (.of e.payload) e.payloadSize.toNat).1

/-- The packet goes to one of the two functions. -/
def TrafficFilter.step (filter : TrafficFilter) (e : FilterEvent) :
    TrafficFilter × Option Verdict :=
  if e.fromTap then filter.filterPacketFromTap e.payload e.payloadSize
  else filter.filterPacketFromPeer e.payload e.payloadSize

/-- The filter after some packets. -/
def filterAfter (rules : List FilterRule) (es : List FilterEvent) : TrafficFilter :=
  es.foldl (fun filter e => (filter.step e).1) (createNetworkTrafficFilter rules)

/-- The verdict without a cache: a packet is dropped if there is a rule whose flag for the protocol
is off. -/
def uncachedVerdict (rules : List FilterRule) (p : PacketInfo) : Verdict :=
  match getFilterRule rules p with
  | some rule => if rule.accepts p.proto = some false then .drop else .accept
  | none => .accept

/-- **The cache does not show**: the verdict is that of the rules, and the entry that the lookup
gives is in the cache. -/
structure FilterLaw (filter : TrafficFilter) (e : FilterEvent) : Prop where
  verdict : (filter.step e).2 = some (uncachedVerdict filter.rules e.info)
  kept : ∀ q, (filter.getOrCreateFilterRuleCache e.info).2 = some q →
    ((filter.getOrCreateFilterRuleCache e.info).1.connectionsRuleCache.get? q).isSome

/-- **The entry outlives the lookup**: the next clean-up is not due yet, or there is no rule for the
packet and so no entry, or the entry has been hit nine times before. -/
def TrafficFilter.Survives (filter : TrafficFilter) (p : PacketInfo) : Prop :=
  filter.workCountSceneLastClear < clearCacheEveryXCount ∨ getFilterRule filter.rules p = none ∨
    ∃ q item, filter.connectionsRuleCache.find? (·.key == p) = some (q, item) ∧
      9 ≤ item.activeCount

/-- The law for every packet of a run. -/
def RunLaw (rules : List FilterRule) (es : List FilterEvent) : Prop :=
  ∀ before e after, es = before ++ e :: after → FilterLaw (filterAfter rules before) e

/-! ### The clean-up -/

theorem TrafficFilter.step_eq (filter : TrafficFilter) (e : FilterEvent) :
    filter.step e = filter.filterPacket e.info := by
  unfold TrafficFilter.step
  split_ifs <;> rfl

/-- The clean-up frees an entry or starts its count again. -/
theorem get?_cleared (cache : Table FilterRulePairCache) (q : ℕ) :
    (cache.entries.foldl (fun cache e => clearEntry cache e.1 e.2) cache).get? q =
      (cache.get? q).bind fun item =>
        if item.activeCount < clearCacheActiveCount then none
        else some { item with activeCount := 0 } := by
  refine Table.get?_foldl_own (fun t p item hget => ?_) (fun t p item r hr => ?_) cache q
  · unfold clearEntry
    split_ifs
    · rw [Table.get?_del, if_pos rfl]
    · rw [Table.get?_modify_self hget]
  · unfold clearEntry
    split_ifs
    · rw [Table.get?_del, if_neg hr]
    · rw [Table.get?_modify_other hr]

/-- **The invariant of the cache**: its entries are what the rules say, no entry was hit more often
than packets came since the last clean-up, and the next one is not overdue. -/
structure CacheOk (filter : TrafficFilter) : Prop where
  agrees : filter.connectionsRuleCache.All fun item => ∃ rule,
    getFilterRule filter.rules item.key = some rule ∧
      rule.accepts item.key.proto = some item.boolAllowTraffic
  counted : filter.connectionsRuleCache.All fun item =>
    item.activeCount.toNat ≤ filter.workCountSceneLastClear.toNat
  work : filter.workCountSceneLastClear.toNat ≤ 10000

theorem CacheOk.create (rules : List FilterRule) : CacheOk (createNetworkTrafficFilter rules) where
  agrees := fun _ _ hget => by cases hget
  counted := fun _ _ hget => by cases hget
  work := Nat.zero_le _

/-- A new entry that agrees with the rules. -/
theorem CacheOk.add {filter : TrafficFilter} (h : CacheOk filter) {p : PacketInfo}
    {rule : FilterRule} {allow : Bool} (hrule : getFilterRule filter.rules p = some rule)
    (hallow : rule.accepts p.proto = some allow) :
    CacheOk { filter with
      connectionsRuleCache := filter.connectionsRuleCache.add ⟨p, allow, 0⟩ } where
  agrees := h.agrees.add ⟨rule, hrule, hallow⟩
  counted := h.counted.add (Nat.zero_le _)
  work := h.work

section

variable {filter : TrafficFilter} {q : ℕ} {item : FilterRulePairCache}

/-- A count below 10000 goes up by one. -/
theorem toNat_succ {n : UInt32} (h : n.toNat ≤ 10000) : (n + 1).toNat = n.toNat + 1 := by
  rw [UInt32.toNat_add]
  exact Nat.mod_eq_of_lt (by have : (1 : UInt32).toNat = 1 := rfl; omega)

/-- **What becomes of the entries**: the one that is hit counts up; if the clean-up is due, those
that were hit too seldom are gone. -/
theorem CacheOk.get?_hit (h : CacheOk filter) (q r : ℕ) :
    (filter.hit q).connectionsRuleCache.get? r =
      let cache := filter.connectionsRuleCache.modify q fun item =>
        { item with activeCount := item.activeCount + 1 }
      if filter.workCountSceneLastClear < clearCacheEveryXCount then cache.get? r
      else (cache.get? r).bind fun item =>
        if item.activeCount < clearCacheActiveCount then none
        else some { item with activeCount := 0 } := by
  have hdue : clearCacheEveryXCount < filter.workCountSceneLastClear + 1 ↔
      ¬ filter.workCountSceneLastClear < clearCacheEveryXCount := by
    have hmax : clearCacheEveryXCount.toNat = 10000 := rfl
    rw [UInt32.lt_iff_toNat_lt, UInt32.lt_iff_toNat_lt, toNat_succ h.work, hmax]
    omega
  unfold TrafficFilter.hit TrafficFilter.updateAndClearCacheIfNeed
  dsimp only
  by_cases hearly : filter.workCountSceneLastClear < clearCacheEveryXCount
  · rw [if_neg (fun hlate => hdue.mp hlate hearly), if_pos hearly]
  · rw [if_pos (hdue.mpr hearly), if_neg hearly, get?_cleared]

theorem CacheOk.work_hit (h : CacheOk filter) (q : ℕ) :
    (filter.hit q).workCountSceneLastClear.toNat =
      if filter.workCountSceneLastClear < clearCacheEveryXCount then
        filter.workCountSceneLastClear.toNat + 1 else 0 := by
  have hmax : clearCacheEveryXCount.toNat = 10000 := rfl
  have hsucc := toNat_succ h.work
  unfold TrafficFilter.hit TrafficFilter.updateAndClearCacheIfNeed
  dsimp only
  split_ifs with hdue hearly hearly
  · rw [UInt32.lt_iff_toNat_lt] at hdue hearly
    omega
  · rfl
  · exact hsucc
  · rw [UInt32.lt_iff_toNat_lt] at hdue hearly
    omega

@[simp] theorem rules_hit (filter : TrafficFilter) (q : ℕ) :
    (filter.hit q).rules = filter.rules := by
  unfold TrafficFilter.hit TrafficFilter.updateAndClearCacheIfNeed
  dsimp only
  split_ifs <;> rfl

/-- An entry after a hit was there before, with the same flag; its count has started again, or went
up by one at most. -/
theorem CacheOk.of_get?_hit (h : CacheOk filter) {r : ℕ}
    (hget : (filter.hit q).connectionsRuleCache.get? r = some item) :
    ∃ item₀, filter.connectionsRuleCache.get? r = some item₀ ∧ item.key = item₀.key ∧
      item.boolAllowTraffic = item₀.boolAllowTraffic ∧
      (item.activeCount = 0 ∨ filter.workCountSceneLastClear < clearCacheEveryXCount ∧
        item.activeCount.toNat ≤ item₀.activeCount.toNat + 1) := by
  rw [h.get?_hit] at hget
  dsimp only at hget
  have hmodified : ∀ {item}, (filter.connectionsRuleCache.modify q fun item =>
      { item with activeCount := item.activeCount + 1 }).get? r = some item →
      ∃ item₀, filter.connectionsRuleCache.get? r = some item₀ ∧ item.key = item₀.key ∧
        item.boolAllowTraffic = item₀.boolAllowTraffic ∧
        item.activeCount.toNat ≤ item₀.activeCount.toNat + 1 := by
    intro item hmod
    rw [Table.get?_modify] at hmod
    split_ifs at hmod
    · obtain ⟨item₀, hget₀, rfl⟩ := Option.map_eq_some_iff.mp hmod
      have hcount := (h.counted r item₀ hget₀).trans h.work
      exact ⟨item₀, hget₀, rfl, rfl, (toNat_succ hcount).le⟩
    · exact ⟨item, hmod, rfl, rfl, Nat.le_succ _⟩
  by_cases hearly : filter.workCountSceneLastClear < clearCacheEveryXCount
  · rw [if_pos hearly] at hget
    obtain ⟨item₀, hget₀, hkey, hflag, hcount⟩ := hmodified hget
    exact ⟨item₀, hget₀, hkey, hflag, .inr ⟨hearly, hcount⟩⟩
  · rw [if_neg hearly] at hget
    obtain ⟨item', hget', hkept⟩ := Option.bind_eq_some_iff.mp hget
    obtain ⟨item₀, hget₀, hkey, hflag, -⟩ := hmodified hget'
    split_ifs at hkept
    obtain rfl := Option.some.inj hkept
    exact ⟨item₀, hget₀, hkey, hflag, .inl rfl⟩

/-- **A hit keeps the invariant.** -/
theorem CacheOk.hit (h : CacheOk filter) (q : ℕ) : CacheOk (filter.hit q) where
  agrees := by
    intro r item hget
    obtain ⟨item₀, hget₀, hkey, hflag, -⟩ := h.of_get?_hit hget
    rw [rules_hit, hkey, hflag]
    exact h.agrees r item₀ hget₀
  counted := by
    intro r item hget
    obtain ⟨item₀, hget₀, -, -, hzero | ⟨hearly, hcount⟩⟩ := h.of_get?_hit hget
    · rw [hzero]
      exact Nat.zero_le _
    · rw [h.work_hit, if_pos hearly]
      exact hcount.trans (Nat.succ_le_succ (h.counted r item₀ hget₀))
  work := by
    have hmax : clearCacheEveryXCount.toNat = 10000 := rfl
    rw [h.work_hit]
    split_ifs with hearly
    · rw [UInt32.lt_iff_toNat_lt] at hearly
      omega
    · exact Nat.zero_le _

end

/-! ### One packet -/

/-- A rule is only selected for a protocol that it has a flag for. -/
theorem accepts_of_getFilterRule {rules : List FilterRule} {p : PacketInfo} {rule : FilterRule}
    (h : getFilterRule rules p = some rule) : ∃ allow, rule.accepts p.proto = some allow := by
  rw [getFilterRule_eq] at h
  obtain ⟨-, hpos, -⟩ := Selection.scanBest_max h
  have hconf : rule.key.configured p.proto = true := by
    by_contra hno
    rw [marchRuleAndCacheKey, Bool.eq_false_iff.mpr hno] at hpos
    simp at hpos
  cases hproto : p.proto with
  | tcp => exact ⟨_, rfl⟩
  | udp => exact ⟨_, rfl⟩
  | icmp => exact ⟨_, rfl⟩
  | unknown => rw [hproto] at hconf; cases hconf
  | arp => rw [hproto] at hconf; cases hconf
  | igmp => rw [hproto] at hconf; cases hconf

/-- **What the lookup does**: it hits an entry that was found or has been made for the packet, or
there is no rule and nothing happens. -/
theorem getOrCreate_cases {filter : TrafficFilter} (h : CacheOk filter) (p : PacketInfo) :
    (getFilterRule filter.rules p = none ∧
        filter.getOrCreateFilterRuleCache p = (filter, none)) ∨
      ∃ filter' q item rule, CacheOk filter' ∧ filter'.rules = filter.rules ∧
        filter'.workCountSceneLastClear = filter.workCountSceneLastClear ∧
        filter'.connectionsRuleCache.get? q = some item ∧ item.key = p ∧
        getFilterRule filter.rules p = some rule ∧
        rule.accepts p.proto = some item.boolAllowTraffic ∧
        filter.getOrCreateFilterRuleCache p = (filter'.hit q, some q) ∧
        (9 ≤ item.activeCount ↔ ∃ q item, filter.connectionsRuleCache.find? (·.key == p) =
          some (q, item) ∧ 9 ≤ item.activeCount) ∧
        ∀ r item, filter'.connectionsRuleCache.get? r = some item →
          item.key = p ∨ filter.connectionsRuleCache.get? r = some item := by
  unfold TrafficFilter.getOrCreateFilterRuleCache
  cases hfind : filter.connectionsRuleCache.find? (·.key == p) with
  | some e =>
    obtain ⟨q, item⟩ := e
    obtain ⟨hget, hkey⟩ := Table.find?_eq_some hfind
    have hkey : item.key = p := by simpa using hkey
    obtain ⟨rule, hrule, hallow⟩ := h.agrees q item hget
    rw [hkey] at hrule hallow
    refine .inr ⟨filter, q, item, rule, h, rfl, rfl, hget, hkey, hrule, hallow, rfl, ?_,
      fun _ _ => .inr⟩
    simp
  | none =>
    cases hrule : getFilterRule filter.rules p with
    | none => exact .inl ⟨rfl, rfl⟩
    | some rule =>
      obtain ⟨allow, hallow⟩ := accepts_of_getFilterRule hrule
      refine .inr ⟨_, filter.connectionsRuleCache.next, ⟨p, allow, 0⟩, rule, h.add hrule hallow,
        rfl, rfl, ?_, rfl, rfl, hallow, ?_, ?_, fun r item hget => ?_⟩
      · rw [Table.get?_add, if_pos rfl]
      · dsimp only
        rw [hallow]
      · simp
      · rw [Table.get?_add] at hget
        split_ifs at hget
        · exact .inl (Option.some.inj hget ▸ rfl)
        · exact .inr hget

/-- The invariant is kept by every packet. -/
theorem CacheOk.step {filter : TrafficFilter} (h : CacheOk filter) (e : FilterEvent) :
    CacheOk (filter.step e).1 ∧ (filter.step e).1.rules = filter.rules := by
  rw [TrafficFilter.step_eq, TrafficFilter.filterPacket]
  obtain ⟨-, heq⟩ | ⟨filter', q, item, rule, hok, hrules, -, -, -, -, -, heq, -, -⟩ :=
    getOrCreate_cases h e.info
  · rw [heq]
    exact ⟨h, rfl⟩
  · rw [heq]
    exact ⟨hok.hit q, (rules_hit filter' q).trans hrules⟩

/-- The entry that is hit is there afterwards unless it is freed by the clean-up. -/
theorem CacheOk.get?_hit_self {filter : TrafficFilter} (h : CacheOk filter) {q : ℕ}
    {item : FilterRulePairCache} (hget : filter.connectionsRuleCache.get? q = some item) :
    ((filter.workCountSceneLastClear < clearCacheEveryXCount ∨ 9 ≤ item.activeCount) →
      ∃ item', (filter.hit q).connectionsRuleCache.get? q = some item' ∧
        item'.boolAllowTraffic = item.boolAllowTraffic) ∧
    (¬ (filter.workCountSceneLastClear < clearCacheEveryXCount ∨ 9 ≤ item.activeCount) →
      (filter.hit q).connectionsRuleCache.get? q = none) := by
  have hmod : (filter.connectionsRuleCache.modify q fun item =>
      { item with activeCount := item.activeCount + 1 }).get? q =
        some { item with activeCount := item.activeCount + 1 } := Table.get?_modify_self hget
  have hseldom : item.activeCount + 1 < clearCacheActiveCount ↔ ¬ 9 ≤ item.activeCount := by
    have hten : clearCacheActiveCount.toNat = 10 := rfl
    have hnine : (9 : UInt32).toNat = 9 := rfl
    rw [UInt32.lt_iff_toNat_lt, UInt32.le_iff_toNat_le, hten, hnine,
      toNat_succ ((h.counted q item hget).trans h.work)]
    omega
  rw [h.get?_hit]
  dsimp only
  rw [hmod]
  by_cases hearly : filter.workCountSceneLastClear < clearCacheEveryXCount
  · rw [if_pos hearly]
    exact ⟨fun _ => ⟨_, rfl, rfl⟩, fun hno => absurd (.inl hearly) hno⟩
  · rw [if_neg hearly, Option.bind_some]
    by_cases hnine : 9 ≤ item.activeCount
    · rw [if_neg (fun hlt => hseldom.mp hlt hnine)]
      exact ⟨fun _ => ⟨_, rfl, rfl⟩, fun hno => absurd (.inr hnine) hno⟩
    · rw [if_pos (hseldom.mpr hnine)]
      exact ⟨fun hor => absurd hor (by simp [hearly, hnine]), fun _ => rfl⟩

/-- **One packet**: the cache does not show exactly if the entry outlives the lookup. -/
theorem filterLaw_iff {filter : TrafficFilter} (h : CacheOk filter) (e : FilterEvent) :
    FilterLaw filter e ↔ filter.Survives e.info := by
  obtain ⟨hnone, heq⟩ | ⟨filter', q, item, rule, hok, hrules, hwork, hget, -, hrule, hallow, heq,
    hnine, -⟩ := getOrCreate_cases h e.info
  · -- no rule, and no entry
    refine ⟨fun _ => .inr (.inl hnone), fun _ => ⟨?_, fun q hq => ?_⟩⟩
    · rw [TrafficFilter.step_eq, TrafficFilter.filterPacket, heq, uncachedVerdict, hnone]
    · rw [heq] at hq
      cases hq
  · obtain ⟨hthere, hgone⟩ := hok.get?_hit_self hget
    have hsurvives : filter.Survives e.info ↔
        filter'.workCountSceneLastClear < clearCacheEveryXCount ∨ 9 ≤ item.activeCount := by
      rw [TrafficFilter.Survives, hrule, hwork, hnine]
      simp
    rw [hsurvives]
    constructor
    · intro hlaw
      by_contra hno
      have hkept := hlaw.kept q (by rw [heq])
      rw [heq] at hkept
      dsimp only at hkept
      rw [hgone hno] at hkept
      cases hkept
    · intro hlives
      obtain ⟨item', hget', hflag⟩ := hthere hlives
      refine ⟨?_, fun r hr => ?_⟩
      · rw [TrafficFilter.step_eq, TrafficFilter.filterPacket, heq, uncachedVerdict, hrule]
        dsimp only
        rw [hget', hallow, Option.map_some, hflag]
        cases item.boolAllowTraffic <;> rfl
      · rw [heq] at hr ⊢
        obtain rfl := Option.some.inj hr
        dsimp only
        rw [hget']
        rfl

/-! ### Runs -/

theorem cacheOk_filterAfter (rules : List FilterRule) (es : List FilterEvent) :
    CacheOk (filterAfter rules es) ∧ (filterAfter rules es).rules = rules := by
  induction es using List.reverseRecOn with
  | nil => exact ⟨.create rules, rfl⟩
  | append_singleton es e ih =>
    rw [filterAfter, List.foldl_append, List.foldl_cons, List.foldl_nil, ← filterAfter]
    obtain ⟨hok, hrules⟩ := ih.1.step e
    exact ⟨hok, hrules.trans ih.2⟩

/-- Every entry is one of a packet that has come. -/
theorem key_filterAfter {rules : List FilterRule} {es : List FilterEvent} {r : ℕ}
    {item : FilterRulePairCache}
    (h : (filterAfter rules es).connectionsRuleCache.get? r = some item) :
    ∃ e ∈ es, item.key = e.info := by
  induction es using List.reverseRecOn generalizing r item with
  | nil => cases h
  | append_singleton es e ih =>
    have hok := (cacheOk_filterAfter rules es).1
    rw [filterAfter, List.foldl_append, List.foldl_cons, List.foldl_nil, ← filterAfter,
      TrafficFilter.step_eq, TrafficFilter.filterPacket] at h
    have hold : ∀ {item}, (filterAfter rules es).connectionsRuleCache.get? r = some item →
        ∃ e' ∈ es ++ [e], item.key = e'.info := by
      intro item hget
      obtain ⟨e', he', hkey⟩ := ih hget
      exact ⟨e', List.mem_append_left _ he', hkey⟩
    obtain ⟨-, heq⟩ | ⟨filter', q, -, -, hok', -, -, -, -, -, -, heq, -, hentries⟩ :=
      getOrCreate_cases hok e.info
    · rw [heq] at h
      exact hold h
    · rw [heq] at h
      obtain ⟨item₀, hget₀, hkey, -⟩ := hok'.of_get?_hit h
      rw [hkey]
      obtain hnew | hget := hentries r item₀ hget₀
      · exact ⟨e, by simp, hnew⟩
      · exact hold hget

/-- Up to the first clean-up the packets that have a rule are counted. -/
theorem work_filterAfter (rules : List FilterRule) (es : List FilterEvent)
    (hrule : ∀ e ∈ es, (getFilterRule rules e.info).isSome) (hlen : es.length ≤ 10000) :
    (filterAfter rules es).workCountSceneLastClear.toNat = es.length := by
  induction es using List.reverseRecOn with
  | nil => rfl
  | append_singleton es e ih =>
    rw [List.length_append, List.length_singleton] at hlen ⊢
    have hcount := ih (fun e he => hrule e (List.mem_append_left _ he)) (by omega)
    obtain ⟨hok, hrules⟩ := cacheOk_filterAfter rules es
    rw [filterAfter, List.foldl_append, List.foldl_cons, List.foldl_nil, ← filterAfter,
      TrafficFilter.step_eq, TrafficFilter.filterPacket]
    obtain ⟨hnone, -⟩ | ⟨filter', q, -, -, hok', -, hwork, -, -, -, -, heq, -, -⟩ :=
      getOrCreate_cases hok e.info
    · rw [hrules] at hnone
      have hsome := hrule e (by simp)
      rw [hnone] at hsome
      cases hsome
    · have hearly : filter'.workCountSceneLastClear < clearCacheEveryXCount := by
        rw [UInt32.lt_iff_toNat_lt, hwork, hcount]
        exact hlen
      rw [heq]
      dsimp only
      rw [hok'.work_hit, if_pos hearly, hwork, hcount]

/-- **Along a run the cache does not show exactly if every entry outlives its lookup.** -/
theorem filterRun_lawful_iff (rules : List FilterRule) (es : List FilterEvent) :
    RunLaw rules es ↔
      ∀ before e after, es = before ++ e :: after → (filterAfter rules before).Survives e.info := by
  unfold RunLaw
  simp only [filterLaw_iff (cacheOk_filterAfter rules _).1]

/-! ### Ten thousand and one packets -/

/-- A TCP packet from 192.168.1.9 to port 80 of 192.168.0.7. -/
def tcpEvent (srcPort : UInt8) : FilterEvent where
  fromTap := false
  payload := frameOf (List.replicate 12 2 ++ [0x08, 0x00] ++
    [0x45, 0, 0, 40, 0, 0, 0, 0, 64, 6, 0, 0, 192, 168, 1, 9, 192, 168, 0, 7] ++
    [0, srcPort, 0, 80, 0, 0, 0, 0, 0, 0, 0, 0, 0x50, 2, 0, 0, 0, 0, 0, 0])
  payloadSize := 54

/-- The rule that drops such packets. -/
def dropLocalTcp : List FilterRule := [dropTcpFrom (inAddr 192 168 1 0) 24]

/-- After `n` packets of one connection, with the clean-up due at the next one, the first packet of
another connection makes an entry that is freed before it is read. -/
theorem newConnection_freed {n : ℕ} (hn : n = 10000) :
    ¬ RunLaw dropLocalTcp (List.replicate n (tcpEvent 1) ++ [tcpEvent 2]) := by
  intro hlaw
  have hone : (getFilterRule dropLocalTcp (tcpEvent 1).info).isSome := by decide
  have htwo : (getFilterRule dropLocalTcp (tcpEvent 2).info).isSome := by decide
  have hother : (tcpEvent 2).info.srcPort ≠ (tcpEvent 1).info.srcPort := by decide
  obtain ⟨hok, hrules⟩ := cacheOk_filterAfter dropLocalTcp (List.replicate n (tcpEvent 1))
  have hwork := work_filterAfter dropLocalTcp (List.replicate n (tcpEvent 1))
    (fun e he => by rw [List.eq_of_mem_replicate he]; exact hone)
    (by rw [List.length_replicate, hn])
  rw [List.length_replicate] at hwork
  obtain hearly | hnone | ⟨q, item, hfind, -⟩ := (filterLaw_iff hok (tcpEvent 2)).mp
    (hlaw _ _ [] rfl)
  · have hmax : clearCacheEveryXCount.toNat = 10000 := rfl
    rw [UInt32.lt_iff_toNat_lt, hwork, hmax] at hearly
    omega
  · rw [hrules] at hnone
    rw [hnone] at htwo
    cases htwo
  · -- there is no entry for the new connection
    obtain ⟨hget, hkey⟩ := Table.find?_eq_some hfind
    obtain ⟨e, he, heq⟩ := key_filterAfter hget
    have hkey : item.key = (tcpEvent 2).info := by simpa using hkey
    rw [List.eq_of_mem_replicate he, hkey] at heq
    exact hother (congrArg PacketInfo.srcPort heq)

/-- Ten thousand packets of one connection and one of another. -/
theorem not_runLaw_newConnection :
    ¬ RunLaw dropLocalTcp (List.replicate 10000 (tcpEvent 1) ++ [tcpEvent 2]) :=
  newConnection_freed rfl

end N2n
