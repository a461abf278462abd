import N2nTun.Lib.Walk
import N2nTun.ActEffects

/-!
# What a purge leaves

`purge_expired_communities` walks through the communities, and in each of them through the edges
and through the associations with other supernodes; what has not been heard of for too long is
removed.  All three walks remove entries from the table they are in.

The walk through the associations does not look at the age of the association it has come to, but
at that of the first one there is in the table.

## Main definitions

* `Sn.purgeExpiredCommunitiesWalk` — the purge as it follows the links, with `none` where an entry
  is read that has been freed.
* `PeerInfo.Stays`, `Assoc.Fresh`, `Community.Survives` — what is to be left.
* `PurgeLaw` — exactly this is left, and nothing is read that has been freed.
* `Community.StaleFirst` — no stale association is behind a fresh one.

## Main results

* `Sn.purgeExpiredCommunitiesWalk_eq` — **a purge reads nothing that has been freed.**
* `Sn.purgeExpiredCommunities_get?` — what becomes of each community.
* `purgeLaw_iff` — **when a purge leaves exactly what is to be left.**
-/

namespace N2n

/-! ### The walks -/

/-- The walk of `purge_peer_list`. -/
def Sn.purgePeerListWalk (sss : Sn) (comm : ℕ) (purgeBefore : ℤ) : Option Sn :=
  Table.iter (fun sss : Sn => sss.edges comm)
    (fun sss p scan =>
      some (if scan.purgeable && scan.lastSeen < purgeBefore then sss.purgePeer comm p scan
        else sss)) sss

/-- The walk through the associations; `comm->assoc` must not be `NULL`. -/
def purgeAssocWalk (assoc : Table Assoc) (now : ℤ) : Option (Table Assoc) :=
  Table.iter id
    (fun t p _ => t.head?.map fun head =>
      if head.2.lastSeen < now - 3 * registrationTimeout then t.del p else t) assoc

/-- The end of the body for one community: the associations of an idle one are freed, and then
itself. -/
def Sn.purgeIdleWalk (sss : Sn) (comm : ℕ) : Option Sn :=
  (sss.communities.get? comm).bind fun c =>
    if c.edges.entries.isEmpty && c.purgeable then
      (Table.iter id (fun t p _ => some (t.del p)) c.assoc).map fun _ =>
        { sss with communities := sss.communities.del comm }
    else some sss

/-- The body for one community. -/
def Sn.purgeCommunityWalk (sss : Sn) (comm : ℕ) (now : ℤ) : Option Sn :=
  (sss.purgePeerListWalk comm (now - registrationTimeout)).bind fun sss =>
    (sss.communities.get? comm).bind fun c =>
      (purgeAssocWalk c.assoc now).bind fun assoc =>
        (sss.modifyComm comm fun c => { c with assoc := assoc }).purgeIdleWalk comm

/-- `purge_expired_communities`, along the links. -/
def Sn.purgeExpiredCommunitiesWalk (sss : Sn) (last now : ℤ) : Option (Sn × ℤ) :=
  if now - last < purgeRegistrationFrequency then some (sss, last)
  else
    (Table.iter Sn.communities
      (fun sss p c => if c.isFederation then some sss else sss.purgeCommunityWalk p now)
      sss).map (·, now)

namespace Sn

variable (sss : Sn) (comm : ℕ)

theorem purgePeerListWalk_eq (purgeBefore : ℤ) :
    sss.purgePeerListWalk comm purgeBefore = some (sss.purgePeerList comm purgeBefore) := by
  refine Table.iter_eq_foldl (I := fun _ => True) (fun sss e _ _ => ⟨rfl, ?_, trivial⟩) sss trivial
  split_ifs
  · exact Or.inr (by rw [Sn.purgePeer_edges])
  · exact .refl _ _

end Sn

theorem purgeAssoc_eq (assoc : Table Assoc) (now : ℤ) :
    purgeAssoc assoc now = assoc.entries.foldl (fun t e =>
      match t.head? with
      | some head => if head.2.lastSeen < now - 3 * registrationTimeout then t.del e.1 else t
      | none => t) assoc := by
  unfold purgeAssoc
  congr 1
  funext t e
  have hfirst : t.first? (fun _ => true) = t.head? := by
    unfold Table.first? Table.head?
    cases t.entries <;> rfl
  rw [hfirst]
  cases t.head? <;> rfl

/-- There is a first association as long as the walk has not come to its end. -/
theorem purgeAssocWalk_eq (assoc : Table Assoc) (now : ℤ) :
    purgeAssocWalk assoc now = some (purgeAssoc assoc now) := by
  rw [purgeAssoc_eq]
  refine Table.iter_eq_foldl (I := fun _ => True) (fun t e _ hget => ?_) assoc trivial
  have hmem : e ∈ t.entries := Table.get?_eq_some.mp hget
  have hhead : ∃ head, t.head? = some head := by
    unfold Table.head?
    cases hent : t.entries with
    | nil =>
      rw [hent] at hmem
      cases hmem
    | cons head rest => exact ⟨head, rfl⟩
  obtain ⟨head, hhead⟩ := hhead
  rw [hhead]
  refine ⟨rfl, ?_, trivial⟩
  dsimp only [id]
  split_ifs
  · exact Or.inr rfl
  · exact .refl _ _

namespace Sn

variable (sss : Sn) (comm : ℕ)

theorem purgeIdleWalk_eq {c : Community} (hget : sss.communities.get? comm = some c) :
    sss.purgeIdleWalk comm = some (sss.purgeIdle comm) := by
  have hclear : Table.iter id (fun t p _ => some (t.del p)) c.assoc =
      some (c.assoc.entries.foldl (fun t e => t.del e.1) c.assoc) :=
    Table.iter_eq_foldl (I := fun _ => True) (fun t e _ _ => ⟨rfl, Or.inr rfl, trivial⟩) _ trivial
  unfold purgeIdleWalk purgeIdle
  rw [hget, Option.bind_some, hclear]
  dsimp only
  split_ifs <;> rfl

/-! ### What becomes of a community -/

theorem purgePeerList_communities (purgeBefore : ℤ) :
    (sss.purgePeerList comm purgeBefore).communities =
      sss.communities.modify comm fun c =>
        { c with edges := (sss.edges comm).entries.foldl (fun t e =>
          if !(e.2.purgeable && e.2.lastSeen < purgeBefore) then t else t.del e.1) c.edges } := by
  unfold purgePeerList
  generalize (sss.edges comm).entries = es
  induction es generalizing sss with
  | nil => exact (Table.modify_id sss.communities comm).symm
  | cons e es ih =>
    rw [List.foldl_cons, ih]
    cases hold : e.2.purgeable && decide (e.2.lastSeen < purgeBefore) with
    | true =>
      rw [if_pos rfl, sss.purgePeer_communities comm e.1 e.2, Sn.modifyEdges, Sn.modifyComm]
      dsimp only
      rw [Table.modify_modify]
      congr 1
      funext c
      rw [Function.comp_apply, List.foldl_cons, hold]
      rfl
    | false =>
      rw [if_neg Bool.false_ne_true]
      congr 1
      funext c
      rw [List.foldl_cons, hold]
      rfl

end Sn

/-- The edge is to stay: it is not purgeable, or has been heard of. -/
def PeerInfo.stays (peer : PeerInfo) (now : ℤ) : Bool :=
  !(peer.purgeable && peer.lastSeen < now - registrationTimeout)

/-- The association is to stay. -/
def Assoc.fresh (assoc : Assoc) (now : ℤ) : Bool :=
  !(assoc.lastSeen < now - 3 * registrationTimeout : Bool)

/-- What a purge makes of a community that is not the federation. -/
def Community.purged (c : Community) (now : ℤ) : Option Community :=
  if (c.edges.keep (·.stays now)).entries.isEmpty && c.purgeable then none
  else some { c with edges := c.edges.keep (·.stays now), assoc := purgeAssoc c.assoc now }

namespace Sn

variable (sss : Sn) (comm : ℕ)

theorem purgePeerList_get? (now : ℤ) (q : ℕ) :
    (sss.purgePeerList comm (now - registrationTimeout)).communities.get? q =
      if q = comm then (sss.communities.get? q).map fun c =>
        { c with edges := c.edges.keep (·.stays now) }
      else sss.communities.get? q := by
  rw [purgePeerList_communities, Table.get?_modify]
  split_ifs with hq
  · subst hq
    cases hget : sss.communities.get? q with
    | none => rfl
    | some c =>
      have hedges : sss.edges q = c.edges := by rw [Sn.edges, hget]
      rw [Option.map_some, Option.map_some, hedges]
      congr 2
      exact Table.foldl_del_eq_keep (fun e : PeerInfo => e.stays now) c.edges
  · rfl

theorem purgeIdle_get? {c : Community} (hget : sss.communities.get? comm = some c) (q : ℕ) :
    (sss.purgeIdle comm).communities.get? q =
      if q = comm then (if c.edges.entries.isEmpty && c.purgeable then none else some c)
      else sss.communities.get? q := by
  unfold purgeIdle
  rw [hget]
  dsimp only
  by_cases hidle : (c.edges.entries.isEmpty && c.purgeable) = true
  · rw [if_pos hidle, if_pos hidle, Table.get?_del]
  · rw [if_neg hidle, if_neg hidle]
    split_ifs with hq
    · rw [hq, hget]
    · rfl

/-- **One community**: all others are left alone. -/
theorem purgeCommunity_get? {c : Community} (hget : sss.communities.get? comm = some c) (now : ℤ)
    (q : ℕ) : (sss.purgeCommunity comm now).communities.get? q =
      if q = comm then c.purged now else sss.communities.get? q := by
  unfold purgeCommunity
  have hedges := sss.purgePeerList_get? comm now
  generalize sss.purgePeerList comm (now - registrationTimeout) = sss₁ at hedges
  have hself : (sss₁.modifyComm comm fun c =>
      { c with assoc := purgeAssoc c.assoc now }).communities.get? comm =
      some { c with edges := c.edges.keep (·.stays now), assoc := purgeAssoc c.assoc now } := by
    refine Eq.trans
      (Table.get?_modify_self (a := { c with edges := c.edges.keep (·.stays now) }) ?_) rfl
    rw [hedges comm, if_pos rfl, hget]
    rfl
  dsimp only
  rw [purgeIdle_get? _ comm hself q]
  by_cases hq : q = comm
  · rw [if_pos hq, if_pos hq]
    rfl
  · rw [if_neg hq, if_neg hq, Sn.modifyComm, Table.get?_modify_other hq, hedges q, if_neg hq]

theorem purgeCommunityWalk_eq {c : Community} (hget : sss.communities.get? comm = some c)
    (now : ℤ) : sss.purgeCommunityWalk comm now = some (sss.purgeCommunity comm now) := by
  unfold purgeCommunityWalk purgeCommunity
  rw [purgePeerListWalk_eq, Option.bind_some]
  have hedges := sss.purgePeerList_get? comm now comm
  generalize sss.purgePeerList comm (now - registrationTimeout) = sss₁ at hedges
  rw [if_pos rfl, hget, Option.map_some] at hedges
  rw [hedges, Option.bind_some, purgeAssocWalk_eq, Option.bind_some]
  have hmodify : sss₁.communities.modify comm
      (fun c' => { c' with assoc := purgeAssoc c.assoc now }) =
      sss₁.communities.modify comm fun c' => { c' with assoc := purgeAssoc c'.assoc now } :=
    Table.modify_congr hedges rfl
  unfold Sn.modifyComm
  rw [hmodify]
  exact purgeIdleWalk_eq _ comm (Table.get?_modify_self hedges)

/-- The body of the walk through the communities. -/
def purgeStep (now : ℤ) (sss : Sn) (e : ℕ × Community) : Sn :=
  if e.2.isFederation then sss else sss.purgeCommunity e.1 now

theorem purgeStep_get? {sss : Sn} {e : ℕ × Community} (now : ℤ)
    (hget : sss.communities.get? e.1 = some e.2) (q : ℕ) :
    (sss.purgeStep now e).communities.get? q =
      if q = e.1 then (if e.2.isFederation then some e.2 else e.2.purged now)
      else sss.communities.get? q := by
  unfold purgeStep
  by_cases hfed : e.2.isFederation = true
  · rw [if_pos hfed, if_pos hfed]
    split_ifs with hq
    · rw [hq, hget]
    · rfl
  · rw [if_neg hfed, if_neg hfed, sss.purgeCommunity_get? e.1 hget now q]

theorem touches_purgeStep (sss : Sn) (e : ℕ × Community) (now : ℤ) :
    sss.communities.Touches (sss.purgeStep now e).communities e.1 := by
  unfold purgeStep
  split_ifs
  · exact .refl _ _
  · unfold purgeCommunity purgeIdle
    dsimp only
    rw [Sn.modifyComm]
    dsimp only
    rw [purgePeerList_communities, Table.modify_modify]
    split
    · split_ifs
      · exact Or.inr (congrArg Table.entries (Table.del_modify _ _ _))
      · exact Or.inl ⟨_, rfl⟩
    · exact Or.inl ⟨_, rfl⟩

/-- **A purge reads nothing that has been freed.** -/
theorem purgeExpiredCommunitiesWalk_eq (last now : ℤ) :
    sss.purgeExpiredCommunitiesWalk last now = some (sss.purgeExpiredCommunities last now) := by
  unfold purgeExpiredCommunitiesWalk purgeExpiredCommunities
  split_ifs
  · rfl
  · rw [@Table.iter_eq_foldl _ _ _ _ (purgeStep now) fun _ => True]
    · rfl
    · intro sss e _ hget
      refine ⟨?_, touches_purgeStep sss e now, trivial⟩
      unfold purgeStep
      split_ifs
      · rfl
      · exact sss.purgeCommunityWalk_eq e.1 hget now
    · trivial

/-- **What becomes of each community.** -/
theorem purgeExpiredCommunities_get? {last now : ℤ}
    (hdue : purgeRegistrationFrequency ≤ now - last) (q : ℕ) :
    (sss.purgeExpiredCommunities last now).1.communities.get? q =
      (sss.communities.get? q).bind fun c => if c.isFederation then some c else c.purged now := by
  unfold purgeExpiredCommunities
  rw [if_neg (not_lt.mpr hdue)]
  show (sss.communities.entries.foldl (purgeStep now) sss).communities.get? q = _
  -- what the walk has not come to yet is what it was
  suffices hloop : ∀ (rest : List (ℕ × Community)) (s : Sn), (rest.map Prod.fst).Nodup →
      (∀ e ∈ rest, s.communities.get? e.1 = some e.2) →
      (rest.foldl (purgeStep now) s).communities.get? q =
        if q ∈ rest.map Prod.fst then
          (s.communities.get? q).bind fun c => if c.isFederation then some c else c.purged now
        else s.communities.get? q by
    rw [hloop _ sss sss.communities.nodup fun e he => Table.get?_eq_some.mpr he]
    split_ifs with hmem
    · rfl
    · cases hget : sss.communities.get? q with
      | none => rfl
      | some c =>
        exact absurd (List.mem_map_of_mem (f := Prod.fst) (Table.get?_eq_some.mp hget)) hmem
  intro rest
  induction rest with
  | nil => exact fun _ _ _ => rfl
  | cons e rest ih =>
    intro s hnodup hget
    rw [List.map_cons, List.nodup_cons] at hnodup
    have hself := hget e List.mem_cons_self
    have hstep := purgeStep_get? now hself
    rw [List.foldl_cons, ih (s.purgeStep now e) hnodup.2 ?_, List.map_cons, hstep q]
    · by_cases hq : q = e.1
      · subst hq
        rw [if_neg hnodup.1, if_pos rfl, if_pos List.mem_cons_self, hself]
        rfl
      · rw [if_neg hq]
        simp only [List.mem_cons, hq, false_or]
    · intro e' he'
      have hne : e'.1 ≠ e.1 := fun heq => hnodup.1 (heq ▸ List.mem_map_of_mem he')
      rw [hstep e'.1, if_neg hne]
      exact hget e' (List.mem_cons_of_mem _ he')

end Sn

/-! ### The law -/

/-- Some edge of the community is to stay, or the community is not purgeable. -/
def Community.Survives (c : Community) (now : ℤ) : Prop :=
  c.purgeable = false ∨ ∃ e ∈ c.edges, e.stays now = true

/-- A purge leaves what is to be left, and reads nothing that has been freed. -/
structure PurgeLaw (sss : Sn) (last now : ℤ) : Prop where
  walk : (sss.purgeExpiredCommunitiesWalk last now).isSome = true
  removed : ∀ p c, sss.communities.get? p = some c → c.isFederation = false →
    ((sss.purgeExpiredCommunities last now).1.communities.get? p = none ↔
      c.purgeable = true ∧ ∀ e ∈ c.edges, e.stays now = false)
  edges : ∀ p c c', sss.communities.get? p = some c → c.isFederation = false →
    (sss.purgeExpiredCommunities last now).1.communities.get? p = some c' →
    c'.edges.entries = c.edges.entries.filter (·.2.stays now)
  assoc : ∀ p c c', sss.communities.get? p = some c → c.isFederation = false →
    (sss.purgeExpiredCommunities last now).1.communities.get? p = some c' →
    c'.assoc.entries = c.assoc.entries.filter (·.2.fresh now)

/-- In the order of addition no stale association is behind a fresh one. -/
def Community.StaleFirst (c : Community) (now : ℤ) : Prop :=
  c.assoc.entries.Pairwise fun a b => a.2.fresh now = true → b.2.fresh now = true

theorem purgeAssoc_entries (assoc : Table Assoc) (now : ℤ) :
    (purgeAssoc assoc now).entries = assoc.entries.dropWhile (!·.2.fresh now) := by
  rw [purgeAssoc_eq, ← Table.foldl_del_head (fun a : Assoc => a.fresh now)]
  congr 2
  funext t e
  cases t.head? with
  | none => rfl
  | some head =>
    dsimp only [Assoc.fresh]
    by_cases hstale : head.2.lastSeen < now - 3 * registrationTimeout <;> simp [hstale]

/-- Removing from the front removes all that is to go exactly if it is all at the front. -/
theorem dropWhile_eq_filter_iff {α : Type*} (keep : α → Bool) (l : List α) :
    l.dropWhile (!keep ·) = l.filter keep ↔
      l.Pairwise fun a b => keep a = true → keep b = true := by
  induction l with
  | nil => simp
  | cons a l ih =>
    rw [List.pairwise_cons]
    cases hkeep : keep a with
    | false =>
      rw [List.dropWhile_cons_of_pos (by simp [hkeep]), List.filter_cons_of_neg (by simp [hkeep]),
        ih]
      simp
    | true =>
      rw [List.dropWhile_cons_of_neg (by simp [hkeep]), List.filter_cons_of_pos hkeep,
        List.cons.injEq, eq_comm (a := l), List.filter_eq_self]
      simp only [true_and, forall_const]
      exact ⟨fun h => ⟨h, List.pairwise_of_forall_mem_list fun _ _ b hb _ => h b hb⟩, fun h => h.1⟩

/-- A community is removed exactly if it may be and no edge is to stay. -/
theorem Community.purged_eq_none_iff (c : Community) (now : ℤ) :
    c.purged now = none ↔ c.purgeable = true ∧ ∀ e ∈ c.edges, e.stays now = false := by
  have hempty : (c.edges.keep (·.stays now)).entries.isEmpty = true ↔
      ∀ e ∈ c.edges, e.stays now = false := by
    rw [List.isEmpty_iff]
    show c.edges.entries.filter (·.2.stays now) = [] ↔ _
    rw [List.filter_eq_nil_iff]
    constructor
    · intro h e he
      obtain ⟨p, hp⟩ := Table.mem_def.mp he
      simpa using h (p, e) hp
    · intro h e he
      simpa using h e.2 (Table.mem_def.mpr ⟨e.1, he⟩)
  unfold Community.purged
  rw [ite_eq_left_iff, Bool.and_eq_true, hempty, and_comm]
  simp

theorem Community.survives_iff (c : Community) (now : ℤ) :
    c.Survives now ↔ c.purged now ≠ none := by
  rw [ne_eq, Community.purged_eq_none_iff]
  unfold Community.Survives
  rw [Classical.not_and_iff_not_or_not]
  simp

/-- **A purge leaves exactly what is to be left if and only if in no community that survives it a
stale association is behind a fresh one.** -/
theorem purgeLaw_iff (sss : Sn) (last now : ℤ) (hdue : purgeRegistrationFrequency ≤ now - last) :
    PurgeLaw sss last now ↔ ∀ p c, sss.communities.get? p = some c → c.isFederation = false →
      c.Survives now → c.StaleFirst now := by
  have hafter : ∀ p c, sss.communities.get? p = some c → c.isFederation = false →
      (sss.purgeExpiredCommunities last now).1.communities.get? p = c.purged now := by
    intro p c hget hfed
    rw [sss.purgeExpiredCommunities_get? hdue, hget, Option.bind_some, hfed]
    rfl
  -- of a community that survives the edges and the associations are known
  have hpurged : ∀ (c c' : Community), c.purged now = some c' →
      c'.edges.entries = c.edges.entries.filter (·.2.stays now) ∧
        c'.assoc.entries = c.assoc.entries.dropWhile (!·.2.fresh now) := by
    intro c c' h
    unfold Community.purged at h
    split_ifs at h
    obtain rfl := Option.some.inj h
    exact ⟨rfl, purgeAssoc_entries c.assoc now⟩
  constructor
  · intro h p c hget hfed hsurvives
    obtain ⟨c', hc'⟩ := Option.ne_none_iff_exists'.mp ((c.survives_iff now).mp hsurvives)
    have hassoc := h.assoc p c c' hget hfed ((hafter p c hget hfed).trans hc')
    exact (dropWhile_eq_filter_iff (fun a : ℕ × Assoc => a.2.fresh now) c.assoc.entries).mp
      ((hpurged c c' hc').2.symm.trans hassoc)
  · intro h
    refine ⟨?_, fun p c hget hfed => ?_, fun p c c' hget hfed hget' => ?_,
      fun p c c' hget hfed hget' => ?_⟩
    · rw [sss.purgeExpiredCommunitiesWalk_eq]
      rfl
    · rw [hafter p c hget hfed, c.purged_eq_none_iff]
    · rw [hafter p c hget hfed] at hget'
      exact (hpurged c c' hget').1
    · rw [hafter p c hget hfed] at hget'
      have hsurvives : c.Survives now := (c.survives_iff now).mpr (by rw [hget']; simp)
      rw [(hpurged c c' hget').2]
      exact (dropWhile_eq_filter_iff (fun a : ℕ × Assoc => a.2.fresh now) c.assoc.entries).mpr
        (h p c hget hfed hsurvives)

/-- A community whose edges are at other supernodes: they have been seen there at these times, in
this order. -/
def awayComm (times : List ℤ) : Community :=
  { Community.zero with
    assoc := times.foldl (fun t time => t.add ⟨nullMac, hostSock 8 7654, time⟩) Table.empty }

/-- A supernode for the community. -/
def awaySn (times : List ℤ) : Sn :=
  { idleSn with communities := Table.empty.add (awayComm times) }

/-- The older association is the first one: it is removed, and the other is not. -/
theorem purgeLaw_inOrder : PurgeLaw (awaySn [900, 1000]) 1000 1100 := by
  refine (purgeLaw_iff (awaySn [900, 1000]) 1000 1100 (by decide)).mpr ?_
  intro p c hget _ _
  unfold awaySn at hget
  dsimp only at hget
  rw [Table.get?_add] at hget
  split_ifs at hget
  · obtain rfl := Option.some.inj hget
    unfold Community.StaleFirst
    decide
  · cases hget

/-- The clock has been set back between the two: the second association is stale, and stays
behind the first one. -/
theorem not_purgeLaw_clockSetBack : ¬ PurgeLaw (awaySn [1000, 900]) 1000 1100 := by
  intro h
  have hkept := h.assoc 0 (awayComm [1000, 900]) (awayComm [1000, 900]) (by decide) rfl
    (by decide)
  exact absurd hkept (by decide)

end N2n
