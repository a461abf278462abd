import N2nTun.DispatchActs

/-!
# What the acts leave alone

Seen from one community, an act changes little: the lock on its headers stays, and its
edges stay or go.  The exceptions are entries of the federation and `update_edge`.

## Main definitions

* `Sn.Shrinks` — the communities are the same but for edges that are gone.
* `Sn.edgeAt` — the edge at an address of a community other than the federation.

## Main results

* `Act.shrinks` — **no act changes an edge or adds one, but for the federation and
  `update_edge`.**
* `updateEdgeAt_edgeAt` — the edges after a call of `update_edge`.
-/

namespace N2n

variable {P : Emission → Prop} {U : World → World → Prop}

/-- The community `c'` has come from `c`: only its edges, its associations and its dynamic
key have changed. -/
structure Community.Keeps (c c' : Community) : Prop where
  community : c'.community = c.community
  isFederation : c'.isFederation = c.isFederation
  headerEncryption : c'.headerEncryption = c.headerEncryption
  ready : c.keys.Ready → c'.keys.Ready

/-- The entries of `t'` are in `t`, at the same addresses. -/
def SubTable (t t' : Table PeerInfo) : Prop := ∀ q e, t'.get? q = some e → t.get? q = some e

theorem SubTable.refl (t : Table PeerInfo) : SubTable t t := fun _ _ h => h

theorem SubTable.del (t : Table PeerInfo) (q : ℕ) : SubTable t (t.del q) := by
  intro r e h
  rw [Table.get?_del] at h
  split_ifs at h
  exact h

theorem Community.Keeps.refl (c : Community) : c.Keeps c := ⟨rfl, rfl, rfl, id⟩

/-- Everything but the order of the edges and some of them has been kept. -/
def Community.Shrinks (c c' : Community) : Prop := c.Keeps c' ∧ SubTable c.edges c'.edges

/-- The tables after a change: every community is kept, with some of its edges, or is one
that has just been brought up, at a new address. -/
structure Sn.Shrinks (sss sss' : Sn) : Prop where
  next : sss.communities.next ≤ sss'.communities.next
  comms : ∀ p c', sss'.communities.get? p = some c' →
    (∃ c, sss.communities.get? p = some c ∧ c.Shrinks c') ∨
      sss.communities.next ≤ p ∧ ∃ name, c' = newCommunity name

theorem Sn.Shrinks.of_eq {sss sss' : Sn} (h : sss'.communities = sss.communities) :
    sss.Shrinks sss' := by
  refine ⟨by rw [h], fun p c hget => ?_⟩
  rw [h] at hget
  exact Or.inl ⟨c, hget, .refl c, .refl _⟩

/-- A write to one community. -/
theorem Sn.Shrinks.modifyComm (sss : Sn) (p : ℕ) {f : Community → Community}
    (hf : ∀ c : Community, c.Shrinks (f c)) : sss.Shrinks (sss.modifyComm p f) := by
  refine ⟨le_rfl, fun q c' hget => ?_⟩
  unfold Sn.modifyComm at hget
  rw [Table.get?_modify] at hget
  split_ifs at hget
  · obtain ⟨c, hc, rfl⟩ := Option.map_eq_some_iff.mp hget
    exact Or.inl ⟨c, hc, hf c⟩
  · exact Or.inl ⟨c', hget, .refl c', .refl _⟩

theorem Sn.Shrinks.trans_eq {sss sss' sss'' : Sn} (h : sss.Shrinks sss')
    (heq : sss''.communities = sss'.communities) : sss.Shrinks sss'' := by
  refine ⟨by rw [heq]; exact h.next, fun p c hget => ?_⟩
  rw [heq] at hget
  exact h.comms p c hget

theorem Sn.Shrinks.modifyEdges (sss : Sn) (p : ℕ) {f : Table PeerInfo → Table PeerInfo}
    (hf : ∀ t, SubTable t (f t)) : sss.Shrinks (sss.modifyEdges p f) :=
  .modifyComm sss p fun c => ⟨⟨rfl, rfl, rfl, id⟩, hf c.edges⟩

theorem Sn.Shrinks.removePeerByFd (sss : Sn) (fd : ℤ) : sss.Shrinks (sss.removePeerByFd fd) := by
  unfold Sn.removePeerByFd
  split
  · exact .of_eq rfl
  · refine .modifyComm sss _ ?_
    intro c
    split
    · exact ⟨⟨rfl, rfl, rfl, id⟩, .del _ _⟩
    · exact ⟨.refl c, .refl _⟩

theorem Sn.Shrinks.closeTcpConnection (sss : Sn) (conn : Option (ℕ × TcpConnection)) :
    sss.Shrinks (closeTcpConnection sss conn) := by
  cases conn with
  | none => exact .of_eq rfl
  | some conn => exact (Sn.Shrinks.removePeerByFd sss conn.2.socketFd).trans_eq rfl

/-- Purging an edge touches the tables of the communities as `HASH_DEL` does. -/
theorem Sn.purgePeer_communities (sss : Sn) (p q : ℕ) (e : PeerInfo) :
    (sss.purgePeer p q e).communities = (sss.modifyEdges p (·.del q)).communities := by
  unfold Sn.purgePeer Sn.modifyEdges Sn.modifyComm
  dsimp only
  split_ifs
  · split <;> rfl
  · rfl

theorem Sn.Shrinks.purgePeer (sss : Sn) (p q : ℕ) (e : PeerInfo) :
    sss.Shrinks (sss.purgePeer p q e) :=
  (Sn.Shrinks.modifyEdges sss p (f := (·.del q)) fun t => .del t q).trans_eq
    (sss.purgePeer_communities p q e)

theorem Community.withDynamicKey_shrinks (keyTime : UInt32) (fed : CommunityName) (c : Community) :
    c.Shrinks (c.withDynamicKey keyTime fed) := by
  unfold Community.withDynamicKey
  split_ifs
  · exact ⟨.refl c, .refl _⟩
  · exact ⟨⟨rfl, rfl, rfl, fun h => h.changeDynamicKey _⟩, .refl _⟩

theorem Sn.Shrinks.mapValues (sss : Sn) {f : Community → Community}
    (hf : ∀ c : Community, c.Shrinks (f c)) :
    sss.Shrinks { sss with communities := sss.communities.mapValues f } := by
  refine ⟨le_rfl, fun p c' hget => ?_⟩
  rw [Table.get?_mapValues] at hget
  obtain ⟨c, hc, rfl⟩ := Option.map_eq_some_iff.mp hget
  exact Or.inl ⟨c, hc, hf c⟩

/-- **No act changes an edge or adds one, but for the federation and `update_edge`.** -/
theorem Act.shrinks {w w' : World} (h : Act P U w w') :
    w.sss.Shrinks w'.sss ∨
      (∃ f : Table PeerInfo → Table PeerInfo,
        (∀ e ∈ f (w.sss.edges w.sss.federation), e.socketFd = w.sss.sock ∨
          ∃ e' ∈ w.sss.edges w.sss.federation, e'.socketFd = e.socketFd) ∧
        w' = w.setSss (·.modifyEdges w.sss.federation f)) ∨
      U w w' := by
  cases h with
  | surroundings | emit | noteKeyTime => exact Or.inl (.of_eq rfl)
  | close fd _ => exact Or.inl (.closeTcpConnection w.sss _)
  | drop p q => exact Or.inl (.modifyEdges w.sss p fun t => .del t q)
  | purge p q e _ => exact Or.inl (.purgePeer w.sss p q e)
  | comm p f hf _ =>
    refine Or.inl (.modifyComm w.sss p fun c => ?_)
    rw [hf c]
    exact ⟨⟨rfl, rfl, rfl, id⟩, .refl _⟩
  | addComm name =>
    refine Or.inl ⟨Nat.le_succ _, fun p c hget => ?_⟩
    replace hget : (w.sss.communities.add (newCommunity name)).get? p = some c := hget
    rw [Table.get?_add] at hget
    split_ifs at hget with hp
    · exact Or.inr ⟨hp.ge, name, (Option.some.inj hget).symm⟩
    · exact Or.inl ⟨c, hget, .refl c, .refl _⟩
  | delComm p _ =>
    refine Or.inl ⟨le_rfl, fun q c hget => ?_⟩
    replace hget : (w.sss.communities.del p).get? q = some c := hget
    rw [Table.get?_del] at hget
    split_ifs at hget
    exact Or.inl ⟨c, hget, .refl c, .refl _⟩
  | sortComms le =>
    refine Or.inl ⟨le_rfl, fun p c hget => ?_⟩
    replace hget : ((w.sss.communities.sort le).mapValues _).get? p = some c := hget
    rw [Table.get?_mapValues, Table.get?_sort] at hget
    obtain ⟨c, hc, rfl⟩ := Option.map_eq_some_iff.mp hget
    exact Or.inl ⟨c, hc, ⟨rfl, rfl, rfl, id⟩, .refl _⟩
  | sortEdges p le =>
    have hsort : ∀ t : Table PeerInfo, SubTable t (t.sort le) := by
      intro t q e h
      rwa [Table.get?_sort] at h
    exact Or.inl (.modifyEdges w.sss p hsort)
  | federation f hf _ => exact Or.inr (Or.inl ⟨f, hf, rfl⟩)
  | keyTime t _ =>
    have h := Sn.Shrinks.mapValues w.sss
      (Community.withDynamicKey_shrinks t w.sss.federationName)
    exact Or.inl ⟨h.next, h.comms⟩
  | update hU _ _ => exact Or.inr (Or.inr hU)

/-! ### The edges -/

/-- The edge at the address `q` of the community at `p`, if that is not the federation. -/
def Sn.edgeAt (sss : Sn) (p q : ℕ) : Option PeerInfo :=
  match sss.communities.get? p with
  | some c => if c.isFederation then none else c.edges.get? q
  | none => none

theorem Sn.edgeAt_eq_some {sss : Sn} {p q : ℕ} {e : PeerInfo} :
    sss.edgeAt p q = some e ↔
      ∃ c, sss.communities.get? p = some c ∧ c.isFederation = false ∧ c.edges.get? q = some e := by
  unfold Sn.edgeAt
  cases sss.communities.get? p with
  | none => simp
  | some c => cases c.isFederation <;> simp

theorem Sn.edgeAt_of_get? {sss : Sn} {p : ℕ} {c : Community}
    (h : sss.communities.get? p = some c) (hc : c.isFederation = false) (q : ℕ) :
    sss.edgeAt p q = c.edges.get? q := by
  rw [Sn.edgeAt, h]
  simp [hc]

theorem Sn.Shrinks.edgeAt {sss sss' : Sn} (h : sss.Shrinks sss') {p q : ℕ} {e : PeerInfo}
    (he : sss'.edgeAt p q = some e) : sss.edgeAt p q = some e := by
  obtain ⟨c', hget', hc', hq⟩ := Sn.edgeAt_eq_some.mp he
  rcases h.comms p c' hget' with ⟨c, hget, hkeeps, hsub⟩ | ⟨-, name, rfl⟩
  · refine Sn.edgeAt_eq_some.mpr ⟨c, hget, ?_, hsub q e hq⟩
    rw [← hkeeps.isFederation]
    exact hc'
  · exact absurd hq (by simp [newCommunity, Community.zero])

/-- A change of the federation is no change of an edge. -/
theorem Sn.edgeAt_modifyEdges_federation {sss : Sn}
    (hfed : ∀ c, sss.communities.get? sss.federation = some c → c.isFederation = true)
    (f : Table PeerInfo → Table PeerInfo) (p q : ℕ) :
    (sss.modifyEdges sss.federation f).edgeAt p q = sss.edgeAt p q := by
  unfold Sn.edgeAt Sn.modifyEdges Sn.modifyComm
  dsimp only
  rw [Table.get?_modify]
  split_ifs with hp
  · subst hp
    cases hget : sss.communities.get? sss.federation with
    | none => rfl
    | some c => simp [hfed c hget]
  · rfl

/-- The edges after a write to those of one community. -/
theorem Sn.edgeAt_modifyEdges {sss : Sn} {p : ℕ} {c : Community}
    (hget : sss.communities.get? p = some c) (hc : c.isFederation = false)
    (f : Table PeerInfo → Table PeerInfo) (p' q : ℕ) :
    (sss.modifyEdges p f).edgeAt p' q =
      if p' = p then (f c.edges).get? q else sss.edgeAt p' q := by
  unfold Sn.edgeAt Sn.modifyEdges Sn.modifyComm
  dsimp only
  rw [Table.get?_modify]
  split_ifs with hp
  · subst hp
    rw [hget]
    simp [hc]
  · rfl

/-- The call of `update_edge` writes to the edges of one community. -/
theorem World.updateEdgeAt_sss (w : World) (rx : Rx) (d : Dispatch) (comm : ℕ) (c : Community)
    (reg : RegisterSuper) :
    (w.updateEdgeAt rx d comm c reg).1.sss =
      w.sss.modifyEdges comm fun _ => (w.callUpdateEdge rx d c reg).edges := by
  unfold World.updateEdgeAt
  dsimp only
  split_ifs <;> rfl

/-! ### The first stage -/

/-- What the first stage of `process_udp` does to the tables: one community may be locked. -/
theorem Sn.openHeader_cases (sss : Sn) (rx : Rx) :
    (sss.openHeader rx).1 = sss ∨
      ∃ p c, sss.communities.get? p = some c ∧
        (c.headerEncryption = .unknown ∧
            (sss.openHeader rx).1 = sss.modifyComm p Community.lockPlain ∨
          (sss.openHeader rx).1 = sss.modifyComm p Community.countEncrypted) := by
  unfold Sn.openHeader
  dsimp only
  split_ifs with hshort hplain
  · exact Or.inl rfl
  · split
    · exact Or.inl rfl
    · rename_i p c hfind
      have hget : sss.communities.get? p = some c := (Table.find?_eq_some hfind).1
      split
      · exact Or.inl rfl
      · exact Or.inr ⟨p, c, hget, Or.inl ⟨‹_›, rfl⟩⟩
      · exact Or.inl rfl
  · split
    · rename_i o htrial
      obtain ⟨e, he, hcomm, -, -⟩ := decryptTrial_accepted htrial
      rw [hcomm]
      exact Or.inr ⟨e.1, e.2, Table.get?_eq_some.mpr he, Or.inr rfl⟩
    · exact Or.inl rfl

end N2n
