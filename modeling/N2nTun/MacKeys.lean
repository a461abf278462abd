import N2nTun.SnMachine

/-!
# The keys of a supernode's tables

The tables of edges and of associations are keyed by MAC, and three functions change the MAC of
an entry: `update_edge`, `add_sn_to_list_by_mac_or_sock` and the REGISTER_SUPER of a new edge.
In every run the keys of each table stay distinct, and every entry stays where its MAC is
hashed.

## Main definitions

* `Community.MacsOk` — the tables of one community.
* `SnLoaded`, `snFresh` — a supernode as `main` starts it, and its runs.

## Main results

* `Act.macsOk` — **every act keeps the keys.**
* `macs_of_reach` — so does every run.
-/

namespace N2n

open Machines

variable {P : Emission → Prop} {U : World → World → Prop}

/-- The MACs that must be distinct among the edges: in the federation, a supernode whose MAC is
not known yet has the null MAC. -/
def Community.counts (c : Community) : Mac → Prop :=
  if c.isFederation then KnownMac else fun _ => True

/-- The tables of a community are keyed by distinct MACs. -/
structure Community.MacsOk (c : Community) : Prop where
  edges : PeersKeyed c.edges c.counts
  assoc : AssocDistinct c.assoc

/-- What the MACs depend on. -/
theorem Community.MacsOk.congr {c c' : Community} (h : c.MacsOk)
    (hfed : c'.isFederation = c.isFederation) (hassoc : c'.assoc = c.assoc)
    (hedges : c'.edges = c.edges) : c'.MacsOk where
  edges := by
    rw [Community.counts, hfed, hedges]
    exact h.edges
  assoc := by
    rw [hassoc]
    exact h.assoc

/-- Edges may go. -/
theorem Community.MacsOk.withEdges {c : Community} (h : c.MacsOk) {t : Table PeerInfo}
    (ht : PeersKeyed t c.counts) : { c with edges := t }.MacsOk :=
  ⟨ht, h.assoc⟩

theorem SubTable.keyed {t t' : Table PeerInfo} {counts : Mac → Prop} (h : SubTable t t')
    (ht : PeersKeyed t counts) : PeersKeyed t' counts :=
  ht.of_kept fun q e he => ⟨e, h q e he, rfl, rfl⟩

theorem newCommunity_macsOk (name : CommunityName) : (newCommunity name).MacsOk :=
  ⟨.empty, .empty⟩

namespace Sn

variable {sss sss' : Sn}

/-- The invariant of the tables: those of every community are in order. -/
def MacsOk (sss : Sn) : Prop := ∀ p c, sss.communities.get? p = some c → c.MacsOk

theorem MacsOk.of_eq (h : sss.MacsOk) (heq : sss'.communities = sss.communities) :
    sss'.MacsOk := by
  intro p c hget
  rw [heq] at hget
  exact h p c hget

theorem MacsOk.modifyComm (h : sss.MacsOk) (p : ℕ) {f : Community → Community}
    (hf : ∀ c, sss.communities.get? p = some c → c.MacsOk → (f c).MacsOk) :
    (sss.modifyComm p f).MacsOk :=
  Table.All.modify h p fun c hget => hf c hget (h p c hget)

theorem MacsOk.modifyEdges (h : sss.MacsOk) (p : ℕ) {f : Table PeerInfo → Table PeerInfo}
    (hf : ∀ c, sss.communities.get? p = some c → PeersKeyed c.edges c.counts →
      PeersKeyed (f c.edges) c.counts) : (sss.modifyEdges p f).MacsOk :=
  h.modifyComm p fun c hget hc => hc.withEdges (hf c hget hc.edges)

theorem MacsOk.mapValues (h : sss.MacsOk) {f : Community → Community}
    (hf : ∀ c, (f c).isFederation = c.isFederation ∧ (f c).assoc = c.assoc ∧
      (f c).edges = c.edges) :
    { sss with communities := sss.communities.mapValues f }.MacsOk := by
  refine Table.All.mapValues h fun c hc => ?_
  obtain ⟨hfed, hassoc, hedges⟩ := hf c
  exact hc.congr hfed hassoc hedges

/-- Communities are kept with some of their edges, and with their associations. -/
theorem MacsOk.shrinks (h : sss.MacsOk) (hs : sss.Shrinks sss')
    (hassoc : ∀ p c', sss'.communities.get? p = some c' →
      ∃ c, sss.communities.get? p = some c ∧ c'.assoc = c.assoc) : sss'.MacsOk := by
  intro p c' hget
  rcases hs.comms p c' hget with ⟨c, hc, hkeeps, hsub⟩ | ⟨-, name, rfl⟩
  · obtain ⟨c₀, hc₀, hassoc⟩ := hassoc p c' hget
    obtain rfl := Option.some.inj (hc.symm.trans hc₀)
    have hok := h p c hc
    refine ⟨?_, by rw [hassoc]; exact hok.assoc⟩
    rw [Community.counts, hkeeps.isFederation]
    exact hsub.keyed hok.edges
  · exact newCommunity_macsOk name

end Sn

open Sn

theorem Community.withDynamicKey_tables (keyTime : UInt32) (fed : CommunityName) (c : Community) :
    (c.withDynamicKey keyTime fed).isFederation = c.isFederation ∧
      (c.withDynamicKey keyTime fed).assoc = c.assoc ∧
      (c.withDynamicKey keyTime fed).edges = c.edges := by
  unfold Community.withDynamicKey
  split_ifs <;> exact ⟨rfl, rfl, rfl⟩

/-- **Every act but `update_edge` keeps the keys.** -/
theorem Act.macsOk {w w' : World} (h : Act P U w w') (hw : w.sss.MacsOk)
    (hfed : ∀ c, w.sss.communities.get? w.sss.federation = some c → c.isFederation = true)
    (hU : U w w' → w'.sss.MacsOk) : w'.sss.MacsOk := by
  cases h with
  | surroundings | emit | noteKeyTime => exact hw
  | close fd _ =>
    refine hw.shrinks (.closeTcpConnection w.sss _) fun p c' hget => ?_
    obtain ⟨f, hf⟩ := closeTcpConnection_comms w.sss (w.sss.findConn fd) p
    replace hget := hf.symm.trans hget
    obtain ⟨c, hc, rfl⟩ := Option.map_eq_some_iff.mp hget
    exact ⟨c, hc, rfl⟩
  | drop p q => exact hw.modifyEdges p fun c _ hc => (SubTable.del c.edges q).keyed hc
  | purge p q e _ =>
    have hdel : (w.sss.modifyEdges p (·.del q)).MacsOk :=
      hw.modifyEdges p fun c _ hc => (SubTable.del c.edges q).keyed hc
    exact hdel.of_eq (w.sss.purgePeer_communities p q e)
  | comm p f hf hassoc =>
    refine hw.modifyComm p fun c _ hc => ?_
    have hassoc := hassoc c hc.assoc
    rw [hf c] at hassoc ⊢
    exact ⟨hc.edges, hassoc⟩
  | addComm name => exact Table.All.add hw (newCommunity_macsOk name)
  | delComm p _ => exact Table.All.del hw p
  | sortComms le =>
    exact Table.All.mapValues (Table.All.sort hw le) fun c hc => hc.congr rfl rfl rfl
  | sortEdges p le =>
    refine hw.modifyEdges p fun c _ hc => hc.of_kept fun q e he => ?_
    rw [Table.get?_sort] at he
    exact ⟨e, he, rfl, rfl⟩
  | federation f _ hkeyed =>
    refine hw.modifyEdges _ fun c hget hc => ?_
    rw [Sn.edges_of_get? hget] at hkeyed
    rw [Community.counts, if_pos (hfed c hget)] at hc ⊢
    exact hkeyed hc
  | keyTime t _ =>
    exact (hw.mapValues (Community.withDynamicKey_tables t w.sss.federationName)).of_eq rfl
  | update hU' _ _ => exact hU hU'

theorem Updates.macsOk {sss : Sn} {rx : Rx} {d : Dispatch} {w w' : World}
    (h : Updates sss rx d w w') (hw : w.sss.MacsOk) : w'.sss.MacsOk := by
  obtain ⟨-, c, hget, -, -, rfl⟩ := h
  rw [World.updateEdgeAt_sss]
  refine hw.modifyEdges _ fun c' hget' hc => ?_
  obtain rfl := Option.some.inj (hget.symm.trans hget')
  exact updateEdge_keyed hc _ _ _ _ _ _

theorem Checked.macsOk {w w₁ : World} {d : Dispatch} (h : Checked w d w₁) (hw : w.sss.MacsOk) :
    w₁.sss.MacsOk := by
  rcases h.cases with heq | ⟨p, q, stamp, heq⟩
  · exact hw.of_eq (congrArg Sn.communities heq)
  · rw [heq]
    exact hw.modifyEdges p fun c _ hc => hc.modify q (fun _ => rfl) fun _ => rfl

theorem Sn.openHeader_macsOk {sss : Sn} (h : sss.MacsOk) (rx : Rx) :
    (sss.openHeader rx).1.MacsOk := by
  rcases sss.openHeader_cases rx with heq | ⟨p, c, -, ⟨-, heq⟩ | heq⟩ <;> rw [heq]
  · exact h
  · exact h.modifyComm p fun _ _ hc => hc.congr rfl rfl rfl
  · exact h.modifyComm p fun _ _ hc => hc.congr rfl rfl rfl

/-! ### Runs -/

/-- Tables in order, and the pointer to the federation with them. -/
structure TablesOk (w : World) : Prop where
  macs : w.sss.MacsOk
  edges : w.sss.EdgesOk

theorem TablesOk.act {w w' : World} (hw : TablesOk w) (h : Act P U w w')
    (hU : U w w' → TablesOk w') : TablesOk w' :=
  ⟨h.macsOk hw.macs hw.edges.pointer fun hu => (hU hu).macs,
    h.edgesOk hw.edges fun hu => (hU hu).edges⟩

theorem TablesOk.rests {w w' : World} (hw : TablesOk w) (h : Rests w w') : TablesOk w' where
  macs := hw.macs.shrinks h.shrinks fun p c' hget => by
    obtain ⟨c, hc, heq⟩ := h.get? p c' hget
    exact ⟨c, hc, by rw [heq]⟩
  edges := hw.edges.shrink (h.shrinks.edgesShrink h.sock h.federation)

theorem TablesOk.processUdp {w : World} (hw : TablesOk w) (rx : Rx) :
    TablesOk (w.processUdp rx) := by
  have hw₁ : TablesOk (w.opened rx) :=
    ⟨openHeader_macsOk hw.macs rx, hw.edges.shrink (w.sss.openHeader_edges rx)⟩
  unfold World.processUdp
  cases w.dispatched rx with
  | none => exact hw₁
  | some d =>
    obtain ⟨w₁, hcheck, hacts⟩ := (w.opened rx).dispatch_acts rx d (P := fun _ => True)
      (U := Updates (w.opened rx).sss rx d) (fun _ _ => trivial) (fun _ _ _ _ => trivial)
      fun _ _ _ h => h
    have hw₂ : TablesOk w₁ := ⟨hcheck.macsOk hw₁.macs, hw₁.edges.shrink hcheck.edgesShrink⟩
    exact hacts.invariant (fun _ _ hv hact => hv.act hact fun hu =>
      ⟨hu.macsOk hv.macs, hu.edgesOk hv.edges⟩) hw₂

/-- **One event.** -/
theorem TablesOk.step {w : World} (hw : TablesOk w) (event : SnEvent) :
    TablesOk (snStep w event) :=
  snStep_keeps hw
    (fun _ _ hv hr => hv.rests hr) (fun _ _ hv hact => hv.act hact False.elim)
    fun _ rx hv _ _ _ _ => hv.processUdp rx

theorem isNullMac_nullMac : ¬ KnownMac nullMac := by
  unfold KnownMac
  decide

/-- A supernode as `main` starts it: the MACs of the supernodes that were named for the
federation are not known, and nothing is associated. -/
structure SnLoaded (w : World) : Prop extends SnStarted w where
  unnamed : ∀ p c, w.sss.communities.get? p = some c → ∀ e ∈ c.edges,
    e.macAddr = nullMac ∧ e.hashKey = nullMac
  unassociated : ∀ p c, w.sss.communities.get? p = some c → c.assoc.entries = []

/-- The runs of a supernode from such a state. -/
def snFresh : Machine World SnEvent := { snMachine with init := SnLoaded }

theorem TablesOk.loaded {w : World} (h : SnLoaded w) : TablesOk w where
  edges := .started h.toSnStarted
  macs := by
    intro p c hget
    refine ⟨⟨fun e he => ?_, fun q e q' e' he he' _ hcounts => ?_⟩, fun q a q' a' ha => ?_⟩
    · obtain ⟨hmac, hkey⟩ := h.unnamed p c hget e he
      rw [hmac, hkey]
    · cases hfed : c.isFederation with
      | true =>
        -- a supernode whose MAC is known: there is none yet
        rw [Community.counts, if_pos hfed, (h.unnamed p c hget e (Table.mem_of_get? he)).1]
          at hcounts
        exact absurd hcounts isNullMac_nullMac
      | false =>
        have hmem := Table.get?_eq_some.mp he
        rw [h.edges p c hget hfed] at hmem
        cases hmem
    · have hmem := Table.get?_eq_some.mp ha
      rw [h.unassociated p c hget] at hmem
      cases hmem

/-- **The keys of a supernode.** In every reachable state the edges of a community have distinct
MACs and are hashed under them, the supernodes of the federation have distinct MACs as far as
these are known, and the associations have distinct MACs. -/
theorem macs_of_reach {w : World} (h : snFresh.Reach anyStep w) {p : ℕ} {c : Community}
    (hget : w.sss.communities.get? p = some c) :
    (c.isFederation = false →
      c.edges.DistinctOn PeerInfo.macAddr (fun _ => True) ∧ ∀ e ∈ c.edges, e.hashKey = e.macAddr) ∧
    (c.isFederation = true → c.edges.DistinctOn PeerInfo.macAddr KnownMac) ∧
    c.assoc.DistinctOn Assoc.mac (fun _ => True) := by
  have hw : TablesOk w := h.invariant (fun _ => .loaded) fun _ event hw _ _ => hw.step event
  obtain ⟨⟨hhashed, hdistinct⟩, hassoc⟩ := hw.macs p c hget
  refine ⟨fun hfed => ⟨?_, hhashed⟩, fun hfed => ?_, hassoc⟩
  · rwa [Community.counts, hfed, if_neg Bool.false_ne_true] at hdistinct
  · rwa [Community.counts, if_pos hfed] at hdistinct

theorem netSn_loaded : SnLoaded (.start netSn) where
  toSnStarted := netSn_started
  unnamed := by
    intro p c hget e he
    rcases netSn_get? hget with ⟨-, rfl⟩ | ⟨-, rfl⟩ <;> cases he
  unassociated := by
    intro p c hget
    rcases netSn_get? hget with ⟨-, rfl⟩ | ⟨-, rfl⟩ <;> rfl

instance (w : World) (event : SnEvent) : Decidable (snFresh.enabled w event) :=
  inferInstanceAs (Decidable (SnEnabled w event))

/-- Two edges of the community "net" register. -/
def twoEdges : List SnEvent :=
  [.udp (hostSock 1 5000) (hostDatagram 1) 100 zeroStack,
    .udp (hostSock 2 5000) (hostDatagram 2) 100 zeroStack]

theorem macs_twoEdges : ∃ c,
    (twoEdges.foldl snStep (.start netSn)).sss.communities.get? 1 = some c ∧
    c.edges.entries.length = 2 ∧
    (c.isFederation = false → c.edges.DistinctOn PeerInfo.macAddr (fun _ => True) ∧
      ∀ e ∈ c.edges, e.hashKey = e.macAddr) := by
  have hreach : snFresh.Reach anyStep (twoEdges.foldl snStep (.start netSn)) :=
    Machine.Reach.runs (M := snFresh) (.init netSn_loaded) (by decide +kernel)
  have hsome : ((twoEdges.foldl snStep (.start netSn)).sss.communities.get? 1).map
      (·.edges.entries.length) = some 2 := by
    decide +kernel
  obtain ⟨c, hget, htwo⟩ := Option.map_eq_some_iff.mp hsome
  exact ⟨c, hget, htwo, (macs_of_reach hreach hget).1⟩

end N2n
