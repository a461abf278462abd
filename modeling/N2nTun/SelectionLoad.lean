import N2nTun.SnSelection
import N2nTun.SnMachine
import N2nTun.TransportState
import N2nTun.TrialOrder

/-!
# Selection by load

The load is converted four times on its way: `htobe64` on the supernode, the cut to the 32 bits of
the field, the order of the network, `be32toh` on the edge.  On a little-endian host the first two
leave nothing of it: the low 32 bits of what `htobe64` returns are the high ones of the load.

## Main definitions

* `SelectsByLoad` — two PONGs and their criteria.
* `Ping.LoadSurvives` — the load keeps its value.

## Main results

* `pongCriterion_toNat` — the criterion of a supernode that is not the current one.
* `Ping.be32toh_received_iff` — **when the load arrives.**
* `selectsByLoad_iff` — **when the edge selects by load.**
-/

namespace N2n

open Bytes

/-! ### The property -/

/-- The common data is what `sn_selection_criterion_common_data_default` has set. -/
def EdgeSelection.HasCommonData (e : EdgeSelection) : Prop :=
  ∃ e₀ : EdgeSelection, e₀.snSelectionStrategy = .load ∧
    e.commonData = e₀.commonDataDefault.commonData

/-- The criterion that an edge computes from the answer to a PING. -/
def EdgeSelection.criterionOf (e : EdgeSelection) (o : ByteOrder) (p : ℕ) (a : Ping) : UInt64 :=
  (e.pongCriterion o p (readPeerInfo a.bytes)).2

/-- The criteria of two supernodes are their loads and the common data; the smaller load has the
smaller one. -/
structure SelectsByLoad (e : EdgeSelection) (o : ByteOrder) (p q : ℕ) (a b : Ping) : Prop where
  first : (e.criterionOf o p a).toNat = a.load + e.commonData.toNat
  second : (e.criterionOf o q b).toNat = b.load + e.commonData.toNat
  less : a.load < b.load → e.criterionOf o p a < e.criterionOf o q b

/-- Nothing is lost of the load: there is none, if the supernode is a little-endian host; and if it
is a big-endian one, the edge is one too, or the bytes of the load read the same from both ends. -/
def Ping.LoadSurvives (o : ByteOrder) (a : Ping) : Prop :=
  match a.host with
  | .little => a.load = 0
  | .big => o = .big ∨ leBytes32 (UInt32.ofNat a.load) = bytes32 (UInt32.ofNat a.load)

/-! ### The criterion -/

section

variable {e : EdgeSelection} {o : ByteOrder} {p q : ℕ} {a b : Ping}

/-- The common data leaves room for a load of 32 bits. -/
theorem EdgeSelection.HasCommonData.lt (h : e.HasCommonData) : e.commonData.toNat < 2 ^ 33 := by
  obtain ⟨e₀, hstrategy, hcommon⟩ := h
  have hcount := (hashCount e₀.pendingPeers).toNat_lt
  have htmp : (if e₀.conf.headerEncryption then (hashCount e₀.pendingPeers).toUInt64 * 2
      else (hashCount e₀.pendingPeers).toUInt64).toNat < 2 ^ 33 := by
    split_ifs
    · rw [UInt64.toNat_mul, UInt32.toNat_toUInt64]
      exact (Nat.mod_le _ _).trans_lt (by
        show (hashCount e₀.pendingPeers).toNat * 2 < 2 ^ 33
        omega)
    · rw [UInt32.toNat_toUInt64]
      omega
  rw [hcommon, EdgeSelection.commonDataDefault, hstrategy]
  dsimp only
  rw [UInt64.toNat_div]
  exact (Nat.div_le_self _ _).trans_lt htmp

/-- **The criterion of a supernode that is not the current one.** -/
theorem pongCriterion_toNat (hstrategy : e.snSelectionStrategy = .load) (hcommon : e.HasCommonData)
    (hp : p ≠ e.currSn) (pi : PeerInfoMsg) :
    (e.pongCriterion o p pi).2.toNat = (o.be32toh pi.load).toNat + e.commonData.toNat := by
  have hload := (o.be32toh pi.load).toNat_lt
  have hlt := hcommon.lt
  rw [EdgeSelection.pongCriterion, EdgeSelection.criterion, hstrategy]
  dsimp only
  rw [if_neg hp, UInt32.toUInt32_toUInt64, UInt64.toNat_add, UInt32.toNat_toUInt64]
  exact Nat.mod_eq_of_lt (by omega)

/-- **When the load arrives.** -/
theorem Ping.be32toh_received_iff (hload : a.load < 2 ^ 32) :
    (o.be32toh (readPeerInfo a.bytes).load).toNat = a.load ↔ a.LoadSurvives o := by
  have hword : (UInt64.ofNat a.load).toNat = a.load :=
    UInt64.toNat_ofNat_of_lt' (by rw [UInt64.size]; omega)
  have hfield : (UInt32.ofNat a.load).toNat = a.load := UInt32.toNat_ofNat_of_lt' hload
  have hcut : (UInt64.ofNat a.load).toUInt32 = UInt32.ofNat a.load := by
    apply UInt32.toNat_inj.mp
    rw [UInt64.toNat_toUInt32, hword, hfield, Nat.mod_eq_of_lt hload]
  have hself : ∀ v : UInt32, v.toNat = a.load ↔ v = UInt32.ofNat a.load := by
    intro v
    constructor
    · intro h
      exact UInt32.toNat_inj.mp (h.trans hfield.symm)
    · rintro rfl
      exact hfield
  rw [a.received_eq, World.gatherDataOn]
  change (o.be32toh (a.host.htobe64 (UInt64.ofNat a.load)).toUInt32).toNat = a.load ↔ _
  unfold LoadSurvives
  cases a.host with
  | little =>
    -- the field is zero, in any order
    have hzero : o.be32toh 0 = 0 := by
      cases o
      · decide
      · decide
    rw [ByteOrder.toUInt32_htobe64_little (by rw [hword]; exact hload), hzero]
    exact eq_comm
  | big =>
    dsimp only
    rw [ByteOrder.htobe64_big, hcut, hself]
    cases o with
    | little =>
      rw [ByteOrder.be32toh_little_iff]
      simp
    | big => simp

/-- **When the edge selects by load**, of two supernodes that are not its current one. -/
theorem selectsByLoad_iff (hstrategy : e.snSelectionStrategy = .load) (hcommon : e.HasCommonData)
    (hp : p ≠ e.currSn) (hq : q ≠ e.currSn) (ha : a.load < 2 ^ 32) (hb : b.load < 2 ^ 32) :
    SelectsByLoad e o p q a b ↔ a.LoadSurvives o ∧ b.LoadSurvives o := by
  have hfirst := pongCriterion_toNat (o := o) hstrategy hcommon hp (readPeerInfo a.bytes)
  have hsecond := pongCriterion_toNat (o := o) hstrategy hcommon hq (readPeerInfo b.bytes)
  rw [← Ping.be32toh_received_iff ha, ← Ping.be32toh_received_iff hb]
  constructor
  · intro h
    have hfirst' := h.first
    have hsecond' := h.second
    rw [EdgeSelection.criterionOf] at hfirst' hsecond'
    constructor
    · omega
    · omega
  · rintro ⟨hleft, hright⟩
    rw [hleft] at hfirst
    rw [hright] at hsecond
    refine ⟨hfirst, hsecond, fun hless => ?_⟩
    rw [UInt64.lt_iff_toNat_lt, EdgeSelection.criterionOf, EdgeSelection.criterionOf, hfirst,
      hsecond]
    omega

end

/-! ### Two supernodes -/

/-- An edge that has just started and selects by load. -/
def loadEdge : EdgeSelection where
  toEdge := startedEdge false sparedSockets
  snSelectionStrategy := .load
  commonData := 0

/-- A PING from the host 192.0.2.1 to the supernode `sss`. -/
def pingTo (sss : Sn) : Ping where
  host := .little
  world := .start sss
  rx := ⟨hostSock 1 5000, 3, [], 100, zeroStack⟩
  dispatch := ⟨none, .plain, 0, [], [], ⟨2, msgTypeQueryPeer, 0, homeName⟩, ⟨0, 0⟩, none⟩
  query := ⟨0, nullMac, nullMac⟩
  target := by decide
  sender := .inl rfl

theorem loadEdge_hasCommonData : loadEdge.HasCommonData := ⟨loadEdge, rfl, by decide⟩

theorem selectsByLoad_idle :
    SelectsByLoad loadEdge .little 1 1 (pingTo idleSn) (pingTo idleSn) :=
  (selectsByLoad_iff (e := loadEdge) (p := 1) (q := 1) (a := pingTo idleSn) (b := pingTo idleSn) rfl
    loadEdge_hasCommonData (by decide) (by decide) (by decide) (by decide)).mpr
      ⟨show (pingTo idleSn).load = 0 by decide, show (pingTo idleSn).load = 0 by decide⟩

/-- A supernode with one community, whose headers are encrypted. -/
def oneCommunitySn : Sn :=
  { idleSn with communities := Table.empty.add (keyedComm homeName) }

/-- The load of two is not in the PONG. -/
theorem not_selectsByLoad_oneCommunity :
    ¬ SelectsByLoad loadEdge .little 1 1 (pingTo idleSn) (pingTo oneCommunitySn) := by
  intro h
  have hload : (pingTo oneCommunitySn).load = 2 := by decide
  have hcriterion : (loadEdge.criterionOf .little 1 (pingTo oneCommunitySn)).toNat = 0 := by
    rw [EdgeSelection.criterionOf, pongCriterion_toNat rfl loadEdge_hasCommonData (by decide),
      Ping.received_eq]
    decide
  have hsecond := h.second
  rw [hcriterion, hload] at hsecond
  omega

end N2n
