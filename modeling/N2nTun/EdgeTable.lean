import N2nTun.ActEffects

/-!
# The edges of a supernode

What is true of the tables of edges in every state, whatever messages come in: no two edges
of a community have the same MAC, and the pointer to the federation is right.

## Main definitions

* `Sn.EdgesShrink` — no edge is new, and none has another MAC or descriptor.
* `Sn.EdgesOk` — the invariant.

## Main results

* `Sn.EdgesOk.shrink`, `Sn.EdgesOk.federation`, `Sn.EdgesOk.update` — it is kept.
* `Act.edgesOk` — **every act keeps it.**
-/

namespace N2n

variable {P : Emission → Prop} {U : World → World → Prop}

namespace Sn

/-- The entries of `t'` are entries of `t` that keep their MAC and their descriptor. -/
def EntriesKept (t t' : Table PeerInfo) : Prop :=
  ∀ q e', t'.get? q = some e' →
    ∃ e, t.get? q = some e ∧ e'.macAddr = e.macAddr ∧ e'.socketFd = e.socketFd

/-- The tables `sss'` hold no descriptors that are not in `sss`. -/
structure EdgesShrink (sss sss' : Sn) : Prop where
  sock : sss'.sock = sss.sock
  federation : sss'.federation = sss.federation
  next : sss.communities.next ≤ sss'.communities.next
  comms : ∀ p c', sss'.communities.get? p = some c' →
    (∃ c, sss.communities.get? p = some c ∧ c'.isFederation = c.isFederation ∧
      EntriesKept c.edges c'.edges) ∨
    sss.communities.next ≤ p ∧ ∃ name, c' = newCommunity name

variable {sss sss' : Sn}

theorem Shrinks.edgesShrink (h : sss.Shrinks sss') (hsock : sss'.sock = sss.sock)
    (hfed : sss'.federation = sss.federation) : EdgesShrink sss sss' := by
  refine ⟨hsock, hfed, h.next, fun p c' hget => ?_⟩
  rcases h.comms p c' hget with ⟨c, hc, hkeeps, hsub⟩ | hnew
  · exact Or.inl ⟨c, hc, hkeeps.isFederation, fun q e hq => ⟨e, hsub q e hq, rfl, rfl⟩⟩
  · exact Or.inr hnew

namespace EdgesShrink

theorem isTcp (h : EdgesShrink sss sss') (fd : ℤ) : sss'.isTcp fd = sss.isTcp fd := by
  rw [Sn.isTcp, Sn.isTcp, h.sock]

theorem edgeAt (h : EdgesShrink sss sss') {p q : ℕ} {e' : PeerInfo}
    (he : sss'.edgeAt p q = some e') :
    ∃ e, sss.edgeAt p q = some e ∧ e'.macAddr = e.macAddr ∧ e'.socketFd = e.socketFd := by
  obtain ⟨c', hget', hc', hq⟩ := edgeAt_eq_some.mp he
  rcases h.comms p c' hget' with ⟨c, hget, hflag, hkept⟩ | ⟨-, name, rfl⟩
  · obtain ⟨e, he, hmac, hfd⟩ := hkept q e' hq
    exact ⟨e, edgeAt_eq_some.mpr ⟨c, hget, hflag ▸ hc', he⟩, hmac, hfd⟩
  · exact absurd hq (by simp [newCommunity, Community.zero])

end EdgesShrink

theorem EdgesShrink.of_eq (hcomms : sss'.communities = sss.communities)
    (hsock : sss'.sock = sss.sock) (hfed : sss'.federation = sss.federation) :
    EdgesShrink sss sss' :=
  (Shrinks.of_eq hcomms).edgesShrink hsock hfed

theorem EdgesShrink.refl (sss : Sn) : EdgesShrink sss sss := .of_eq rfl rfl rfl

/-- A write to one community. -/
theorem EdgesShrink.modifyComm (sss : Sn) (p : ℕ) {f : Community → Community}
    (hf : ∀ c, (f c).isFederation = c.isFederation ∧ EntriesKept c.edges (f c).edges) :
    EdgesShrink sss (sss.modifyComm p f) := by
  refine ⟨rfl, rfl, le_rfl, fun q c' hget => ?_⟩
  rw [Sn.modifyComm, Table.get?_modify] at hget
  split_ifs at hget
  · obtain ⟨c, hc, rfl⟩ := Option.map_eq_some_iff.mp hget
    exact Or.inl ⟨c, hc, hf c⟩
  · exact Or.inl ⟨c', hget, rfl, fun q e he => ⟨e, he, rfl, rfl⟩⟩

/-- The first stage of `process_udp` leaves the edges alone. -/
theorem openHeader_edges (sss : Sn) (rx : Rx) : EdgesShrink sss (sss.openHeader rx).1 := by
  have hkept : ∀ t : Table PeerInfo, EntriesKept t t := fun _ q e he => ⟨e, he, rfl, rfl⟩
  rcases sss.openHeader_cases rx with heq | ⟨p, c, -, ⟨-, heq⟩ | heq⟩
  · rw [heq]
    exact .refl sss
  · rw [heq]
    exact .modifyComm sss p fun c => ⟨rfl, hkept c.edges⟩
  · rw [heq]
    exact .modifyComm sss p fun c => ⟨rfl, hkept c.edges⟩

theorem openHeader_edgeAt (sss : Sn) (rx : Rx) (p q : ℕ) :
    (sss.openHeader rx).1.edgeAt p q = sss.edgeAt p q := by
  have hsame : ∀ r (f : Community → Community), (∀ c, (f c).isFederation = c.isFederation) →
      (∀ c, (f c).edges = c.edges) → (sss.modifyComm r f).edgeAt p q = sss.edgeAt p q := by
    intro r f hflag hedges
    unfold Sn.edgeAt Sn.modifyComm
    dsimp only
    rw [Table.get?_modify]
    split_ifs
    · cases sss.communities.get? p with
      | none => rfl
      | some c => simp [hflag, hedges]
    · rfl
  rcases sss.openHeader_cases rx with heq | ⟨r, c, -, ⟨-, heq⟩ | heq⟩
  · rw [heq]
  · rw [heq]
    exact hsame r _ (fun _ => rfl) fun _ => rfl
  · rw [heq]
    exact hsame r _ (fun _ => rfl) fun _ => rfl

/-- The invariant. -/
structure EdgesOk (sss : Sn) : Prop where
  macs : ∀ p q e q' e', sss.edgeAt p q = some e → sss.edgeAt p q' = some e' →
    e.macAddr = e'.macAddr → q = q'
  pointer : ∀ c, sss.communities.get? sss.federation = some c → c.isFederation = true
  allocated : sss.federation < sss.communities.next

theorem EdgesOk.shrink (h : sss.EdgesOk) (hs : EdgesShrink sss sss') : sss'.EdgesOk where
  macs := by
    intro p q e' q₂ e₂' he' he₂' heq
    obtain ⟨e, he, hmac, -⟩ := hs.edgeAt he'
    obtain ⟨e₂, he₂, hmac₂, -⟩ := hs.edgeAt he₂'
    exact h.macs p q e q₂ e₂ he he₂ (by rw [← hmac, ← hmac₂, heq])
  pointer := by
    intro c' hget'
    rw [hs.federation] at hget'
    rcases hs.comms _ c' hget' with ⟨c, hget, hflag, -⟩ | ⟨hnew, -⟩
    · rw [hflag]
      exact h.pointer c hget
    · exact absurd hnew (Nat.not_le.mpr h.allocated)
  allocated := by
    rw [hs.federation]
    exact lt_of_lt_of_le h.allocated hs.next

/-- A write to the edges of a community leaves the flag of the federation alone. -/
theorem modifyEdges_get? {comm p : ℕ} {f : Table PeerInfo → Table PeerInfo} {c' : Community}
    (h : (sss.modifyEdges comm f).communities.get? p = some c') :
    ∃ c, sss.communities.get? p = some c ∧ c'.isFederation = c.isFederation ∧
      (p = comm ∧ c' = { c with edges := f c.edges } ∨ p ≠ comm ∧ c' = c) := by
  rw [Sn.modifyEdges, Sn.modifyComm, Table.get?_modify] at h
  split_ifs at h with hp
  · obtain ⟨c, hc, rfl⟩ := Option.map_eq_some_iff.mp h
    exact ⟨c, hc, rfl, Or.inl ⟨hp, rfl⟩⟩
  · exact ⟨c', h, rfl, Or.inr ⟨hp, rfl⟩⟩

theorem EdgesOk.federation (h : sss.EdgesOk) (f : Table PeerInfo → Table PeerInfo) :
    (sss.modifyEdges sss.federation f).EdgesOk where
  macs := by
    intro p q e q' e' he he' heq
    rw [edgeAt_modifyEdges_federation h.pointer] at he he'
    exact h.macs p q e q' e' he he' heq
  pointer := by
    intro c' hget'
    obtain ⟨c, hget, hflag, -⟩ := modifyEdges_get? hget'
    rw [hflag]
    exact h.pointer c hget
  allocated := h.allocated

/-- The edges after one of them has been touched by `update_edge`. -/
theorem edgeAt_updated {comm q₀ : ℕ} {c : Community} {mac : Mac} {fd : ℤ} {t : Table PeerInfo}
    {e₀ : PeerInfo} (hget : sss.communities.get? comm = some c) (hc : c.isFederation = false)
    (hu : UpdatedAt c.edges t mac fd q₀ e₀) {p q : ℕ} {e : PeerInfo}
    (he : (sss.modifyEdges comm fun _ => t).edgeAt p q = some e) :
    p = comm ∧ q = q₀ ∧ e = e₀ ∨ (p ≠ comm ∨ q ≠ q₀) ∧ sss.edgeAt p q = some e := by
  rw [edgeAt_modifyEdges hget hc] at he
  split_ifs at he with hp
  · by_cases hq : q = q₀
    · rw [hq, hu.get?] at he
      exact Or.inl ⟨hp, hq, (Option.some.inj he).symm⟩
    · rw [hu.other q hq] at he
      rw [hp, edgeAt_of_get? hget hc]
      exact Or.inr ⟨Or.inr hq, he⟩
  · exact Or.inr ⟨Or.inl hp, he⟩

section

variable {comm q₀ : ℕ} {c : Community} {mac : Mac} {fd : ℤ} {t : Table PeerInfo} {e₀ : PeerInfo}

/-- No other edge of the community has the MAC of the registration. -/
theorem EdgesOk.mac_ne (h : sss.EdgesOk) (hget : sss.communities.get? comm = some c)
    (hc : c.isFederation = false) (hu : UpdatedAt c.edges t mac fd q₀ e₀) {q : ℕ} {e : PeerInfo}
    (he : sss.edgeAt comm q = some e) (hq : q ≠ q₀) : e.macAddr ≠ mac := by
  intro hmac
  have hedge := edgeAt_of_get? hget hc
  have hfound : c.edges.find? (·.hasMac mac) ≠ none := by
    intro hnone
    rw [hedge] at he
    have hno := Table.find?_eq_none.mp hnone e (Table.mem_of_get? he)
    simp [PeerInfo.hasMac, hmac] at hno
  rcases hu.origin with ⟨e₁, he₁, -, -, hmac₁ | hnone⟩ | ⟨-, hnone, -⟩
  · rw [← hedge] at he₁
    exact hq (h.macs comm q e q₀ e₁ he he₁ (hmac.trans hmac₁.symm))
  · exact hfound hnone
  · exact hfound hnone

theorem EdgesOk.update (h : sss.EdgesOk) (hget : sss.communities.get? comm = some c)
    (hc : c.isFederation = false) (hu : UpdatedAt c.edges t mac fd q₀ e₀) :
    (sss.modifyEdges comm fun _ => t).EdgesOk where
  macs := by
    intro p q e q' e' he he' heq
    rcases edgeAt_updated hget hc hu he with ⟨rfl, rfl, rfl⟩ | ⟨hne, hold⟩ <;>
      rcases edgeAt_updated hget hc hu he' with ⟨hp, rfl, rfl⟩ | ⟨hne', hold'⟩
    · rfl
    · have hq : q' ≠ q := by simpa using hne'
      exact absurd (heq.symm.trans hu.mac_eq) (h.mac_ne hget hc hu hold' hq)
    · subst hp
      have hq : q ≠ q' := by simpa using hne
      exact absurd (heq.trans hu.mac_eq) (h.mac_ne hget hc hu hold hq)
    · exact h.macs p q e q' e' hold hold' heq
  pointer := by
    intro c' hget'
    obtain ⟨c₀, hc₀, hflag, -⟩ := modifyEdges_get? hget'
    rw [hflag]
    exact h.pointer c₀ hc₀
  allocated := h.allocated

end

end Sn

open Sn

theorem Checked.edgesShrink {w w₁ : World} {d : Dispatch} (h : Checked w d w₁) :
    EdgesShrink w.sss w₁.sss := by
  rcases h.cases with heq | ⟨p, q, stamp, heq⟩
  · rw [heq]
    exact .refl w.sss
  · rw [heq]
    refine .modifyComm w.sss p fun c => ⟨rfl, fun r e' he' => ?_⟩
    rw [Table.get?_modify] at he'
    split_ifs at he'
    · obtain ⟨e, he, rfl⟩ := Option.map_eq_some_iff.mp he'
      exact ⟨e, he, rfl, rfl⟩
    · exact ⟨e', he', rfl, rfl⟩

/-- What a registration does to the edges: nothing, or `update_edge` has touched one. -/
theorem Updates.cases {sss : Sn} {rx : Rx} {d : Dispatch} {w w' : World}
    (h : Updates sss rx d w w') :
    w'.sss = w.sss ∨
      ∃ c t q e, w.sss.communities.get? (d.target sss) = some c ∧ c.isFederation = false ∧
        w'.sss = w.sss.modifyEdges (d.target sss) (fun _ => t) ∧
        UpdatedAt c.edges t d.registerSuper.edgeMac rx.socketFd q e := by
  obtain ⟨-, c, hget, hc, -, rfl⟩ := h
  rw [World.updateEdgeAt_sss]
  rcases updateEdge_cases with heq | ⟨q, e, hu⟩
  · left
    unfold World.callUpdateEdge
    rw [heq, Sn.modifyEdges, Sn.modifyComm, (Table.modify_eq_self_iff hget).mpr rfl]
  · exact Or.inr ⟨c, _, q, e, hget, hc, rfl, hu⟩

/-- **Every act but `update_edge` keeps the invariant.** -/
theorem Act.edgesOk {w w' : World} (h : Act P U w w') (hw : w.sss.EdgesOk)
    (hU : U w w' → w'.sss.EdgesOk) : w'.sss.EdgesOk := by
  rcases h.shrinks with hs | ⟨f, -, rfl⟩ | hupdate
  · exact hw.shrink (hs.edgesShrink h.sock_eq h.federation_eq)
  · exact hw.federation f
  · exact hU hupdate

theorem Updates.edgesOk {sss : Sn} {rx : Rx} {d : Dispatch} {w w' : World}
    (h : Updates sss rx d w w') (hw : w.sss.EdgesOk) : w'.sss.EdgesOk := by
  rcases h.cases with hsss | ⟨c, t, q, e, hget, hc, hsss, hu⟩
  · rwa [hsss]
  · rw [hsss]
    exact hw.update hget hc hu

end N2n
