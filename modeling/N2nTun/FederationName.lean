import N2nTun.KeyAgreement

/-!
# The federation among the communities

The name of the federation begins with a character that no community from the file and no other
name a supernode starts with has, and the federation is the one community that a load of the
file leaves.

## Main definitions

* `Sn.FederationNamed` — the invariant.
* `snNamedMachine` — the runs of a supernode whose federation has a name.

## Main results

* `federationNamed_of_reach` — the invariant holds in every run.
* `World.beforeLines_federation` — **only the federation is there before the first line.**
-/

namespace N2n

open Machines

/-! ### The invariant -/

/-- There is at most one federation, and its name begins as it has to. -/
def Sn.FederationNamed (sss : Sn) : Prop :=
  ∀ p c, sss.communities.get? p = some c → c.isFederation = true →
    p = sss.federation ∧ c.community.toList.headD 0 = 0x2a

namespace Sn

variable {sss sss' : Sn}

theorem FederationNamed.kept (hsss : sss.FederationNamed) (h : sss.KeysKept sss') :
    sss'.FederationNamed := by
  intro p c' hget hc'
  rcases h.comms p c' hget with ⟨c, hget', hsame⟩ | ⟨-, name, rfl⟩
  · have hc := hsss p c hget' (hsame.isFederation.symm.trans hc')
    rw [h.federation, hsame.community]
    exact hc
  · -- a community that has just been brought up is no federation
    cases hc'

/-- A write to all communities that keeps their names. -/
theorem FederationNamed.mapValues (hsss : sss.FederationNamed) {f : Community → Community}
    (hf : ∀ c, (f c).community = c.community ∧ (f c).isFederation = c.isFederation) :
    { sss with communities := sss.communities.mapValues f }.FederationNamed := by
  intro p c' hget hc'
  replace hget : (sss.communities.mapValues f).get? p = some c' := hget
  rw [Table.get?_mapValues] at hget
  obtain ⟨c, hc, rfl⟩ := Option.map_eq_some_iff.mp hget
  rw [(hf c).1]
  exact hsss p c hc ((hf c).2.symm.trans hc')

theorem FederationNamed.calculateDynamicKeys (hsss : sss.FederationNamed) :
    sss.calculateDynamicKeys.FederationNamed :=
  hsss.mapValues fun c =>
    have h := withDynamicKey_same sss.dynamicKeyTime sss.federationName c
    ⟨h.1, h.2.1⟩

theorem FederationNamed.calculateSharedSecrets (hsss : sss.FederationNamed)
    (secret : List UInt8 → List UInt8) : (sss.calculateSharedSecrets secret).FederationNamed := by
  refine hsss.mapValues fun c => ?_
  split_ifs <;> exact ⟨rfl, rfl⟩

/-- A write to one community that keeps its name. -/
theorem FederationNamed.modifyComm (hsss : sss.FederationNamed) (p : ℕ)
    {f : Community → Community}
    (hf : ∀ c, (f c).community = c.community ∧ (f c).isFederation = c.isFederation) :
    (sss.modifyComm p f).FederationNamed := by
  intro q c' hget hc'
  rw [Sn.modifyComm, Table.get?_modify] at hget
  split_ifs at hget
  · obtain ⟨c, hc, rfl⟩ := Option.map_eq_some_iff.mp hget
    rw [(hf c).1]
    exact hsss q c hc ((hf c).2.symm.trans hc')
  · exact hsss q c' hget hc'

theorem FederationNamed.del (hsss : sss.FederationNamed) (p : ℕ) :
    { sss with communities := sss.communities.del p }.FederationNamed := by
  intro q c hget hc
  replace hget : (sss.communities.del p).get? q = some c := hget
  rw [Table.get?_del] at hget
  split_ifs at hget
  exact hsss q c hget hc

theorem FederationNamed.unloadEdge (hsss : sss.FederationNamed) (comm p : ℕ) (fd : ℤ) :
    (sss.unloadEdge comm p fd).FederationNamed := by
  unfold Sn.unloadEdge
  split_ifs
  · exact hsss.kept (.closeTcpConnection sss _)
  · exact hsss.kept (.modifyEdges sss comm _)

/-- A community from the file is no federation. -/
theorem FederationNamed.add (hsss : sss.FederationNamed) (name : List UInt8) :
    { sss with communities := sss.communities.add (loadedCommunity name) }.FederationNamed := by
  intro p c hget hc
  replace hget : (sss.communities.add (loadedCommunity name)).get? p = some c := hget
  rw [Table.get?_add] at hget
  split_ifs at hget
  · rw [← Option.some.inj hget] at hc
    cases hc
  · exact hsss p c hget hc

/-- **One line.** -/
theorem FederationNamed.line {l : Loading} (h : l.sss.FederationNamed) (line : CommunityLine) :
    (l.line line).sss.FederationNamed := by
  cases line with
  | rule rule => exact h
  | user publicKey rule =>
    dsimp only [Loading.line]
    cases l.lastAddedComm with
    | none => exact h
    | some p => exact h.modifyComm p fun _ => ⟨rfl, rfl⟩
  | community name net =>
    dsimp only [Loading.line, Loading.addCommunity]
    cases net with
    | some net => exact (h.add name).modifyComm _ fun _ => ⟨rfl, rfl⟩
    | none => exact (h.add name).modifyComm _ fun _ => ⟨rfl, rfl⟩

theorem FederationNamed.keyStep {w w' : World} (hw : w.sss.FederationNamed)
    (h : KeyStep w w') : w'.sss.FederationNamed := by
  cases h with
  | kept h _ | noted h _ _ _ => exact hw.kept h
  | taken t _ h _ =>
    have hset : { w.sss with dynamicKeyTime := t }.FederationNamed := hw
    rw [h]
    exact hset.calculateDynamicKeys

end Sn

/-! ### A load up to the first line -/

namespace World

/-- The name is kept up to the first line. -/
theorem beforeLines_named {w : World} (hw : w.sss.FederationNamed) :
    w.beforeLines.sss.FederationNamed := by
  refine beforeLines_invariant (I := fun v => v.sss.FederationNamed)
    (fun _ _ hv hact => hv.keyStep (hact.keyStep False.elim)) (fun v hv => ?_) hw
  exact Sn.unloadAll_invariant (I := Sn.FederationNamed)
    (fun _ comm p fd h => h.unloadEdge comm p fd) (fun _ p h => h.del p)
    v.sss.communities.entries hv

/-- **Only the federation is there before the first line.** -/
theorem beforeLines_federation {w : World} (p : ℕ) (c : Community)
    (hget : w.beforeLines.sss.communities.get? p = some c) : c.isFederation = true := by
  have hunload : Table.All (fun c => c.isFederation = true)
      (w.sendReRegisterSuper.sss.communities.entries.foldl
        (fun sss e => sss.unloadCommunity e.1 e.2) w.sendReRegisterSuper.sss).communities :=
    fun _ _ hget => w.sendReRegisterSuper.sss.unloadAll_isFederation hget
  refine reRegisterSupernodes_invariant (I := fun sss =>
    Table.All (fun c => c.isFederation = true) sss.communities) ?_ ?_ hunload p c hget
  · intro sss fd hall q c' hget'
    obtain ⟨f, hf⟩ := closeTcpConnection_comms sss (sss.findConn fd) q
    rw [hf] at hget'
    obtain ⟨c, hc, rfl⟩ := Option.map_eq_some_iff.mp hget'
    exact hall q c hc
  · intro sss f hall
    exact hall.modify _ fun c hc => hall _ c hc

theorem loadAllowedSnCommunity_named {w : World} (hw : w.sss.FederationNamed)
    (lines : List CommunityLine) (secret : List UInt8 → List UInt8) :
    (w.loadAllowedSnCommunity lines secret).1.sss.FederationNamed := by
  rw [loadAllowedSnCommunity_eq]
  have hlines : (lines.foldl Loading.line ⟨w.beforeLines.sss, none, 0⟩).sss.FederationNamed :=
    Loading.lines_invariant (I := fun l => l.sss.FederationNamed) (fun _ x h => h.line x) lines
      (beforeLines_named hw)
  dsimp only
  split_ifs
  · exact hlines
  · exact (hlines.calculateSharedSecrets secret).calculateDynamicKeys

end World

/-! ### Runs -/

/-- A supernode as `main` starts it: the federation has a name. -/
structure SnNamed (w : World) : Prop extends SnFederated w where
  named : w.sss.FederationNamed

/-- The runs of such a supernode, with loads. -/
def snNamedMachine : Machine World SnInput := { snReloadMachine with init := SnNamed }

theorem federationNamed_of_reach {w : World} (h : snNamedMachine.Reach anyStep w) :
    w.sss.FederationNamed := by
  refine h.invariant (I := fun w => w.sss.FederationNamed) (fun _ h => SnNamed.named h) ?_
  intro w input hw _ _
  cases input with
  | event event =>
    exact snStep_keySteps (I := fun v => v.sss.FederationNamed) (fun _ _ hv => hv.keyStep) hw event
  | reload lines secret => exact World.loadAllowedSnCommunity_named hw lines secret

theorem netSn_named : SnNamed (.start netSn) where
  toSnFederated := netSn_federated
  named := by
    intro p c hget hc
    rcases netSn_get? hget with ⟨-, rfl⟩ | ⟨hp, rfl⟩
    · cases hc
    · exact ⟨hp, rfl⟩

end N2n
