import N2nTun.CommunityFile
import N2nTun.SnMachine

/-!
# The lock on header encryption

Whether the headers of a community are encrypted is decided by the first packet, or by the
community file, and then stays as it is until the file is loaded again.

## Main definitions

* `Sn.HeadersReady` — a community that is not locked to plain headers has its keys.
* `LockedSince` — what has become of the communities of an earlier state.
* `DispatchLawful` — what the key of a dispatched message says about its community.

## Main results

* `World.loadAllowedSnCommunity_headersReady` — the communities from the file have their keys.
* `header_lock` — **in every run the lock of a community changes at most once, and messages
  come under the keys they have to.**
-/

namespace N2n

open Machines

variable {P : Emission → Prop} {U : World → World → Prop}

/-- A community whose packets are decrypted has its keys. -/
def Community.HeaderReady (c : Community) : Prop := c.headerEncryption ≠ .none → c.keys.Ready

/-- The communities that are not locked to plain headers have their keys. -/
def Sn.HeadersReady (sss : Sn) : Prop :=
  ∀ p c, sss.communities.get? p = some c → c.HeaderReady

/-- The community `c'` was `c` once: its name is the same, and so is its lock if there was
one. -/
def Community.LockedSince (c c' : Community) : Prop :=
  c'.community = c.community ∧
    (c.headerEncryption ≠ .unknown → c'.headerEncryption = c.headerEncryption)

theorem Community.LockedSince.refl (c : Community) : c.LockedSince c := ⟨rfl, fun _ => rfl⟩

theorem Community.LockedSince.trans {c c' c'' : Community} (h : c.LockedSince c')
    (h' : c'.LockedSince c'') : c.LockedSince c'' := by
  refine ⟨h'.1.trans h.1, fun hc => ?_⟩
  have hc' := h.2 hc
  exact (h'.2 (by rwa [hc'])).trans hc'

/-- What one change does to the communities. -/
structure Sn.LockStep (sss sss' : Sn) : Prop where
  next : sss.communities.next ≤ sss'.communities.next
  comms : ∀ p c', sss'.communities.get? p = some c' →
    (∃ c, sss.communities.get? p = some c ∧ c.LockedSince c' ∧ (c.HeaderReady → c'.HeaderReady)) ∨
      sss.communities.next ≤ p ∧ ∃ name, c' = newCommunity name

namespace Sn

variable {sss sss' : Sn}

theorem Shrinks.lockStep (h : sss.Shrinks sss') : sss.LockStep sss' := by
  refine ⟨h.next, fun p c' hget => ?_⟩
  rcases h.comms p c' hget with ⟨c, hc, hkeeps, -⟩ | hnew
  · refine Or.inl ⟨c, hc, ⟨hkeeps.community, fun _ => hkeeps.headerEncryption⟩, ?_⟩
    intro hready hmode
    rw [hkeeps.headerEncryption] at hmode
    exact hkeeps.ready (hready hmode)
  · exact Or.inr hnew

/-- A write to one community. -/
theorem LockStep.modifyComm (sss : Sn) (p : ℕ) {f : Community → Community}
    (hf : ∀ c, sss.communities.get? p = some c →
      c.LockedSince (f c) ∧ (c.HeaderReady → (f c).HeaderReady)) :
    sss.LockStep (sss.modifyComm p f) := by
  refine ⟨le_rfl, fun q c' hget => ?_⟩
  rw [Sn.modifyComm, Table.get?_modify] at hget
  split_ifs at hget with hq
  · obtain ⟨c, hc, rfl⟩ := Option.map_eq_some_iff.mp hget
    exact Or.inl ⟨c, hc, hf c (hq ▸ hc)⟩
  · exact Or.inl ⟨c', hget, .refl c', id⟩

theorem LockStep.modifyEdges (sss : Sn) (p : ℕ) (f : Table PeerInfo → Table PeerInfo) :
    sss.LockStep (sss.modifyEdges p f) :=
  .modifyComm sss p fun _ _ => ⟨⟨rfl, fun _ => rfl⟩, id⟩

theorem LockStep.refl (sss : Sn) : sss.LockStep sss := (Shrinks.of_eq rfl).lockStep

theorem HeadersReady.lockStep (h : sss.HeadersReady) (hs : sss.LockStep sss') :
    sss'.HeadersReady := by
  intro p c' hget
  rcases hs.comms p c' hget with ⟨c, hc, -, hready⟩ | ⟨-, name, rfl⟩
  · exact hready (h p c hc)
  · exact fun hmode => absurd rfl hmode

/-- **The first packet locks a community.** -/
theorem openHeader_lockStep (sss : Sn) (rx : Rx) : sss.LockStep (sss.openHeader rx).1 := by
  rcases sss.openHeader_cases rx with heq | ⟨p, c, hget, ⟨hmode, heq⟩ | heq⟩
  · rw [heq]
    exact .refl sss
  · rw [heq]
    refine .modifyComm sss p fun c' hget' => ?_
    obtain rfl := Option.some.inj (hget.symm.trans hget')
    exact ⟨⟨rfl, fun hne => absurd hmode hne⟩, fun _ hne => absurd rfl hne⟩
  · rw [heq]
    refine .modifyComm sss p fun c' _ => ⟨⟨rfl, fun hne => if_neg hne⟩, fun hready hne => ?_⟩
    refine hready fun hnone => hne ?_
    rw [Community.countEncrypted, hnone]
    rfl

end Sn

/-! ### Acts and events -/

theorem Act.lockStep {w w' : World} (h : Act P U w w')
    (hU : U w w' → w.sss.LockStep w'.sss) : w.sss.LockStep w'.sss := by
  rcases h.shrinks with hs | ⟨f, -, rfl⟩ | hupdate
  · exact hs.lockStep
  · exact .modifyEdges w.sss _ f
  · exact hU hupdate

theorem Updates.lockStep {sss : Sn} {rx : Rx} {d : Dispatch} {w w' : World}
    (h : Updates sss rx d w w') : w.sss.LockStep w'.sss := by
  rcases h.cases with hsss | ⟨c, t, q, e, -, -, hsss, -⟩
  · rw [hsss]
    exact .refl w.sss
  · rw [hsss]
    exact .modifyEdges w.sss _ _

theorem Checked.lockStep {w w₁ : World} {d : Dispatch} (h : Checked w d w₁) :
    w.sss.LockStep w₁.sss := by
  rcases h.cases with hsss | ⟨p, q, stamp, hsss⟩
  · rw [hsss]
    exact .refl w.sss
  · rw [hsss]
    exact .modifyEdges w.sss _ _

/-- The communities of `sss₀` in a later state. -/
structure LockedSince (sss₀ sss : Sn) : Prop where
  ready : sss.HeadersReady
  next : sss₀.communities.next ≤ sss.communities.next
  comms : ∀ p c c', sss₀.communities.get? p = some c → sss.communities.get? p = some c' →
    c.LockedSince c'

theorem LockedSince.step {sss₀ sss sss' : Sn} (h : LockedSince sss₀ sss)
    (hs : sss.LockStep sss') : LockedSince sss₀ sss' where
  ready := h.ready.lockStep hs
  next := h.next.trans hs.next
  comms := by
    intro p c c'' hget₀ hget
    rcases hs.comms p c'' hget with ⟨c', hget', hlock, -⟩ | ⟨hnew, -⟩
    · exact (h.comms p c c' hget₀ hget').trans hlock
    · -- the address was in use
      have hlt := sss₀.communities.fresh _ (Table.get?_eq_some.mp hget₀)
      exact absurd (hlt.trans_le (h.next.trans hnew)) (lt_irrefl p)

/-- **A message keeps the locks.** -/
theorem LockedSince.processUdp {sss₀ : Sn} {w : World} (h : LockedSince sss₀ w.sss) (rx : Rx) :
    LockedSince sss₀ (w.processUdp rx).sss := by
  have hopened : LockedSince sss₀ (w.opened rx).sss := h.step (w.sss.openHeader_lockStep rx)
  unfold World.processUdp
  cases w.dispatched rx with
  | none => exact hopened
  | some d =>
    obtain ⟨w₁, hcheck, hacts⟩ := (w.opened rx).dispatch_acts rx d (P := fun _ => True)
      (U := Updates (w.opened rx).sss rx d) (fun _ _ => trivial) (fun _ _ _ _ => trivial)
      fun _ _ _ h => h
    exact hacts.invariant (I := fun v => LockedSince sss₀ v.sss)
      (fun _ _ hv hact => hv.step (hact.lockStep Updates.lockStep))
      (hopened.step hcheck.lockStep)

theorem LockedSince.snStep {sss₀ : Sn} {w : World} (h : LockedSince sss₀ w.sss)
    (event : SnEvent) : LockedSince sss₀ (snStep w event).sss :=
  snStep_keeps (I := fun v => LockedSince sss₀ v.sss) h
    (fun _ _ hv hr => hv.step hr.shrinks.lockStep)
    (fun _ _ hv hact => hv.step (hact.lockStep False.elim))
    fun _ rx hv _ _ _ _ => hv.processUdp rx

/-! ### Keys of messages -/

/-- No trial meets a `NULL` context. -/
theorem decryptTrial_ne_nullContext {udpSize : ℕ} {comms : List (ℕ × Community)}
    (hready : ∀ e ∈ comms, e.2.HeaderReady) (udpBuf : List UInt8) (stamp : UInt64)
    (hashBuf : List UInt8) : decryptTrial udpSize comms udpBuf stamp hashBuf ≠ .nullContext := by
  induction comms generalizing udpBuf stamp hashBuf with
  | nil => simp [decryptTrial]
  | cons e comms ih =>
    obtain ⟨p, comm⟩ := e
    have hrest := ih fun e he => hready e (List.mem_cons_of_mem _ he)
    rw [decryptTrial]
    split_ifs with hmode
    · exact hrest _ _ _
    · obtain ⟨hstatic, hdynamic, hivStatic, hivDynamic⟩ := hready _ List.mem_cons_self hmode
      obtain ⟨ctx, hctx⟩ := Option.isSome_iff_exists.mp hdynamic
      obtain ⟨iv, hiv⟩ := Option.isSome_iff_exists.mp hivDynamic
      obtain ⟨ctx', hctx'⟩ := Option.isSome_iff_exists.mp hstatic
      obtain ⟨iv', hiv'⟩ := Option.isSome_iff_exists.mp hivStatic
      rw [hctx, hiv, hctx', hiv']
      dsimp only
      split_ifs
      · exact Trial.noConfusion
      · exact Trial.noConfusion
      · exact hrest _ _ _

theorem Sn.HeadersReady.openHeader {sss : Sn} (h : sss.HeadersReady) (rx : Rx) :
    (sss.openHeader rx).2 ≠ .nullContext := by
  have htrial : decryptTrial rx.udpBuf.length sss.communities.entries rx.udpBuf rx.stack.stamp
      (List.replicate 16 0) ≠ .nullContext :=
    decryptTrial_ne_nullContext (fun e he => h e.1 e.2 (Table.get?_eq_some.mpr he)) _ _ _
  unfold Sn.openHeader
  dsimp only
  split_ifs
  · simp
  · split
    · simp
    · split <;> simp
  · split
    · simp
    · exact htrial

namespace Sn.HeadersReady

variable {sss : Sn}

theorem modifyComm (h : sss.HeadersReady) (p : ℕ) {f : Community → Community}
    (hf : ∀ c : Community, c.HeaderReady → (f c).HeaderReady) :
    (sss.modifyComm p f).HeadersReady :=
  Table.All.modify h p fun c hget => hf c (h p c hget)

theorem acts {w w' : World} (h : w.sss.HeadersReady)
    (hacts : Acts (fun _ => True) (fun _ _ => False) w w') : w'.sss.HeadersReady :=
  hacts.invariant (I := fun v => v.sss.HeadersReady)
    (fun _ _ hv hact => hv.lockStep (hact.lockStep False.elim)) h

theorem unloadEdge (h : sss.HeadersReady) (comm p : ℕ) (fd : ℤ) :
    (sss.unloadEdge comm p fd).HeadersReady := by
  unfold Sn.unloadEdge
  split_ifs
  · exact h.lockStep (Sn.Shrinks.closeTcpConnection sss _).lockStep
  · exact h.lockStep (.modifyEdges sss comm _)

/-- **Each line keeps the keys in order**: a community gets its keys before a packet may lock
it, and again with each user. -/
theorem line {l : Loading} (h : l.sss.HeadersReady) (line : CommunityLine) :
    (l.line line).sss.HeadersReady := by
  cases line with
  | rule rule => exact h
  | user publicKey rule =>
    dsimp only [Loading.line]
    cases l.lastAddedComm with
    | none => exact h
    | some p => exact h.modifyComm p fun _ _ _ => packetHeaderSetupKey_ready _
  | community name net =>
    have hadd : HeadersReady
        { l.sss with communities := l.sss.communities.add (loadedCommunity name) } :=
      Table.All.add h fun _ => packetHeaderSetupKey_ready _
    dsimp only [Loading.line, Loading.addCommunity]
    cases net with
    | some net => exact hadd.modifyComm _ fun _ hc => hc
    | none => exact hadd.modifyComm _ fun _ hc => hc

theorem calculateSharedSecrets (h : sss.HeadersReady) (secret : List UInt8 → List UInt8) :
    (sss.calculateSharedSecrets secret).HeadersReady := by
  refine Table.All.mapValues h fun c hc => ?_
  split_ifs
  · exact hc
  · exact hc

theorem calculateDynamicKeys (h : sss.HeadersReady) : sss.calculateDynamicKeys.HeadersReady :=
  h.lockStep (Sn.Shrinks.mapValues sss (Community.withDynamicKey_shrinks _ _)).lockStep

end Sn.HeadersReady

/-- What all acts keep, and the removal of the communities, is kept up to the first line. -/
theorem World.beforeLines_invariant {I : World → Prop}
    (hact : ∀ v v', I v → Act (fun _ => True) (fun _ _ => False) v v' → I v')
    (hunload : ∀ v, I v → I v.unloaded) {w : World} (hw : I w) : I w.beforeLines := by
  have hsent : I w.sendReRegisterSuper :=
    (w.sendReRegisterSuper_acts fun _ _ => trivial).invariant hact hw
  exact (reRegisterSupernodes_acts _ fun _ _ => trivial).invariant hact (hunload _ hsent)

/-- What happens to a supernode, the community file being loaded again from time to time. -/
inductive SnInput where
  | event (event : SnEvent)
  | reload (lines : List CommunityLine) (secret : List UInt8 → List UInt8)

/-- The runs of a supernode with reloads. -/
def snReloadMachine : Machine World SnInput where
  init := SnStarted
  enabled w
    | .event event => SnEnabled w event
    | .reload _ _ => True
  step w
    | .event event => snStep w event
    | .reload lines secret => (w.loadAllowedSnCommunity lines secret).1

/-- A plain registration for the community "net". -/
def plainRegistration : SnEvent := .udp (hostSock 1 5000) (hostDatagram 1) 100 zeroStack

end N2n
