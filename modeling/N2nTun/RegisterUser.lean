import N2nTun.KeyAgreement
import N2nTun.MacKeys

/-!
# The user behind a registration

A registration whose token belongs to no user is not dropped at once: `user` is `NULL` then, and
the authentication is left to find out.  If it did not, the registration and its answer would be
encrypted with the context of no user.  It does, since the entries of a community with users were
all stored with the user/password scheme.

## Main definitions

* `Sn.UsersOk` — the invariant: how the entries of communities with users were stored.
* `Sn.UsersKept`, `Sn.AuthsKept` — what a change does to the users, and to the stored tokens.
* `World.registerBy` — `MSG_TYPE_REGISTER_SUPER` with the answer cut off, and `AckCall` for the
  call that is left.

## Main results

* `Sn.UsersOk.kept` — **the invariant is kept.**
* `World.handleRegisterSuper_registerBy` — the handler is `World.registerBy` with the answer.
* `user_of_reach` — **in every run a registration that is answered has a user, where the community
  has users.**
-/

namespace N2n

open Machines

variable {P : Emission → Prop} {U : World → World → Prop}

/-! ### Users and stored tokens -/

/-- The users of the communities have been left alone, and no community has become the
federation, or is it no more. -/
structure Sn.UsersKept (sss sss' : Sn) : Prop where
  federation : sss'.federation = sss.federation
  next : sss.communities.next ≤ sss'.communities.next
  comms : ∀ p c', sss'.communities.get? p = some c' →
    (∃ c, sss.communities.get? p = some c ∧ c'.isFederation = c.isFederation ∧
      c'.allowedUsers = c.allowedUsers) ∨
    sss.communities.next ≤ p ∧ ∃ name, c' = newCommunity name

/-- Every entry of a community with users has the user/password scheme, or a token that was in
the community before. -/
def Sn.AuthsKept (sss sss' : Sn) : Prop :=
  ∀ p c', sss'.communities.get? p = some c' → c'.hasUsers = true → ∀ e' ∈ c'.edges,
    e'.auth.scheme = authUserPassword ∨
      ∃ c, sss.communities.get? p = some c ∧ ∃ e ∈ c.edges, e'.auth = e.auth

/-- The federation has no users, and where there are users, all entries were stored with the
user/password scheme. -/
structure Community.UsersOk (c : Community) : Prop where
  userless : c.isFederation = true → c.allowedUsers = []
  schemes : c.hasUsers = true → ∀ e ∈ c.edges, e.auth.scheme = authUserPassword

/-- The invariant: so it is in every community, and the federation is where its pointer is. -/
structure Sn.UsersOk (sss : Sn) : Prop where
  pointer : sss.federation < sss.communities.next
  federation : ∀ c, sss.communities.get? sss.federation = some c → c.isFederation = true
  comms : ∀ p c, sss.communities.get? p = some c → c.UsersOk

/-- `shared_secret_ctx` has been set up. -/
def SnUser.Ready (user : SnUser) : Prop := user.sharedSecretCtx = speckInit user.sharedSecret

/-- All users have their contexts. -/
def Sn.ContextsReady (sss : Sn) : Prop :=
  ∀ p c, sss.communities.get? p = some c → ∀ user ∈ c.allowedUsers, user.Ready

/-- Without users there is nothing to keep. -/
theorem Community.UsersOk.of_none {c : Community} (h : c.allowedUsers = []) : c.UsersOk := by
  refine ⟨fun _ => h, fun husers => ?_⟩
  rw [Community.hasUsers, h] at husers
  cases husers

theorem Community.hasUsers_congr {c c' : Community} (h : c'.allowedUsers = c.allowedUsers) :
    c'.hasUsers = c.hasUsers := by
  rw [Community.hasUsers, Community.hasUsers, h]

namespace Sn

variable {sss sss' : Sn}

/-- **The invariant is kept** by a change of which these two things are known. -/
theorem UsersOk.kept (h : sss.UsersOk) (hu : sss.UsersKept sss') (ha : sss.AuthsKept sss') :
    sss'.UsersOk where
  pointer := by
    rw [hu.federation]
    exact h.pointer.trans_le hu.next
  federation := by
    intro c' hget
    rw [hu.federation] at hget
    rcases hu.comms _ c' hget with ⟨c, hc, hfed, -⟩ | ⟨hnew, -⟩
    · exact hfed.trans (h.federation c hc)
    · exact absurd (h.pointer.trans_le hnew) (lt_irrefl _)
  comms := by
    intro p c' hget
    rcases hu.comms p c' hget with ⟨c, hc, hfed, husers⟩ | ⟨-, name, rfl⟩
    · have hok := h.comms p c hc
      refine ⟨fun hfed' => husers.trans (hok.userless (hfed.symm.trans hfed')), ?_⟩
      intro husers' e' he'
      rcases ha p c' hget husers' e' he' with hscheme | ⟨c₀, hc₀, e, he, hauth⟩
      · exact hscheme
      · obtain rfl := Option.some.inj (hc.symm.trans hc₀)
        rw [hauth]
        exact hok.schemes ((Community.hasUsers_congr husers).symm.trans husers') e he
    · -- a community that has just been brought up has no users
      exact .of_none rfl

theorem ContextsReady.kept (h : sss.ContextsReady) (hu : sss.UsersKept sss') :
    sss'.ContextsReady := by
  intro p c' hget user huser
  rcases hu.comms p c' hget with ⟨c, hc, -, husers⟩ | ⟨-, name, rfl⟩
  · exact h p c hc user (husers ▸ huser)
  · cases huser

/-- The users of the community at an address. -/
def UsersAt (sss : Sn) (p : ℕ) (users : List SnUser) : Prop :=
  p < sss.communities.next ∧ ∀ c, sss.communities.get? p = some c → c.allowedUsers = users

theorem UsersAt.of_get? {p : ℕ} {c : Community} (h : sss.communities.get? p = some c) :
    sss.UsersAt p c.allowedUsers := by
  refine ⟨sss.communities.fresh _ (Table.get?_eq_some.mp h), fun c' hget => ?_⟩
  obtain rfl := Option.some.inj (h.symm.trans hget)
  rfl

theorem UsersAt.kept {p : ℕ} {users : List SnUser} (h : sss.UsersAt p users)
    (hu : sss.UsersKept sss') : sss'.UsersAt p users := by
  refine ⟨h.1.trans_le hu.next, fun c' hget => ?_⟩
  rcases hu.comms p c' hget with ⟨c, hc, -, husers⟩ | ⟨hnew, -⟩
  · exact husers.trans (h.2 c hc)
  · exact absurd (h.1.trans_le hnew) (lt_irrefl p)

/-! ### What changes keep -/

theorem KeysKept.usersKept (h : sss.KeysKept sss') : sss.UsersKept sss' where
  federation := h.federation
  next := h.next
  comms := by
    intro p c' hget
    rcases h.comms p c' hget with ⟨c, hc, hsame⟩ | hnew
    · exact Or.inl ⟨c, hc, hsame.isFederation, hsame.allowedUsers⟩
    · exact Or.inr hnew

theorem Shrinks.authsKept (h : sss.Shrinks sss') : sss.AuthsKept sss' := by
  intro p c' hget _ e' he'
  obtain ⟨q, hq⟩ := Table.mem_iff_get?.mp he'
  rcases h.comms p c' hget with ⟨c, hc, -, hsub⟩ | ⟨-, name, rfl⟩
  · exact Or.inr ⟨c, hc, e', Table.mem_of_get? (hsub q e' hq), rfl⟩
  · cases hq

/-- A write to the edges of one community. -/
theorem AuthsKept.modifyEdges (sss : Sn) (p : ℕ) {f : Table PeerInfo → Table PeerInfo}
    (hf : ∀ c, sss.communities.get? p = some c → c.hasUsers = true → ∀ e' ∈ f c.edges,
      e'.auth.scheme = authUserPassword ∨ ∃ e ∈ c.edges, e'.auth = e.auth) :
    sss.AuthsKept (sss.modifyEdges p f) := by
  intro q c' hget husers e' he'
  obtain ⟨c, hc, -, ⟨rfl, rfl⟩ | ⟨-, rfl⟩⟩ := modifyEdges_get? hget
  · rcases hf c hc husers e' he' with hscheme | hold
    · exact Or.inl hscheme
    · exact Or.inr ⟨c, hc, hold⟩
  · exact Or.inr ⟨c', hc, e', he', rfl⟩

/-- A write to a community that leaves its edges alone. -/
theorem AuthsKept.modifyComm (sss : Sn) (p : ℕ) {f : Community → Community}
    (hf : ∀ c, (f c).edges = c.edges) : sss.AuthsKept (sss.modifyComm p f) := by
  intro q c' hget _ e' he'
  rw [Sn.modifyComm, Table.get?_modify] at hget
  split_ifs at hget
  · obtain ⟨c, hc, rfl⟩ := Option.map_eq_some_iff.mp hget
    rw [hf c] at he'
    exact Or.inr ⟨c, hc, e', he', rfl⟩
  · exact Or.inr ⟨c', hget, e', he', rfl⟩

theorem AuthsKept.of_eq (h : sss'.communities = sss.communities) : sss.AuthsKept sss' :=
  (Shrinks.of_eq h).authsKept

theorem calculateDynamicKeys_usersKept (sss : Sn) :
    sss.UsersKept sss.calculateDynamicKeys ∧ sss.AuthsKept sss.calculateDynamicKeys := by
  refine ⟨⟨rfl, le_rfl, fun p c' hget => ?_⟩, ?_⟩
  · rw [calculateDynamicKeys_get?] at hget
    obtain ⟨c, hc, rfl⟩ := Option.map_eq_some_iff.mp hget
    obtain ⟨-, hfed, -, hallowed, -⟩ :=
      withDynamicKey_same sss.dynamicKeyTime sss.federationName c
    exact Or.inl ⟨c, hc, hfed, hallowed⟩
  · exact (Shrinks.mapValues sss (Community.withDynamicKey_shrinks _ _)).authsKept

end Sn

open Sn

theorem KeyStep.usersKept {w w' : World} (h : KeyStep w w') : w.sss.UsersKept w'.sss := by
  cases h with
  | kept h _ | noted h _ _ _ => exact h.usersKept
  | taken t _ h _ =>
    rw [h]
    obtain ⟨hu, -⟩ := { w.sss with dynamicKeyTime := t }.calculateDynamicKeys_usersKept
    exact ⟨hu.federation, hu.next, hu.comms⟩

/-- **Every act but `update_edge` keeps the invariant**: only the entries of the federation get
other tokens, and it has no users. -/
theorem Act.authsKept {w w' : World} (h : Act P U w w') (hw : w.sss.UsersOk)
    (hU : U w w' → w.sss.AuthsKept w'.sss) : w.sss.AuthsKept w'.sss := by
  rcases h.shrinks with hs | ⟨f, -, rfl⟩ | hupdate
  · exact hs.authsKept
  · refine .modifyEdges w.sss _ fun c hget husers => ?_
    have hnone := (hw.comms _ c hget).userless (hw.federation c hget)
    rw [Community.hasUsers, hnone] at husers
    cases husers
  · exact hU hupdate

/-! ### `update_edge` -/

section

variable {sss : Sn} {cmn : Common} {reg : RegisterSuper} {comm : Community} {senderSock : Sock}
  {socketFd : ℤ} {answer : Auth} {skipAdd : SkipAdd} {stamp : UInt64} {now : ℤ}

/-- With users, the token of a new edge has the user/password scheme, and the token is that of a
user. -/
theorem handleRemoteAuth_user (husers : comm.hasUsers = true)
    (h : (handleRemoteAuth reg.auth answer comm).1 = true) :
    reg.auth.scheme = authUserPassword ∧ (comm.findUser reg.auth.token).isSome := by
  unfold handleRemoteAuth at h
  rw [husers] at h
  by_cases hscheme : reg.auth.scheme = authUserPassword
  · refine ⟨hscheme, ?_⟩
    rw [hscheme] at h
    cases hfind : comm.findUser reg.auth.token with
    | some user => rfl
    | none =>
      simp [hfind, authUserPassword, authNone, authSimpleId] at h
  · have hne : (reg.auth.scheme != authUserPassword) = true := bne_iff_ne.mpr hscheme
    rw [hne] at h
    exact absurd h (by simp)

/-- An entry with the user/password scheme only authenticates the token of a user. -/
theorem authEdge_user {present : Auth} (hpresent : present.scheme = authUserPassword)
    (h : (authEdge present reg.auth answer comm).1 = true) :
    (comm.findUser reg.auth.token).isSome := by
  unfold authEdge at h
  rw [hpresent, if_neg (by decide), if_neg (by rintro ⟨h, -⟩; exact absurd h (by decide))] at h
  split_ifs at h
  cases hfind : comm.findUser reg.auth.token with
  | some user => rfl
  | none =>
    rw [hfind] at h
    cases h

/-- The entry that a registration belongs to has a token that was stored. -/
theorem lookupEdge_auth (edges : Table PeerInfo) (reg : RegisterSuper) :
    (∀ e' ∈ (lookupEdge edges reg).1, ∃ e ∈ edges, e'.auth = e.auth) ∧
      ∀ p scan, (lookupEdge edges reg).2 = some (p, scan) → ∃ e ∈ edges, scan.auth = e.auth := by
  unfold lookupEdge
  split
  · rename_i e hfind
    refine ⟨fun e' he' => ⟨e', he', rfl⟩, ?_⟩
    rintro p scan ⟨⟩
    exact ⟨scan, Table.mem_of_get? (Table.find?_eq_some hfind).1, rfl⟩
  · split
    · rename_i q iter haddr
      have hiter : iter ∈ edges := Table.mem_of_get? (Table.first?_eq_some haddr).1
      refine ⟨fun e' he' => ?_, ?_⟩
      · rcases Table.mem_rekey he' with he' | ⟨e, he, rfl⟩
        · exact ⟨e', he', rfl⟩
        · exact ⟨e, Table.mem_of_get? he, PeerInfo.keyed_auth reg.edgeMac e⟩
      · rintro p scan ⟨⟩
        exact ⟨iter, hiter, PeerInfo.keyed_auth reg.edgeMac iter⟩
    · exact ⟨fun e' he' => ⟨e', he', rfl⟩, by simp⟩

/-- A change of an entry that keeps the tokens. -/
theorem modify_auth {edges edges' : Table PeerInfo} {p : ℕ} {f : PeerInfo → PeerInfo}
    (hedges : ∀ e' ∈ edges', ∃ e ∈ edges, e'.auth = e.auth) (hf : ∀ e, (f e).auth = e.auth) :
    ∀ e' ∈ edges'.modify p f, ∃ e ∈ edges, e'.auth = e.auth := by
  intro e' he'
  rcases Table.mem_modify he' with he' | ⟨e, he, rfl⟩
  · exact hedges e' he'
  · rw [hf e]
    exact hedges e (Table.mem_of_get? he)

/-- **`update_edge` stores no other scheme where there are users.** -/
theorem updateEdge_auth (husers : comm.hasUsers = true) :
    ∀ e' ∈ (updateEdge sss cmn reg comm senderSock socketFd answer skipAdd stamp now).edges,
      e'.auth.scheme = authUserPassword ∨ ∃ e ∈ comm.edges, e'.auth = e.auth := by
  obtain ⟨hold, -⟩ := lookupEdge_auth comm.edges reg
  unfold updateEdge
  dsimp only
  split
  · split_ifs with hauth
    · intro e' he'
      rcases Table.mem_add.mp he' with he' | rfl
      · exact Or.inr (hold e' he')
      · -- the override of the spoofing protection is for the other scheme
        have hscheme := (handleRemoteAuth_user husers hauth).1
        left
        have hne : ¬ (reg.auth.scheme = authSimpleId ∧ sss.overrideSpoofingProtection = true) := by
          rw [hscheme]
          rintro ⟨h, -⟩
          exact absurd h (by decide)
        rw [newEdge, if_neg hne]
        exact hscheme
    · exact fun e' he' => Or.inr (hold e' he')
    · exact fun e' he' => Or.inr (hold e' he')
  · split_ifs
    · exact fun e' he' => Or.inr (modify_auth (f := seenEdge reg now) hold (fun _ => rfl) e' he')
    · exact fun e' he' => Or.inr
        (modify_auth (f := movedEdge cmn reg senderSock socketFd now) hold (fun _ => rfl) e' he')
    · exact fun e' he' => Or.inr (hold e' he')

/-- **A registration that is not refused is a user's**, if the entries were stored with the
user/password scheme. -/
theorem updateEdge_user (husers : comm.hasUsers = true)
    (hschemes : ∀ e ∈ comm.edges, e.auth.scheme = authUserPassword)
    (hret : (updateEdge sss cmn reg comm senderSock socketFd answer skipAdd stamp now).ret ≠
      .authFail) : (comm.findUser reg.auth.token).isSome := by
  obtain ⟨-, hscan⟩ := lookupEdge_auth comm.edges reg
  unfold updateEdge at hret
  dsimp only at hret
  split at hret
  · by_cases hauth : (handleRemoteAuth reg.auth answer comm).1 = true
    · exact (handleRemoteAuth_user husers hauth).2
    · rw [if_neg hauth] at hret
      exact absurd rfl hret
  · rename_i p scan hfound
    obtain ⟨e, he, heq⟩ := hscan p scan hfound
    by_cases hauth : (authEdge scan.auth reg.auth answer comm).1 = true
    · exact authEdge_user (heq ▸ hschemes e he) hauth
    · rw [if_neg hauth] at hret
      exact absurd rfl hret

end

/-! ### Messages and events -/

/-- The invariant, and the users have their contexts. -/
structure UsersReady (w : World) : Prop where
  ok : w.sss.UsersOk
  contexts : w.sss.ContextsReady

theorem UsersReady.kept {w w' : World} (h : UsersReady w) (hk : KeyStep w w')
    (ha : w.sss.AuthsKept w'.sss) : UsersReady w' :=
  ⟨h.ok.kept hk.usersKept ha, h.contexts.kept hk.usersKept⟩

theorem Updates.authsKept {sss : Sn} {rx : Rx} {d : Dispatch} {w w' : World}
    (h : Updates sss rx d w w') : w.sss.AuthsKept w'.sss := by
  obtain ⟨-, c, hget, -, -, rfl⟩ := h
  rw [World.updateEdgeAt_sss]
  refine .modifyEdges w.sss _ fun c' hget' husers => ?_
  obtain rfl := Option.some.inj (hget.symm.trans hget')
  exact updateEdge_auth husers

theorem Checked.authsKept {w w₁ : World} {d : Dispatch} (h : Checked w d w₁) :
    w.sss.AuthsKept w₁.sss := by
  rcases h.cases with heq | ⟨p, q, stamp, heq⟩
  · exact .of_eq (congrArg Sn.communities heq)
  · rw [heq]
    refine .modifyEdges w.sss p fun c _ _ e' he' => Or.inr ?_
    exact modify_auth (f := fun e => { e with lastValidTimeStamp := stamp e })
      (fun e he => ⟨e, he, rfl⟩) (fun _ => rfl) e' he'

theorem World.opened_authsKept (w : World) (rx : Rx) : w.sss.AuthsKept (w.opened rx).sss := by
  show w.sss.AuthsKept (w.sss.openHeader rx).1
  rcases w.sss.openHeader_cases rx with heq | ⟨p, c, -, ⟨-, heq⟩ | heq⟩ <;> rw [heq]
  · exact .of_eq rfl
  · exact .modifyComm w.sss p fun _ => rfl
  · exact .modifyComm w.sss p fun _ => rfl

namespace UsersReady

variable {w : World}

theorem opened (h : UsersReady w) (rx : Rx) : UsersReady (w.opened rx) :=
  h.kept (w.opened_keyStep rx) (w.opened_authsKept rx)

theorem checked {w₁ : World} {d : Dispatch} (h : UsersReady w) (hc : Checked w d w₁) :
    UsersReady w₁ :=
  h.kept hc.keyStep hc.authsKept

theorem rests {w' : World} (h : UsersReady w) (hr : Rests w w') : UsersReady w' :=
  h.kept hr.keyStep hr.shrinks.authsKept

theorem act {w' : World} (h : UsersReady w) (hact : Act P U w w')
    (hU : U w w' → KeyStep w w' ∧ w.sss.AuthsKept w'.sss) : UsersReady w' :=
  h.kept (hact.keyStep fun hu => (hU hu).1) (hact.authsKept h.ok fun hu => (hU hu).2)

/-- Without a call of `update_edge`. -/
theorem acts {w' : World} (h : UsersReady w) (hacts : Acts P (fun _ _ => False) w w') :
    UsersReady w' :=
  hacts.invariant (fun _ _ hv hact => hv.act hact False.elim) h

theorem processUdp (h : UsersReady w) (rx : Rx) : UsersReady (w.processUdp rx) := by
  unfold World.processUdp
  cases w.dispatched rx with
  | none => exact h.opened rx
  | some d =>
    obtain ⟨w₁, hcheck, hacts⟩ := (w.opened rx).dispatch_acts rx d (P := fun _ => True)
      (U := Updates (w.opened rx).sss rx d) (fun _ _ => trivial) (fun _ _ _ _ => trivial)
      fun _ _ _ h => h
    exact hacts.invariant
      (fun _ _ hv hact => hv.act hact fun hu => ⟨hu.keyStep, hu.authsKept⟩)
      ((h.opened rx).checked hcheck)

/-- **One event.** -/
theorem step (h : UsersReady w) (event : SnEvent) : UsersReady (snStep w event) :=
  snStep_keeps h (fun _ _ hv hr => hv.rests hr) (fun _ _ hv hact => hv.act hact False.elim)
    fun _ rx hv _ _ _ _ => hv.processUdp rx

end UsersReady

/-! ### The community file -/

namespace Sn

variable {sss : Sn}

theorem UsersOk.unloadEdge (h : sss.UsersOk) (comm p : ℕ) (fd : ℤ) :
    (sss.unloadEdge comm p fd).UsersOk := by
  unfold Sn.unloadEdge
  split_ifs
  · exact h.kept (KeysKept.closeTcpConnection sss _).usersKept
      (Shrinks.closeTcpConnection sss _).authsKept
  · exact h.kept (KeysKept.modifyEdges sss comm _).usersKept
      (Shrinks.modifyEdges sss comm fun t => .del t p).authsKept

theorem UsersOk.del (h : sss.UsersOk) (p : ℕ) :
    { sss with communities := sss.communities.del p }.UsersOk := by
  refine ⟨h.pointer, fun c hget => h.federation c ?_, Table.All.del h.comms p⟩
  dsimp only at hget
  rw [Table.get?_del] at hget
  split_ifs at hget
  exact hget

theorem UsersOk.unloadAll (es : List (ℕ × Community)) (h : sss.UsersOk) :
    (es.foldl (fun sss e => sss.unloadCommunity e.1 e.2) sss).UsersOk :=
  unloadAll_invariant (fun _ comm p fd h => h.unloadEdge comm p fd) (fun _ p h => h.del p) es h

/-- A new community has no users. -/
theorem UsersOk.add (h : sss.UsersOk) {c₀ : Community} (hc₀ : c₀.UsersOk) :
    { sss with communities := sss.communities.add c₀ }.UsersOk where
  pointer := h.pointer.trans (Nat.lt_succ_self _)
  federation := by
    intro c hget
    dsimp only at hget
    rw [Table.get?_add, if_neg (ne_of_lt h.pointer)] at hget
    exact h.federation c hget
  comms := Table.All.add h.comms hc₀

/-- A write to one community. -/
theorem UsersOk.modifyComm (h : sss.UsersOk) (p : ℕ) {f : Community → Community}
    (hfed : ∀ c, (f c).isFederation = c.isFederation)
    (hf : ∀ c, sss.communities.get? p = some c → (f c).UsersOk) :
    (sss.modifyComm p f).UsersOk := by
  refine ⟨h.pointer, fun c' hget => ?_, Table.All.modify h.comms p hf⟩
  rw [Sn.modifyComm, Table.get?_modify] at hget
  split_ifs at hget
  · obtain ⟨c, hc, rfl⟩ := Option.map_eq_some_iff.mp hget
    exact (hfed c).trans (h.federation c hc)
  · exact h.federation c' hget

theorem UsersOk.mapValues (h : sss.UsersOk) {f : Community → Community}
    (hfed : ∀ c, (f c).isFederation = c.isFederation)
    (hf : ∀ c : Community, c.UsersOk → (f c).UsersOk) :
    { sss with communities := sss.communities.mapValues f }.UsersOk := by
  refine ⟨h.pointer, fun c' hget => ?_, Table.All.mapValues h.comms hf⟩
  dsimp only at hget
  rw [Table.get?_mapValues] at hget
  obtain ⟨c, hc, rfl⟩ := Option.map_eq_some_iff.mp hget
  exact (hfed c).trans (h.federation c hc)

end Sn

/-- Users are added to a community from the file, which has no edges yet. -/
structure Loading.Ok (l : Loading) : Prop where
  users : l.sss.UsersOk
  empty : ∀ p c, l.lastAddedComm = some p → l.sss.communities.get? p = some c →
    c.isFederation = false ∧ c.edges.entries = []

namespace Loading

/-- **One line.** -/
theorem Ok.line {l : Loading} (h : l.Ok) (line : CommunityLine) : (l.line line).Ok := by
  have hrule : ∀ rule, (l.addRule rule).Ok := fun rule =>
    ⟨⟨h.users.pointer, h.users.federation, h.users.comms⟩, fun p c hlast => by cases hlast⟩
  cases line with
  | rule rule => exact hrule rule
  | user publicKey rule =>
    dsimp only [Loading.line]
    cases hlast : l.lastAddedComm with
    | none => exact hrule rule
    | some p =>
      refine ⟨h.users.modifyComm p (fun _ => rfl) fun c hget => ?_, fun q c' hq hget => ?_⟩
      · obtain ⟨hfed, hedges⟩ := h.empty p c hlast hget
        refine ⟨fun hfed' => ?_, fun _ e he => ?_⟩
        · exact absurd (hfed.symm.trans hfed') (by decide)
        · obtain ⟨q, hq⟩ := Table.mem_def.mp he
          replace hq : (q, e) ∈ c.edges.entries := hq
          rw [hedges] at hq
          cases hq
      · obtain rfl : p = q := Option.some.inj hq
        replace hget : (l.sss.modifyComm p (·.addUser publicKey)).communities.get? p = some c' :=
          hget
        rw [Sn.modifyComm, Table.get?_modify, if_pos rfl] at hget
        obtain ⟨c, hc, rfl⟩ := Option.map_eq_some_iff.mp hget
        exact h.empty p c hlast hc
  | community name net =>
    -- the community that is added, with its sub-network
    have hadd : ∀ net : IpSubnet, Ok
        ⟨{ l.sss with communities := l.sss.communities.add (loadedCommunity name) }.modifyComm
          l.sss.communities.next fun c => { c with autoIpNet := net },
          some l.sss.communities.next, l.num + 1⟩ := by
      intro net
      have hnew : (loadedCommunity name).UsersOk := .of_none rfl
      have hget : ∀ c, (l.sss.communities.add (loadedCommunity name)).get?
          l.sss.communities.next = some c → c = loadedCommunity name := by
        intro c hget
        rw [Table.get?_add, if_pos rfl] at hget
        exact (Option.some.inj hget).symm
      refine ⟨(h.users.add hnew).modifyComm _ (fun _ => rfl) fun c hc => ?_, ?_⟩
      · obtain rfl := hget c hc
        exact .of_none rfl
      · rintro p c ⟨⟩ hc
        rw [Sn.modifyComm, Table.get?_modify, if_pos rfl] at hc
        obtain ⟨c₀, hc₀, rfl⟩ := Option.map_eq_some_iff.mp hc
        obtain rfl := hget c₀ hc₀
        exact ⟨rfl, rfl⟩
    dsimp only [Loading.line, Loading.addCommunity]
    cases net with
    | some net => exact hadd net
    | none => exact hadd _

end Loading

namespace Sn

variable {sss : Sn}

/-- The secrets change, the users do not. -/
theorem UsersOk.calculateSharedSecrets (h : sss.UsersOk) (secret : List UInt8 → List UInt8) :
    (sss.calculateSharedSecrets secret).UsersOk := by
  unfold Sn.calculateSharedSecrets
  refine h.mapValues (fun c => ?_) fun c hc => ?_
  · split_ifs <;> rfl
  · split_ifs with hfed
    · exact hc
    · refine ⟨fun hfed' => absurd hfed' hfed, fun husers => hc.schemes ?_⟩
      simpa [Community.hasUsers] using husers

/-- **All users have their contexts.** -/
theorem UsersOk.contextsReady (h : sss.UsersOk) (secret : List UInt8 → List UInt8) :
    (sss.calculateSharedSecrets secret).ContextsReady := by
  intro p c' hget user huser
  unfold Sn.calculateSharedSecrets at hget
  dsimp only at hget
  rw [Table.get?_mapValues] at hget
  obtain ⟨c, hc, rfl⟩ := Option.map_eq_some_iff.mp hget
  split_ifs at huser with hfed
  · rw [(h.comms p c hc).userless hfed] at huser
    cases huser
  · obtain ⟨user₀, -, rfl⟩ := List.mem_map.mp huser
    rfl

end Sn

/-- With the communities removed there are no users. -/
theorem World.unloaded_usersReady {w : World} (hw : UsersReady w) : UsersReady w.unloaded := by
  have hall := hw.ok.unloadAll w.sss.communities.entries
  have hok : w.unloaded.sss.UsersOk := ⟨hall.pointer, hall.federation, hall.comms⟩
  refine ⟨hok, fun p c hget user huser => ?_⟩
  -- only the federation is left
  have hfed : c.isFederation = true := w.sss.unloadAll_isFederation hget
  rw [(hok.comms p c hget).userless hfed] at huser
  cases huser

/-- **The communities from the file have no entries yet, and their users have contexts.** -/
theorem World.loadAllowedSnCommunity_usersReady {w : World} (hw : UsersReady w)
    (lines : List CommunityLine) (secret : List UInt8 → List UInt8) :
    UsersReady (w.loadAllowedSnCommunity lines secret).1 := by
  have hbefore : UsersReady w.beforeLines :=
    beforeLines_invariant (fun _ _ hv hact => hv.acts hact.acts)
      (fun _ hv => unloaded_usersReady hv) hw
  have hlines : (lines.foldl Loading.line ⟨w.beforeLines.sss, none, 0⟩).Ok :=
    Loading.lines_invariant (fun _ x h => h.line x) lines
      ⟨hbefore.ok, fun p c hlast => by cases hlast⟩
  rw [loadAllowedSnCommunity_eq]
  dsimp only
  split_ifs with hnum
  · -- the file is empty
    obtain rfl := Loading.lines_eq_nil rfl hnum
    exact hbefore
  · generalize lines.foldl Loading.line ⟨w.beforeLines.sss, none, 0⟩ = l at hlines
    obtain ⟨hu, ha⟩ := (l.sss.calculateSharedSecrets secret).calculateDynamicKeys_usersKept
    have hok := (hlines.users.calculateSharedSecrets secret).kept hu ha
    have hcontexts := (hlines.users.contextsReady secret).kept hu
    exact ⟨⟨hok.pointer, hok.federation, hok.comms⟩, fun p c hget => hcontexts p c hget⟩

/-! ### The answer to a registration -/

/-- What `MSG_TYPE_REGISTER_SUPER` has at hand where it passes a registration on and answers
it. -/
structure AckCall where
  w : World
  comm : ℕ
  c : Community
  reg : RegisterSuper
  user : Option SnUser
  ack : RegisterSuperAck
  payloadBuf : List UInt8

namespace World

section

variable {β : Type} (done : World → β) (answer : AckCall → β)

/-- `World.finishRegistration`, with `answer` in the place of the answer. -/
def finishBy (w : World) (rx : Rx) (d : Dispatch) (comm : ℕ) (c : Community)
    (reg : RegisterSuper) (hash : List UInt8 × Option SnUser) (ret : UpdateEdgeRet)
    (ack : RegisterSuperAck) (payloadBuf : List UInt8) : β :=
  if ret = .authFail then done (w.nakRegistration rx d comm reg hash.1)
  else if d.cmn.flags &&& flagsFromSupernode = 0 ∨ d.cmn.flags &&& flagsSocket = 0 then
    answer ⟨w, comm, c, reg, hash.2, ack, payloadBuf⟩
  else done (w.associateEdge rx comm reg)

/-- `World.registerSupernode` in the same way. -/
def registerSupernodeBy (w : World) (rx : Rx) (d : Dispatch) (comm : ℕ) (c : Community)
    (reg : RegisterSuper) (hash : List UInt8 × Option SnUser) (addr : IpSubnet) : β :=
  let w := w.registerSn rx reg
  let (w, num, payloadBuf) := w.supernodeList rx
  w.finishBy done answer rx d comm c reg hash .noChange (w.ackOf rx reg addr num) payloadBuf

/-- `World.registerEdge` in the same way. -/
def registerEdgeBy (w : World) (rx : Rx) (d : Dispatch) (comm : ℕ) (c : Community)
    (reg : RegisterSuper) (hash : List UInt8 × Option SnUser) (addr : IpSubnet) : β :=
  let (w, num, payloadBuf) := w.supernodeList rx
  match w.sss.communities.get? comm with
  | none => done w
  | some c' =>
    let ack := w.ackOf rx reg addr num
    let (w, ret, auth) := w.updateEdgeAt rx d comm c' reg
    w.finishBy done answer rx d comm c reg hash ret { ack with auth := auth } payloadBuf

/-- `World.acceptRegistration` in the same way. -/
def acceptBy (w : World) (rx : Rx) (d : Dispatch) (comm : ℕ) (reg : RegisterSuper) : β :=
  match w.sss.communities.get? comm with
  | none => done w
  | some c =>
    match checkHash c d reg with
    | none => done w
    | some hash =>
      if reg.edgeMac = w.sss.macAddr then done w
      else
        let (sss, addr) := w.sss.autoAddress comm reg rx.stack.success
        let w : World := { w with sss := sss }
        if c.isFederation then w.registerSupernodeBy done answer rx d comm c reg hash addr
        else w.registerEdgeBy done answer rx d comm c reg hash addr

/-- What follows the check of the time stamp, in the same way. -/
def provideBy (w : World) (rx : Rx) (d : Dispatch) (reg : RegisterSuper) : β :=
  match w.sss.provideCommunity d with
  | (_, none) => done w
  | (sss, some comm) => World.acceptBy done answer { w with sss := sss } rx d comm reg

/-- `MSG_TYPE_REGISTER_SUPER`, with `answer` in the place of the answer. -/
def registerBy (w : World) (rx : Rx) (d : Dispatch) : β :=
  let reg := (decodeRegisterSuper d.cmn d.udpBuf d.cur).out
  let checked :=
    match d.comm with
    | some comm => w.checkFresh comm d reg.edgeMac
    | none => (w, true)
  if checked.2 then
    checked.1.provideBy done answer rx d reg
  else done checked.1

end

end World

/-- The answer itself. -/
def AckCall.run (rx : Rx) (d : Dispatch) (call : AckCall) : World :=
  call.w.ackRegistration rx d call.comm call.c call.reg call.user call.ack call.payloadBuf

namespace World

theorem finishRegistration_eq (w : World) (rx : Rx) (d : Dispatch) (comm : ℕ) (c : Community)
    (reg : RegisterSuper) (hash : List UInt8 × Option SnUser) (ret : UpdateEdgeRet)
    (ack : RegisterSuperAck) (payloadBuf : List UInt8) :
    w.finishRegistration rx d comm c reg hash ret ack payloadBuf =
      w.finishBy id (AckCall.run rx d) rx d comm c reg hash ret ack payloadBuf := rfl

theorem registerEdge_eq (w : World) (rx : Rx) (d : Dispatch) (comm : ℕ) (c : Community)
    (reg : RegisterSuper) (hash : List UInt8 × Option SnUser) (addr : IpSubnet) :
    w.registerEdge rx d comm c reg hash addr =
      w.registerEdgeBy id (AckCall.run rx d) rx d comm c reg hash addr := by
  unfold registerEdge registerEdgeBy
  dsimp only
  cases (w.supernodeList rx).1.sss.communities.get? comm with
  | none => rfl
  | some c' => exact finishRegistration_eq _ rx d comm c reg hash _ _ _

theorem acceptRegistration_eq (w : World) (rx : Rx) (d : Dispatch) (comm : ℕ)
    (reg : RegisterSuper) :
    w.acceptRegistration rx d comm reg = w.acceptBy id (AckCall.run rx d) rx d comm reg := by
  unfold acceptRegistration acceptBy
  cases w.sss.communities.get? comm with
  | none => rfl
  | some c =>
    dsimp only
    cases checkHash c d reg with
    | none => rfl
    | some hash =>
      dsimp only
      split_ifs
      · rfl
      · exact finishRegistration_eq _ rx d comm c reg hash _ _ _
      · exact registerEdge_eq _ rx d comm c reg hash _

/-- **The handler**, answer included. -/
theorem handleRegisterSuper_registerBy (w : World) (rx : Rx) (d : Dispatch) :
    w.handleRegisterSuper rx d = w.registerBy id (AckCall.run rx d) rx d := by
  have hchecked : ∀ r : World × Bool,
      (if r.2 = true then
        match r.1.sss.provideCommunity d with
        | (_, none) => r.1
        | (sss, some comm) => World.acceptRegistration { r.1 with sss := sss } rx d comm
          (decodeRegisterSuper d.cmn d.udpBuf d.cur).out
      else r.1) =
      if r.2 = true then r.1.provideBy id (AckCall.run rx d) rx d
        (decodeRegisterSuper d.cmn d.udpBuf d.cur).out
      else id r.1 := by
    intro r
    unfold provideBy
    split_ifs
    · rcases r.1.sss.provideCommunity d with ⟨sss, _ | comm⟩
      · rfl
      · exact acceptRegistration_eq _ rx d comm _
    · rfl
  unfold handleRegisterSuper registerBy afterCheck
  cases d.comm with
  | none => exact hchecked (w, true)
  | some comm => exact hchecked _

/-- The call of the answer, if processing gets so far. -/
def ackCall (w : World) (rx : Rx) (d : Dispatch) : Option AckCall :=
  w.registerBy (fun _ => none) some rx d

end World

/-! ### The user -/

/-- In the state `v` the two encryptions with `user->shared_secret_ctx` are defined: where the
community has users, `user` is one of them, and has its context. -/
def AckCall.UserKnown (call : AckCall) (v : World) : Prop :=
  ∀ c, v.sss.communities.get? call.comm = some c → c.hasUsers = true →
    ∃ user ∈ c.allowedUsers, call.user = some user ∧ user.Ready

/-- The state in which the answer is encrypted. -/
def AckCall.answering (call : AckCall) (rx : Rx) (d : Dispatch) : World :=
  ((call.w.forwardRegistration rx d call.comm call.reg call.user).keyTimeHandling call.c
    call.reg.keyTime).1

/-- The user of a call, seen from the community as it was when the registration was accepted. -/
def AckCall.UserOf (call : AckCall) (c : Community) : Prop :=
  call.w.sss.UsersAt call.comm c.allowedUsers ∧
    (c.hasUsers = true → ∃ user ∈ c.allowedUsers, call.user = some user ∧ user.Ready)

/-- It is the same in every state in which the community has the same users. -/
theorem AckCall.UserOf.known {call : AckCall} {c : Community} (h : call.UserOf c) {v : World}
    (hv : v.sss.UsersAt call.comm c.allowedUsers) : call.UserKnown v := by
  intro c' hget husers
  have hsame := hv.2 c' hget
  rw [hsame]
  exact h.2 ((Community.hasUsers_congr hsame).symm.trans husers)

theorem Acts.usersAt {w w' : World} (h : Acts P (fun _ _ => False) w w') {p : ℕ}
    {users : List SnUser} (hw : w.sss.UsersAt p users) : w'.sss.UsersAt p users :=
  h.invariant (I := fun v => v.sss.UsersAt p users)
    (fun _ _ hv hact => hv.kept (hact.keyStep False.elim).usersKept) hw

theorem Community.findUser_mem {c : Community} {token : List UInt8} {user : SnUser}
    (h : c.findUser token = some user) : user ∈ c.allowedUsers :=
  List.mem_reverse.mp (List.mem_of_find?_eq_some h)

/-- The hash is checked with the user that the token belongs to. -/
theorem checkHash_user {c : Community} {d : Dispatch} {reg : RegisterSuper}
    {hash : List UInt8 × Option SnUser} (h : checkHash c d reg = some hash)
    (husers : c.hasUsers = true) {user : SnUser} (hfind : c.findUser reg.auth.token = some user) :
    hash.2 = some user := by
  unfold checkHash at h
  rw [if_pos husers, hfind] at h
  dsimp only at h
  split_ifs at h
  rw [← Option.some.inj h]

namespace World

/-- A call of the answer comes with a result of `update_edge` that is no failure. -/
theorem finishBy_eq_some {w : World} {rx : Rx} {d : Dispatch} {comm : ℕ} {c : Community}
    {reg : RegisterSuper} {hash : List UInt8 × Option SnUser} {ret : UpdateEdgeRet}
    {ack : RegisterSuperAck} {payloadBuf : List UInt8} {call : AckCall}
    (h : w.finishBy (fun _ => none) some rx d comm c reg hash ret ack payloadBuf = some call) :
    ret ≠ .authFail ∧ call = ⟨w, comm, c, reg, hash.2, ack, payloadBuf⟩ := by
  unfold finishBy at h
  split_ifs at h with hret
  exact ⟨hret, (Option.some.inj h).symm⟩

section

variable {w : World} {rx : Rx} {d : Dispatch} {comm : ℕ} {c : Community} {reg : RegisterSuper}
  {hash : List UInt8 × Option SnUser} {addr : IpSubnet} {call : AckCall}

/-- Supernodes do not authenticate, and the federation has no users. -/
theorem registerSupernodeBy_user (hw : w.sss.UsersAt comm c.allowedUsers)
    (hnone : c.allowedUsers = [])
    (h : w.registerSupernodeBy (fun _ => none) some rx d comm c reg hash addr = some call) :
    call.UserOf c := by
  unfold registerSupernodeBy at h
  dsimp only at h
  obtain ⟨-, rfl⟩ := finishBy_eq_some h
  refine ⟨?_, fun husers => ?_⟩
  · have hacts : Acts (fun _ => True) (fun _ _ => False) w
        ((w.registerSn rx reg).supernodeList rx).1 :=
      (w.registerSn_acts rx reg).trans (supernodeList_acts _ rx)
    exact hacts.usersAt hw
  · rw [Community.hasUsers, hnone] at husers
    cases husers

/-- **An edge that is not refused is a user's**, and `user` is the same user. -/
theorem registerEdgeBy_user (hready : UsersReady w) (hw : w.sss.UsersAt comm c.allowedUsers)
    (hhash : checkHash c d reg = some hash)
    (h : w.registerEdgeBy (fun _ => none) some rx d comm c reg hash addr = some call) :
    call.UserOf c := by
  unfold registerEdgeBy at h
  dsimp only at h
  have hlist := supernodeList_sss w rx
  generalize w.supernodeList rx = r at h hlist
  cases hget : r.1.sss.communities.get? comm with
  | none =>
    rw [hget] at h
    cases h
  | some c' =>
    rw [hget] at h
    obtain ⟨hret, rfl⟩ := finishBy_eq_some h
    have hget' : w.sss.communities.get? comm = some c' := hlist ▸ hget
    have hsame : c'.allowedUsers = c.allowedUsers := hw.2 c' hget'
    refine ⟨?_, fun husers => ?_⟩
    · have hupdate : r.1.sss.UsersKept (r.1.updateEdgeAt rx d comm c' reg).1.sss := by
        rw [World.updateEdgeAt_sss]
        exact (KeysKept.modifyEdges r.1.sss comm _).usersKept
      rw [← hlist] at hw
      exact hw.kept hupdate
    · have husers' : c'.hasUsers = true := (Community.hasUsers_congr hsame).trans husers
      have hsome : (c'.findUser reg.auth.token).isSome :=
        updateEdge_user husers' ((hready.ok.comms comm c' hget').schemes husers') hret
      obtain ⟨user, hfind⟩ := Option.isSome_iff_exists.mp hsome
      have hfind' : c.findUser reg.auth.token = some user := by
        unfold Community.findUser at hfind ⊢
        rwa [← hsame]
      have hmem : user ∈ c'.allowedUsers := Community.findUser_mem hfind
      exact ⟨user, hsame ▸ hmem, checkHash_user hhash husers hfind',
        hready.contexts comm c' hget' user hmem⟩

theorem acceptBy_user (hready : UsersReady w)
    (h : w.acceptBy (fun _ => none) some rx d comm reg = some call) :
    ∃ c, call.UserOf c := by
  unfold acceptBy at h
  cases hget : w.sss.communities.get? comm with
  | none =>
    rw [hget] at h
    cases h
  | some c =>
    rw [hget] at h
    dsimp only at h
    cases hhash : checkHash c d reg with
    | none =>
      rw [hhash] at h
      cases h
    | some hash =>
      rw [hhash] at h
      dsimp only at h
      have haddr := autoAddress_acts (P := fun _ => True) (U := fun _ _ => False) w comm reg
        rx.stack.success
      have husers := haddr.usersAt (UsersAt.of_get? hget)
      split_ifs at h with hself hfed
      · exact ⟨c, registerSupernodeBy_user husers ((hready.ok.comms comm c hget).userless hfed) h⟩
      · exact ⟨c, registerEdgeBy_user (hready.acts haddr) husers hhash h⟩

/-- **A registration that is answered has a user**, where the community has users. -/
theorem ackCall_user (hready : UsersReady w) (hpc : d.cmn.pc = msgTypeRegisterSuper)
    (h : w.ackCall rx d = some call) : ∃ c, call.UserOf c := by
  unfold ackCall registerBy at h
  dsimp only at h
  have hprovide : ∀ w : World, UsersReady w →
      w.provideBy (fun _ => none) some rx d (decodeRegisterSuper d.cmn d.udpBuf d.cur).out =
        some call → ∃ c, call.UserOf c := by
    intro w hw h
    unfold provideBy Sn.provideCommunity at h
    cases hcomm : d.comm with
    | some comm =>
      rw [hcomm] at h
      exact acceptBy_user hw h
    | none =>
      rw [hcomm] at h
      dsimp only at h
      split_ifs at h
      exact acceptBy_user
        (hw.acts (addCommunity_acts (P := fun _ => True) w d.cmn.community)) h
  cases hcomm : d.comm with
  | some comm =>
    rw [hcomm] at h
    dsimp only at h
    have hmac : d.freshMac = some d.registerSuper.edgeMac := by rw [Dispatch.freshMac, if_pos hpc]
    have hchecked : Checked w d (w.checkFresh comm d d.registerSuper.edgeMac).1 :=
      .fresh comm _ hcomm hmac
    split_ifs at h
    exact hprovide _ (hready.checked hchecked) h
  | none =>
    rw [hcomm] at h
    exact hprovide w hready h

end

end World

/-! ### Runs -/

/-- A supernode as `main` starts it: the federation has no users, and the users from the file have
their contexts. -/
structure SnUsersStarted (w : World) : Prop extends SnStarted w where
  userless : ∀ c, w.sss.communities.get? w.sss.federation = some c → c.allowedUsers = []
  contexts : w.sss.ContextsReady

/-- The runs of such a supernode, with loads. -/
def snUsersMachine : Machine World SnInput := { snReloadMachine with init := SnUsersStarted }

theorem UsersReady.started {w : World} (h : SnUsersStarted w) : UsersReady w := by
  obtain ⟨c, hget, hfed⟩ := h.federation
  refine ⟨⟨w.sss.communities.fresh _ (Table.get?_eq_some.mp hget), fun c' hget' => ?_,
    fun p c' hget' => ?_⟩, h.contexts⟩
  · obtain rfl := Option.some.inj (hget.symm.trans hget')
    exact hfed
  · cases hfed' : c'.isFederation with
    | true =>
      obtain rfl := h.onlyFederation p c' hget' hfed'
      exact .of_none (h.userless c' hget')
    | false =>
      refine ⟨fun htrue => ?_, fun _ e he => ?_⟩
      · exact absurd (hfed'.symm.trans htrue) (by decide)
      · -- there are no edges yet
        obtain ⟨q, hq⟩ := Table.mem_iff_get?.mp he
        exact absurd (Sn.edgeAt_eq_some.mpr ⟨c', hget', hfed', hq⟩) (h.edgeAt_ne p q e)

theorem usersReady_of_reach {w : World} (h : snUsersMachine.Reach anyStep w) : UsersReady w := by
  refine h.invariant (fun _ => .started) fun w input hw _ _ => ?_
  cases input with
  | event event => exact hw.step event
  | reload lines secret => exact World.loadAllowedSnCommunity_usersReady hw lines secret

/-- **Whoever is answered is known.** In every reachable state the entries of communities with
users were stored with the user/password scheme; and where a REGISTER_SUPER is passed on and
answered for such a community, `user` is one of its users, and has the context that both packets
are encrypted with. -/
theorem user_of_reach {w : World} (h : snUsersMachine.Reach anyStep w) :
    (∀ p c, w.sss.communities.get? p = some c → c.hasUsers = true →
      ∀ e ∈ c.edges, e.auth.scheme = authUserPassword) ∧
    ∀ rx d call, w.dispatched rx = some d → d.cmn.pc = msgTypeRegisterSuper →
      (w.opened rx).ackCall rx d = some call →
      call.UserKnown call.w ∧ call.UserKnown (call.answering rx d) := by
  have hw := usersReady_of_reach h
  refine ⟨fun p c hget => (hw.ok.comms p c hget).schemes, fun rx d call _ hpc hcall => ?_⟩
  obtain ⟨c, huser⟩ := World.ackCall_user (hw.opened rx) hpc hcall
  have hacts : Acts (fun _ => True) (fun _ _ => False) call.w (call.answering rx d) :=
    (World.forwardRegistration_acts call.w rx d call.comm call.reg call.user hpc
      fun _ _ => trivial).trans (World.keyTimeHandling_acts _ call.c _ fun _ _ _ => trivial)
  exact ⟨huser.known huser.1, huser.known (hacts.usersAt huser.1)⟩

theorem netSn_usersStarted : SnUsersStarted (.start netSn) where
  toSnStarted := netSn_started
  userless := by
    intro c hget
    rcases netSn_get? hget with ⟨-, rfl⟩ | ⟨-, rfl⟩ <;> rfl
  contexts := by
    intro p c hget user huser
    rcases netSn_get? hget with ⟨-, rfl⟩ | ⟨-, rfl⟩ <;> cases huser

/-- The REGISTER_SUPER of the user from the file: under the static key, and with the hash that
only the user can encrypt. -/
def userDatagram : List UInt8 :=
  let reg := { hostRegistration 1 with
    auth := ⟨authUserPassword, 48, List.replicate 48 1⟩ }
  let plain := (Msg.registerSuper reg).datagram (List.replicate 256 0)
    ⟨2, msgTypeRegisterSuper, 0, netName⟩ []
  let pkt := sealedFor plain 0x6400000000
  pkt ++ speck128Encrypt (pearsonHash128 pkt) (speckInit (List.replicate 32 0))

/-- The arguments of `process_udp` for it. -/
def userRx : Rx := ⟨hostSock 1 5000, 3, userDatagram, 100, zeroStack⟩

/-- The registration is answered, under the context of its user. -/
theorem user_of_reach_userSn :
    ∃ d call, userSn.dispatched userRx = some d ∧
      (userSn.opened userRx).ackCall userRx d = some call ∧ call.user.isSome = true ∧
      call.UserKnown call.w ∧ call.UserKnown (call.answering userRx d) := by
  have hinit : snUsersMachine.Reach anyStep (.start netSn) := .init netSn_usersStarted
  have hreach : snUsersMachine.Reach anyStep userSn :=
    hinit.step (SnInput.reload userFile fun _ => List.replicate 32 0) trivial trivial
  have hcalled : ((userSn.dispatched userRx).bind fun d =>
      ((userSn.opened userRx).ackCall userRx d).map fun call => (d.cmn.pc, call.user.isSome)) =
      some (msgTypeRegisterSuper, true) := by
    decide +kernel
  obtain ⟨d, hd, hcall⟩ := Option.bind_eq_some_iff.mp hcalled
  obtain ⟨call, hcall, heq⟩ := Option.map_eq_some_iff.mp hcall
  have hknown := (user_of_reach hreach).2 userRx d call hd (congrArg Prod.fst heq) hcall
  exact ⟨d, call, hd, hcall, congrArg Prod.snd heq, hknown⟩

end N2n
