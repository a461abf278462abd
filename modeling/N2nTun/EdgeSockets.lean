import N2nTun.SendFraming
import N2nTun.SnMachine

/-!
# The descriptors of edges

The entry of an edge holds the descriptor it came over.  The connection behind it may be
closed from many places, and `close_tcp_connection` removes one peer only.

## Main definitions

* `EdgeFdsOk` — every edge is reached over UDP or over an open connection.
* `OwnConnection` — the condition: a connection serves one edge only.

## Main results

* `edgeFdsOk_of_reach` — **as long as no registration comes over a connection that another
  edge is reached over, no edge refers to a closed connection.**
* `not_edgeFdsOk_shared` — two edges on one connection.
-/

namespace N2n

open Bytes Machines

/-- What is required: the descriptor of an edge is negative, the socket of UDP, or belongs to
a connection in the table that has not been closed. -/
def EdgeFdsOk (w : World) : Prop :=
  ∀ p c, w.sss.communities.get? p = some c → c.isFederation = false → ∀ e ∈ c.edges,
    e.socketFd < 0 ∨ e.socketFd = w.sss.sock ∨ w.sss.isOpen e.socketFd = true

/-! ### The invariant -/

namespace Sn

/-- The invariant: besides what is required, no two edges share a connection, no two edges of
a community share a MAC, and supernodes are reached over UDP. -/
structure FdsOk (sss : Sn) : Prop extends sss.EdgesOk where
  unique : sss.UniqueFds
  isOpen : ∀ p q e, sss.edgeAt p q = some e → sss.isTcp e.socketFd = true →
    sss.isOpen e.socketFd = true
  unshared : ∀ p q e p' q' e', sss.edgeAt p q = some e → sss.edgeAt p' q' = some e' →
    sss.isTcp e.socketFd = true → e.socketFd = e'.socketFd → p = p' ∧ q = q'
  supernodes : ∀ p c, sss.communities.get? p = some c → c.isFederation = true → ∀ e ∈ c.edges,
    sss.isTcp e.socketFd = false

variable {sss sss' : Sn}

/-- Fewer entries keep the invariant, if the connections of those that are left are still
open. -/
theorem FdsOk.shrink (h : sss.FdsOk) (hs : EdgesShrink sss sss') (hunique : sss'.UniqueFds)
    (hopen : ∀ p q e, sss'.edgeAt p q = some e → sss.isTcp e.socketFd = true →
      sss.isOpen e.socketFd = true → sss'.isOpen e.socketFd = true) : sss'.FdsOk where
  toEdgesOk := h.toEdgesOk.shrink hs
  unique := hunique
  isOpen := by
    intro p q e' he' htcp
    rw [hs.isTcp] at htcp
    obtain ⟨e, he, -, hfd⟩ := hs.edgeAt he'
    refine hopen p q e' he' htcp ?_
    rw [hfd] at htcp ⊢
    exact h.isOpen p q e he htcp
  unshared := by
    intro p q e' p₂ q₂ e₂' he' he₂' htcp heq
    rw [hs.isTcp] at htcp
    obtain ⟨e, he, -, hfd⟩ := hs.edgeAt he'
    obtain ⟨e₂, he₂, -, hfd₂⟩ := hs.edgeAt he₂'
    rw [hfd] at htcp
    exact h.unshared p q e p₂ q₂ e₂ he he₂ htcp (by rw [← hfd, ← hfd₂, heq])
  supernodes := by
    intro p c' hget' hc' e' he'
    rw [hs.isTcp]
    rcases hs.comms p c' hget' with ⟨c, hget, hflag, hkept⟩ | ⟨-, name, rfl⟩
    · obtain ⟨q, hq⟩ := Table.mem_iff_get?.mp he'
      obtain ⟨e, he, -, hfd⟩ := hkept q e' hq
      rw [hfd]
      exact h.supernodes p c hget (hflag ▸ hc') e (Table.mem_of_get? he)
    · exact absurd hc' Bool.false_ne_true

/-- An entry that is reached over TCP is an edge. -/
theorem FdsOk.edgeAt_of_tcp (h : sss.FdsOk) {p q : ℕ} {e : PeerInfo}
    (hq : (sss.edges p).get? q = some e) (htcp : sss.isTcp e.socketFd = true) :
    sss.edgeAt p q = some e := by
  cases hget : sss.communities.get? p with
  | none =>
    rw [Sn.edges, hget] at hq
    cases hq
  | some c =>
    rw [edges_of_get? hget] at hq
    refine edgeAt_eq_some.mpr ⟨c, hget, ?_, hq⟩
    by_contra hfed
    have hno := h.supernodes p c hget (by simpa using hfed) e (Table.mem_of_get? hq)
    exact absurd (hno.symm.trans htcp) (by decide)

/-! ### Closing connections -/

/-- An entry that is left is no longer reached over the closed connection. -/
theorem FdsOk.removePeerByFd_ne (h : sss.FdsOk) {fd : ℤ} (htcp : sss.isTcp fd = true) {p q : ℕ}
    {e : PeerInfo} (he : (sss.removePeerByFd fd).edgeAt p q = some e) : e.socketFd ≠ fd := by
  rintro rfl
  have he₀ : sss.edgeAt p q = some e := (Shrinks.removePeerByFd sss e.socketFd).edgeAt he
  obtain ⟨c, hget, hc, hq⟩ := edgeAt_eq_some.mp he₀
  -- some community has an edge on this descriptor, so that one is removed
  unfold Sn.removePeerByFd at he
  split at he
  · rename_i hnone
    have hno := Table.first?_eq_none.mp hnone c (Table.mem_of_get? hget)
    have hno : c.edgeByFd e.socketFd = none := by simpa using hno
    have hfd := Table.first?_eq_none.mp hno e (Table.mem_of_get? hq)
    simp at hfd
  · rename_i p' c' hfirst
    obtain ⟨hget', hsome⟩ := Table.first?_eq_some hfirst
    obtain ⟨⟨q', e'⟩, hq'⟩ := Option.isSome_iff_exists.mp hsome
    obtain ⟨hedge, hfd⟩ := Table.first?_eq_some hq'
    have hfd : e'.socketFd = e.socketFd := by simpa using hfd
    have he' : sss.edgeAt p' q' = some e' := by
      rw [← edges_of_get? hget'] at hedge
      exact h.edgeAt_of_tcp hedge (by rwa [hfd])
    obtain ⟨rfl, rfl⟩ := h.unshared p q e p' q' e' he₀ he' htcp hfd.symm
    -- it is the one in question
    obtain ⟨c'', hget'', -, hq''⟩ := edgeAt_eq_some.mp he
    unfold Sn.modifyComm at hget''
    rw [Table.get?_modify, if_pos rfl, hget'] at hget''
    obtain rfl := Option.some.inj hget''
    dsimp only at hq''
    rw [hq'] at hq''
    rw [Table.get?_del, if_pos rfl] at hq''
    cases hq''

/-- Closing the connection on `fd` keeps the invariant: one edge at most is reached over it,
and that one is removed. -/
theorem FdsOk.close (h : sss.FdsOk) (fd : ℤ) :
    (closeTcpConnection sss (sss.findConn fd)).FdsOk := by
  have hisOpen := closeTcpConnection_isOpen h.unique fd
  cases hfind : sss.findConn fd with
  | none => exact h
  | some conn =>
    rw [hfind] at hisOpen
    have hfd : conn.2.socketFd = fd := by simpa using (Table.find?_eq_some hfind).2
    have hs : EdgesShrink sss (closeTcpConnection sss (some conn)) :=
      (Shrinks.closeTcpConnection sss (some conn)).edgesShrink (closeTcpConnection_sock sss _)
        (closeTcpConnection_federation sss _)
    refine h.shrink hs (closeTcpConnection_uniqueFds h.unique _) ?_
    intro p q e he htcp hopen
    refine (hisOpen e.socketFd).mpr ⟨hopen, ?_⟩
    intro heq
    have he : (sss.removePeerByFd fd).edgeAt p q = some e := by
      rw [← hfd]
      exact he
    exact h.removePeerByFd_ne (heq ▸ htcp) he heq

/-- The connection that a purge removes. -/
theorem purgePeer_conns (sss : Sn) (p q : ℕ) (e : PeerInfo) :
    (sss.purgePeer p q e).tcpConnections = sss.tcpConnections ∨
      ∃ k conn, sss.findConn e.socketFd = some (k, conn) ∧ sss.isTcp e.socketFd = true ∧
        (sss.purgePeer p q e).tcpConnections = sss.tcpConnections.del k := by
  unfold Sn.purgePeer
  dsimp only
  split_ifs with htcp
  · split
    · rename_i k conn hfind
      exact Or.inr ⟨k, conn, hfind, htcp, rfl⟩
    · exact Or.inl rfl
  · exact Or.inl rfl

theorem isOpen_congr (h : sss'.tcpConnections = sss.tcpConnections) (fd : ℤ) :
    sss'.isOpen fd = sss.isOpen fd := by
  rw [Sn.isOpen, Sn.isOpen, h]

theorem UniqueFds.congr (hu : sss.UniqueFds) (h : sss'.tcpConnections = sss.tcpConnections) :
    sss'.UniqueFds := by
  unfold UniqueFds
  rw [h]
  exact hu

theorem FdsOk.purge (h : sss.FdsOk) {p q : ℕ} {e : PeerInfo}
    (hq : (sss.edges p).get? q = some e) : (sss.purgePeer p q e).FdsOk := by
  have hs : EdgesShrink sss (sss.purgePeer p q e) :=
    (Shrinks.purgePeer sss p q e).edgesShrink (purgePeer_sock sss p q e)
    (sss.purgePeer_federation p q e)
  rcases purgePeer_conns sss p q e with hconns | ⟨k, conn, hfind, htcp, hconns⟩
  · refine h.shrink hs (h.unique.congr hconns) ?_
    intro _ _ e' _ _ hopen
    rwa [isOpen_congr hconns]
  · have hunique : (sss.purgePeer p q e).UniqueFds := by
      intro x hx x' hx' heq
      rw [hconns] at hx hx'
      exact h.unique x (List.mem_of_mem_filter hx) x' (List.mem_of_mem_filter hx') heq
    refine h.shrink hs hunique ?_
    intro p' q' e' he' htcp' hopen
    obtain ⟨x, hx, hfd, hact⟩ := isOpen_iff.mp hopen
    refine isOpen_iff.mpr ⟨x, ?_, hfd, hact⟩
    rw [hconns]
    refine List.mem_filter.mpr ⟨hx, ?_⟩
    -- else the entry that is left would share the connection with the one that is purged
    simp only [bne_iff_ne, ne_eq]
    rintro rfl
    obtain ⟨hconn, hkey⟩ := Table.find?_eq_some hfind
    have hx' : x.2 = conn := by
      have hget := Table.get?_eq_some.mpr hx
      rw [hconn] at hget
      exact (Option.some.inj hget).symm
    have heq : e.socketFd = e'.socketFd := by
      rw [← hfd, hx']
      exact (by simpa using hkey : conn.socketFd = e.socketFd).symm
    have hedge : sss.edgeAt p q = some e := h.edgeAt_of_tcp hq htcp
    have he₀ : sss.edgeAt p' q' = some e' := (Shrinks.purgePeer sss p q e).edgeAt he'
    obtain ⟨rfl, rfl⟩ := h.unshared p q e p' q' e' hedge he₀ htcp heq
    obtain ⟨c', hget', -, hq'⟩ := edgeAt_eq_some.mp he'
    rw [← edges_of_get? hget', purgePeer_edges, Table.get?_del, if_pos rfl] at hq'
    cases hq'

/-! ### The federation and `update_edge` -/

theorem isTcp_sock (sss : Sn) : sss.isTcp sss.sock = false := by simp [Sn.isTcp]

theorem FdsOk.federation (h : sss.FdsOk) {f : Table PeerInfo → Table PeerInfo}
    (hf : ∀ e ∈ f (sss.edges sss.federation), e.socketFd = sss.sock ∨
      ∃ e' ∈ sss.edges sss.federation, e'.socketFd = e.socketFd) :
    (sss.modifyEdges sss.federation f).FdsOk where
  toEdgesOk := h.toEdgesOk.federation f
  unique := h.unique
  isOpen := by
    intro p q e he htcp
    rw [edgeAt_modifyEdges_federation h.pointer] at he
    exact h.isOpen p q e he htcp
  unshared := by
    intro p q e p' q' e' he he' htcp heq
    rw [edgeAt_modifyEdges_federation h.pointer] at he he'
    exact h.unshared p q e p' q' e' he he' htcp heq
  supernodes := by
    intro p c' hget' hc' e he
    obtain ⟨c, hget, hflag, ⟨rfl, rfl⟩ | ⟨-, rfl⟩⟩ := modifyEdges_get? hget'
    · replace he : e ∈ f c.edges := he
      rw [← edges_of_get? hget] at he
      rcases hf e he with hsock | ⟨e', he', hfd⟩
      · rw [hsock]
        exact isTcp_sock sss
      · rw [edges_of_get? hget] at he'
        have hno := h.supernodes _ c hget hc' e' he'
        rwa [hfd] at hno
    · exact h.supernodes p _ hget hc' e he

/-- No edge but the one with the MAC `mac` in the community at `comm` is reached over `fd`. -/
def OnlyEdge (sss : Sn) (fd : ℤ) (comm : ℕ) (mac : Mac) : Prop :=
  ∀ p q e, sss.edgeAt p q = some e → e.socketFd = fd → p = comm ∧ e.macAddr = mac

theorem OnlyEdge.shrink {fd : ℤ} {comm : ℕ} {mac : Mac} (h : sss.OnlyEdge fd comm mac)
    (hs : EdgesShrink sss sss') : sss'.OnlyEdge fd comm mac := by
  intro p q e' he' hfd
  obtain ⟨e, he, hmac, hfd'⟩ := hs.edgeAt he'
  rw [hmac]
  exact h p q e he (hfd'.symm.trans hfd)

section

variable {comm q₀ : ℕ} {c : Community} {mac : Mac} {fd : ℤ} {t : Table PeerInfo} {e₀ : PeerInfo}

/-- The connection of the edge that `update_edge` has touched is open. -/
theorem FdsOk.updated_isOpen (h : sss.FdsOk) (hget : sss.communities.get? comm = some c)
    (hc : c.isFederation = false) (hu : UpdatedAt c.edges t mac fd q₀ e₀)
    (hopen : sss.isTcp fd = true → sss.isOpen fd = true) (htcp : sss.isTcp e₀.socketFd = true) :
    sss.isOpen e₀.socketFd = true := by
  rcases hu.origin with ⟨e₁, he₁, -, hfd | hfd, -⟩ | ⟨-, -, hfd⟩
  · rw [hfd] at htcp ⊢
    exact h.isOpen comm q₀ e₁ (by rw [edgeAt_of_get? hget hc, he₁]) htcp
  · rw [hfd] at htcp ⊢
    exact hopen htcp
  · rw [hfd] at htcp ⊢
    exact hopen htcp

/-- It is reached over a connection of its own. -/
theorem FdsOk.updated_unshared (h : sss.FdsOk) (hget : sss.communities.get? comm = some c)
    (hc : c.isFederation = false) (hu : UpdatedAt c.edges t mac fd q₀ e₀)
    (honly : sss.isTcp fd = true → sss.OnlyEdge fd comm mac)
    (htcp : sss.isTcp e₀.socketFd = true) {p q : ℕ} {e : PeerInfo}
    (he : sss.edgeAt p q = some e) (hother : p ≠ comm ∨ q ≠ q₀) : e.socketFd ≠ e₀.socketFd := by
  intro heq
  -- the one edge on the descriptor of the registration has its MAC
  have hown : e₀.socketFd = fd → False := by
    intro hfd
    obtain ⟨rfl, hmac⟩ := honly (hfd ▸ htcp) p q e he (heq.trans hfd)
    rcases hother with hp | hq
    · exact hp rfl
    · exact h.toEdgesOk.mac_ne hget hc hu he hq hmac
  rcases hu.origin with ⟨e₁, he₁, -, hfd | hfd, -⟩ | ⟨-, -, hfd⟩
  · rw [← edgeAt_of_get? hget hc] at he₁
    rw [hfd] at htcp heq
    obtain ⟨rfl, rfl⟩ := h.unshared comm q₀ e₁ p q e he₁ he htcp heq.symm
    simp at hother
  · exact hown hfd
  · exact hown hfd

/-- **`update_edge` keeps the invariant** if no other edge is reached over the connection of
the registration. -/
theorem FdsOk.update (h : sss.FdsOk) (hget : sss.communities.get? comm = some c)
    (hc : c.isFederation = false) (hu : UpdatedAt c.edges t mac fd q₀ e₀)
    (hopen : sss.isTcp fd = true → sss.isOpen fd = true)
    (honly : sss.isTcp fd = true → sss.OnlyEdge fd comm mac) :
    (sss.modifyEdges comm fun _ => t).FdsOk where
  toEdgesOk := h.toEdgesOk.update hget hc hu
  unique := h.unique
  isOpen := by
    intro p q e he htcp
    rcases edgeAt_updated hget hc hu he with ⟨-, -, rfl⟩ | ⟨-, he⟩
    · exact h.updated_isOpen hget hc hu hopen htcp
    · exact h.isOpen p q e he htcp
  unshared := by
    intro p q e p' q' e' he he' htcp heq
    rcases edgeAt_updated hget hc hu he with ⟨rfl, rfl, rfl⟩ | ⟨hne, hold⟩ <;>
      rcases edgeAt_updated hget hc hu he' with ⟨rfl, rfl, rfl⟩ | ⟨hne', hold'⟩
    · exact ⟨rfl, rfl⟩
    · exact absurd heq.symm (h.updated_unshared hget hc hu honly htcp hold' hne')
    · exact absurd heq (h.updated_unshared hget hc hu honly (heq ▸ htcp) hold hne)
    · exact h.unshared p q e p' q' e' hold hold' htcp heq
  supernodes := by
    intro p c' hget' hc' e he
    obtain ⟨c₀, hc₀, hflag, ⟨rfl, -⟩ | ⟨-, rfl⟩⟩ := modifyEdges_get? hget'
    · obtain rfl := Option.some.inj (hget.symm.trans hc₀)
      exact absurd (hc.symm.trans (hflag.symm.trans hc')) (by decide)
    · exact h.supernodes p _ hc₀ hc' e he

theorem OnlyEdge.update (h : sss.OnlyEdge fd comm mac) (hget : sss.communities.get? comm = some c)
    (hc : c.isFederation = false) (hu : UpdatedAt c.edges t mac fd q₀ e₀) :
    (sss.modifyEdges comm fun _ => t).OnlyEdge fd comm mac := by
  intro p q e he hfd
  rcases edgeAt_updated hget hc hu he with ⟨rfl, -, rfl⟩ | ⟨-, he⟩
  · exact ⟨rfl, hu.mac_eq⟩
  · exact h p q e he hfd

end

/-! ### Messages -/

/-- Fewer entries and the same connections. -/
theorem FdsOk.sameConns (h : sss.FdsOk) (hs : EdgesShrink sss sss')
    (hconns : sss'.tcpConnections = sss.tcpConnections) : sss'.FdsOk := by
  refine h.shrink hs (h.unique.congr hconns) ?_
  intro _ _ _ _ _ hopen
  rwa [isOpen_congr hconns]

theorem openHeader_conns (sss : Sn) (rx : Rx) :
    (sss.openHeader rx).1.tcpConnections = sss.tcpConnections := by
  rcases sss.openHeader_cases rx with heq | ⟨p, c, -, ⟨-, heq⟩ | heq⟩ <;> rw [heq] <;> rfl

end Sn

open Sn

variable {P : Emission → Prop} {U : World → World → Prop}

/-- **Every act but `update_edge` keeps the invariant.** -/
theorem Act.fdsOk {w w' : World} (h : Act P U w w') (hw : w.sss.FdsOk)
    (hU : U w w' → w'.sss.FdsOk) : w'.sss.FdsOk := by
  rcases h.shrinks with hs | ⟨f, hf, rfl⟩ | hupdate
  · cases h with
    | close fd _ => exact hw.close fd
    | purge p q e hq => exact hw.purge hq
    | update h _ _ => exact hU h
    | _ => exact hw.sameConns (hs.edgesShrink rfl rfl) rfl
  · exact hw.federation hf
  · exact hU hupdate

theorem Acts.fdsOk {w w' : World} (h : Acts P (fun _ _ => False) w w') (hw : w.sss.FdsOk) :
    w'.sss.FdsOk :=
  h.invariant (I := fun v => v.sss.FdsOk) (fun _ _ hv hact => hact.fdsOk hv False.elim) hw

theorem Act.onlyEdge {w w' : World} {fd : ℤ} {comm : ℕ} {mac : Mac} (h : Act P U w w')
    (hw : w.sss.FdsOk) (honly : w.sss.OnlyEdge fd comm mac)
    (hU : U w w' → w'.sss.OnlyEdge fd comm mac) : w'.sss.OnlyEdge fd comm mac := by
  rcases h.shrinks with hs | ⟨f, -, rfl⟩ | hupdate
  · exact fun p q e he => honly p q e (hs.edgeAt he)
  · intro p q e he
    replace he : (w.sss.modifyEdges w.sss.federation f).edgeAt p q = some e := he
    rw [edgeAt_modifyEdges_federation hw.pointer] at he
    exact honly p q e he
  · exact hU hupdate

/-- The condition: a registration that comes over a TCP connection finds no other edge that
is reached over it. -/
def OwnConnection (w : World) (rx : Rx) : Prop :=
  ∀ d, w.dispatched rx = some d → d.cmn.pc = msgTypeRegisterSuper → ¬ d.Federated w.sss →
    w.sss.isTcp rx.socketFd = true →
    w.sss.OnlyEdge rx.socketFd (d.target w.sss) d.registerSuper.edgeMac

/-- The first stage does not make a message one of the federation. -/
theorem Dispatch.federated_opened (d : Dispatch) (w : World) (rx : Rx)
    (h : d.Federated w.sss) : d.Federated (w.opened rx).sss := by
  obtain ⟨p, c, hcomm, hget, hc⟩ := h
  have hsame : ∀ q (f : Community → Community), (∀ c, (f c).isFederation = c.isFederation) →
      d.Federated (w.sss.modifyComm q f) := by
    intro q f hf
    by_cases hp : p = q
    · subst hp
      exact ⟨p, f c, hcomm, Table.get?_modify_self hget, (hf c).trans hc⟩
    · exact ⟨p, c, hcomm, (Table.get?_modify_other hp f).trans hget, hc⟩
  rcases w.sss.openHeader_cases rx with heq | ⟨q, c', -, ⟨-, heq⟩ | heq⟩
  · rw [World.opened, heq]
    exact ⟨p, c, hcomm, hget, hc⟩
  · rw [World.opened, heq]
    exact hsame q _ fun _ => rfl
  · rw [World.opened, heq]
    exact hsame q _ fun _ => rfl

theorem Dispatch.target_opened (d : Dispatch) (w : World) (rx : Rx) :
    d.target (w.opened rx).sss = d.target w.sss := by
  rcases w.sss.openHeader_cases rx with heq | ⟨q, c', -, ⟨-, heq⟩ | heq⟩ <;>
    rw [World.opened, heq] <;> rfl

namespace World

/-- **A message keeps the invariant**, if a registration finds no other edge on its
connection. -/
theorem dispatch_fdsOk (w : World) (rx : Rx) (d : Dispatch) (hw : w.sss.FdsOk)
    (hopen : w.sss.isTcp rx.socketFd = true → w.sss.isOpen rx.socketFd = true)
    (hown : d.cmn.pc = msgTypeRegisterSuper → ¬ d.Federated w.sss →
      w.sss.isTcp rx.socketFd = true →
      w.sss.OnlyEdge rx.socketFd (d.target w.sss) d.registerSuper.edgeMac) :
    (w.dispatch rx d).sss.FdsOk := by
  let Only : Sn → Prop := fun sss => d.cmn.pc = msgTypeRegisterSuper → ¬ d.Federated w.sss →
    w.sss.isTcp rx.socketFd = true →
    sss.OnlyEdge rx.socketFd (d.target w.sss) d.registerSuper.edgeMac
  let U : World → World → Prop := fun v v' =>
    d.cmn.pc = msgTypeRegisterSuper ∧ Updates w.sss rx d v v'
  obtain ⟨w₁, hcheck, hacts⟩ := w.dispatch_acts rx d (P := fun _ => True) (U := U)
    (fun _ _ => trivial) (fun _ _ _ _ => trivial) fun hpc _ _ h => ⟨hpc, h⟩
  -- the registration finds the table without other edges on its connection
  have hstep : ∀ v v', v.sss.FdsOk ∧ v.sss.sock = w.sss.sock ∧ Only v.sss →
      Act (fun _ => True) U v v' → v'.sss.FdsOk ∧ v'.sss.sock = w.sss.sock ∧ Only v'.sss := by
    rintro v v' ⟨hv, hsock, honly⟩ hact
    have hsock' := hact.sock_eq.trans hsock
    have htcp : v.sss.isTcp rx.socketFd = w.sss.isTcp rx.socketFd := by
      rw [Sn.isTcp, Sn.isTcp, hsock]
    refine ⟨hact.fdsOk hv ?_, hsock', fun hpc hno hfd => ?_⟩
    · rintro ⟨hpc, hupdate⟩
      rcases hupdate.cases with hsss | ⟨c, t, q, e, hget, hc, hsss, hu⟩
      · rwa [hsss]
      · obtain ⟨hno, -, -, -, hconns, -⟩ := hupdate
        rw [hsss]
        refine hv.update hget hc hu ?_ fun h => honly hpc hno (htcp ▸ h)
        intro h
        rw [isOpen_congr hconns]
        exact hopen (htcp ▸ h)
    · refine hact.onlyEdge hv (honly hpc hno hfd) ?_
      rintro ⟨-, hupdate⟩
      rcases hupdate.cases with hsss | ⟨c, t, q, e, hget, hc, hsss, hu⟩
      · rw [hsss]
        exact honly hpc hno hfd
      · rw [hsss]
        exact (honly hpc hno hfd).update hget hc hu
  have hw₁ : w₁.sss.FdsOk := hw.sameConns hcheck.edgesShrink hcheck.conns_eq
  have honly₁ : Only w₁.sss := fun hpc hno hfd => (hown hpc hno hfd).shrink hcheck.edgesShrink
  exact (hacts.invariant (I := fun v => v.sss.FdsOk ∧ v.sss.sock = w.sss.sock ∧ Only v.sss) hstep
    ⟨hw₁, hcheck.sock_eq, honly₁⟩).1

theorem processUdp_fdsOk (w : World) (rx : Rx) (hw : w.sss.FdsOk)
    (hopen : w.sss.isTcp rx.socketFd = true → w.sss.isOpen rx.socketFd = true)
    (hown : OwnConnection w rx) : (w.processUdp rx).sss.FdsOk := by
  have hs : EdgesShrink w.sss (w.opened rx).sss := w.sss.openHeader_edges rx
  have hconns : (w.opened rx).sss.tcpConnections = w.sss.tcpConnections :=
    w.sss.openHeader_conns rx
  have hw₁ : (w.opened rx).sss.FdsOk := hw.sameConns hs hconns
  unfold processUdp
  cases hd : w.dispatched rx with
  | none => exact hw₁
  | some d =>
    refine dispatch_fdsOk _ rx d hw₁ ?_ ?_
    · rw [hs.isTcp, isOpen_congr hconns]
      exact hopen
    · intro hpc hno hfd
      rw [hs.isTcp] at hfd
      rw [d.target_opened]
      exact (hown d hd hpc (fun h => hno (d.federated_opened w rx h)) hfd).shrink hs

end World

/-! ### The loop -/

namespace Sn

variable {sss : Sn}

/-- The connection that a descriptor belongs to. -/
theorem findConn_eq (hu : sss.UniqueFds) {p : ℕ} {conn : TcpConnection}
    (hget : sss.tcpConnections.get? p = some conn) :
    sss.findConn conn.socketFd = some (p, conn) := by
  have hmem := Table.get?_eq_some.mp hget
  cases hfind : sss.findConn conn.socketFd with
  | none =>
    have hno := Table.find?_eq_none.mp hfind conn (Table.mem_of_get? hget)
    simp at hno
  | some e =>
    obtain ⟨hget', hkey⟩ := Table.find?_eq_some hfind
    have hfd : e.2.socketFd = conn.socketFd := by simpa using hkey
    rw [hu e (Table.get?_eq_some.mp hget') (p, conn) hmem hfd]

/-- A connection is closed that may have been written to since it was looked up. -/
theorem FdsOk.closeAt (h : sss.FdsOk) {p : ℕ} {conn conn' : TcpConnection}
    (hget : sss.tcpConnections.get? p = some conn') (hfd : conn'.socketFd = conn.socketFd) :
    (closeTcpConnection sss (some (p, conn))).FdsOk := by
  have hclose := h.close conn'.socketFd
  rw [findConn_eq h.unique hget] at hclose
  dsimp only [closeTcpConnection] at hclose ⊢
  rwa [hfd] at hclose

/-- Connections that differ in their buffers only. -/
theorem FdsOk.conns (h : sss.FdsOk) {t : Table TcpConnection}
    (hfrom : ∀ p conn', t.get? p = some conn' →
      ∃ conn, sss.tcpConnections.get? p = some conn ∧ conn'.socketFd = conn.socketFd)
    (hopen : ∀ fd, sss.isOpen fd = true → Sn.isOpen { sss with tcpConnections := t } fd = true) :
    FdsOk { sss with tcpConnections := t } := by
  have hs : EdgesShrink sss { sss with tcpConnections := t } := .of_eq rfl rfl rfl
  refine h.shrink hs ?_ fun _ _ e _ _ h => hopen e.socketFd h
  intro x hx x' hx' heq
  obtain ⟨conn, hget, hfd⟩ := hfrom x.1 x.2 (Table.get?_eq_some.mpr hx)
  obtain ⟨conn', hget', hfd'⟩ := hfrom x'.1 x'.2 (Table.get?_eq_some.mpr hx')
  have hsame : (x.1, conn) = (x'.1, conn') :=
    h.unique _ (Table.get?_eq_some.mp hget) _ (Table.get?_eq_some.mp hget')
      (hfd.symm.trans (heq.trans hfd'))
  have hp : x.1 = x'.1 := (Prod.mk.inj hsame).1
  have hval : some x.2 = some x'.2 :=
    (Table.get?_eq_some.mpr hx).symm.trans (hp ▸ Table.get?_eq_some.mpr hx')
  exact Prod.ext hp (Option.some.inj hval)

/-- A write to the buffer of a connection. -/
theorem FdsOk.modifyConn (h : sss.FdsOk) {p : ℕ} {f : TcpConnection → TcpConnection}
    (hf : ∀ conn, sss.tcpConnections.get? p = some conn →
      (f conn).socketFd = conn.socketFd ∧ (f conn).inactive = conn.inactive) :
    FdsOk { sss with tcpConnections := sss.tcpConnections.modify p f } := by
  refine h.conns ?_ ?_
  · intro q conn' hget
    rw [Table.get?_modify] at hget
    split_ifs at hget with hq
    · obtain ⟨conn, hconn, rfl⟩ := Option.map_eq_some_iff.mp hget
      exact ⟨conn, hconn, (hf conn (hq ▸ hconn)).1⟩
    · exact ⟨conn', hget, rfl⟩
  · intro fd hopen
    obtain ⟨x, hx, hfd, hact⟩ := isOpen_iff.mp hopen
    have hget := Table.get?_eq_some.mpr hx
    by_cases hp : x.1 = p
    · obtain ⟨hfd', hact'⟩ := hf x.2 (hp ▸ hget)
      have hself : (sss.tcpConnections.modify p f).get? p = some (f x.2) :=
        Table.get?_modify_self (hp ▸ hget)
      exact isOpen_iff.mpr ⟨(p, f x.2), Table.get?_eq_some.mp hself, hfd'.trans hfd,
        hact'.trans hact⟩
    · have hother : (sss.tcpConnections.modify p f).get? x.1 = some x.2 :=
        (Table.get?_modify_other hp f).trans hget
      exact isOpen_iff.mpr ⟨x, Table.get?_eq_some.mp hother, hfd, hact⟩

theorem FdsOk.removeInactive (h : sss.FdsOk) : sss.removeInactive.FdsOk := by
  refine h.conns ?_ ?_
  · intro p conn hget
    have hmem := Table.get?_eq_some.mp hget
    exact ⟨conn, Table.get?_eq_some.mpr (List.mem_of_mem_filter hmem), rfl⟩
  · intro fd hopen
    obtain ⟨x, hx, hfd, hact⟩ := isOpen_iff.mp hopen
    exact isOpen_iff.mpr ⟨x, List.mem_filter.mpr ⟨hx, by simpa using hact⟩, hfd, hact⟩

/-- A new connection, on a descriptor that is not in use. -/
theorem FdsOk.accept (h : sss.FdsOk) {fd : ℤ} (sock : Sock) (hnew : sss.isOpen fd = false) :
    FdsOk { sss.removeInactive with
      tcpConnections := sss.removeInactive.tcpConnections.add (.accepted fd sock) } := by
  have hr := h.removeInactive
  have hs : EdgesShrink sss.removeInactive { sss.removeInactive with
      tcpConnections := sss.removeInactive.tcpConnections.add (.accepted fd sock) } :=
    .of_eq rfl rfl rfl
  -- an entry that has stayed belongs to an open connection
  have hstay : ∀ x ∈ sss.removeInactive.tcpConnections.entries, x.2.socketFd ≠ fd := by
    rintro x hx rfl
    obtain ⟨hmem, hact⟩ := List.mem_filter.mp hx
    have hopen : sss.isOpen x.2.socketFd = true :=
      isOpen_iff.mpr ⟨x, hmem, rfl, by simpa using hact⟩
    exact absurd (hnew.symm.trans hopen) (by decide)
  refine hr.shrink hs ?_ ?_
  · intro x hx x' hx' heq
    rcases List.mem_append.mp hx with hx | hx <;> rcases List.mem_append.mp hx' with hx' | hx'
    · exact hr.unique x hx x' hx' heq
    · rw [List.mem_singleton.mp hx'] at heq
      exact absurd heq (hstay x hx)
    · rw [List.mem_singleton.mp hx] at heq
      exact absurd heq.symm (hstay x' hx')
    · rw [List.mem_singleton.mp hx, List.mem_singleton.mp hx']
  · intro _ _ e _ _ hopen
    obtain ⟨x, hx, hfd, hact⟩ := isOpen_iff.mp hopen
    exact isOpen_iff.mpr ⟨x, List.mem_append_left _ hx, hfd, hact⟩

/-- Closing one connection after the other. -/
theorem FdsOk.closeList (conns : List (ℕ × TcpConnection)) {sss : Sn} (h : sss.FdsOk)
    (hget : ∀ c ∈ conns, ∃ conn', sss.tcpConnections.get? c.1 = some conn' ∧
      conn'.socketFd = c.2.socketFd) :
    (conns.foldl (fun sss conn => closeTcpConnection sss (some conn)) sss).FdsOk := by
  induction conns generalizing sss with
  | nil => exact h
  | cons c conns ih =>
    obtain ⟨conn', hconn', hfd⟩ := hget c List.mem_cons_self
    refine ih (h.closeAt hconn' hfd) ?_
    -- the others are still there
    intro c' hc'
    obtain ⟨conn', hconn', hfd'⟩ := hget c' (List.mem_cons_of_mem _ hc')
    dsimp only [closeTcpConnection]
    rw [removePeerByFd_conns, Table.get?_modify]
    split_ifs
    · exact ⟨conn'.close, by rw [hconn']; rfl, hfd'⟩
    · exact ⟨conn', hconn', hfd'⟩

end Sn

theorem TcpConnection.recv_fd (conn : TcpConnection) (bread : List UInt8) :
    (conn.recv bread).1.socketFd = conn.socketFd ∧
      (conn.recv bread).1.inactive = conn.inactive := by
  unfold TcpConnection.recv
  split_ifs
  · exact ⟨rfl, rfl⟩
  · split <;> exact ⟨rfl, rfl⟩

/-- The bytes of a connection keep the invariant. -/
theorem World.tcpInput_fdsOk {w : World} (hw : w.sss.FdsOk) {p : ℕ} {conn : TcpConnection}
    (hget : w.sss.tcpConnections.get? p = some conn) (hact : conn.inactive = false)
    (bread left : List UInt8) (now : ℤ) (stack : Stack)
    (hown : ∀ udpBuf, (conn.recv bread).2 = .packet udpBuf →
      OwnConnection (w.modifyConn p fun _ => (conn.recv bread).1)
        ⟨conn.sock, conn.socketFd, udpBuf, now, stack⟩) :
    (w.tcpInput p conn bread left now stack).sss.FdsOk := by
  obtain ⟨hfd, hinactive⟩ := conn.recv_fd bread
  unfold World.tcpInput
  generalize conn.recv bread = r at hown hfd hinactive
  obtain ⟨conn', read⟩ := r
  dsimp only at hown hfd hinactive ⊢
  have hw₁ : (w.modifyConn p fun _ => conn').sss.FdsOk := by
    refine hw.modifyConn fun c hc => ?_
    obtain rfl := Option.some.inj (hget.symm.trans hc)
    exact ⟨hfd, hinactive⟩
  have hget₁ : (w.modifyConn p fun _ => conn').sss.tcpConnections.get? p = some conn' :=
    Table.get?_modify_self hget
  cases read with
  | wait => exact hw₁
  | close => exact hw₁.closeAt hget₁ rfl
  | packet udpBuf =>
    have hopen : (w.modifyConn p fun _ => conn').sss.isOpen conn.socketFd = true :=
      Sn.isOpen_iff.mpr ⟨(p, conn'), Table.get?_eq_some.mp hget₁, hfd, hinactive.trans hact⟩
    have hw₂ := World.processUdp_fdsOk _ _ hw₁ (fun _ => hopen) (hown udpBuf rfl)
    exact hw₂.modifyConn fun _ _ => ⟨rfl, rfl⟩

/-- The condition on an event. -/
def OwnConnections (w : World) (event : SnEvent) : Prop :=
  ∀ rx, event.rx w = some rx → OwnConnection w rx

theorem Sn.FdsOk.started {w : World} (h : SnStarted w) : w.sss.FdsOk where
  toEdgesOk := .started h
  unique := by
    intro x hx
    rw [h.conns] at hx
    cases hx
  isOpen := fun p q e he => absurd he (h.edgeAt_ne p q e)
  unshared := fun p q e _ _ _ he => absurd he (h.edgeAt_ne p q e)
  supernodes := by
    intro p c hget hc e he
    rw [h.supernodes p c hget hc e he]
    exact Sn.isTcp_sock w.sss

/-- **Every step keeps the invariant** if registrations come over connections of their
own. -/
theorem Sn.FdsOk.step {w : World} {event : SnEvent} (hw : w.sss.FdsOk)
    (hen : SnEnabled w event) (hown : OwnConnections w event) : (snStep w event).sss.FdsOk := by
  cases event with
  | udp sender udpBuf now stack =>
    refine w.processUdp_fdsOk _ hw (fun h => ?_) (hown _ rfl)
    exact absurd (h.symm.trans (Sn.isTcp_sock w.sss)) (by decide)
  | tcp p bread left now stack =>
    obtain ⟨conn, hget, hact, -⟩ := hen
    dsimp only [snStep]
    rw [hget]
    refine World.tcpInput_fdsOk hw hget hact bread left now stack ?_
    intro udpBuf hread
    have hrx : SnEvent.rx w (.tcp p bread left now stack) =
        some ⟨conn.sock, conn.socketFd, udpBuf, now, stack⟩ := by
      dsimp only [SnEvent.rx]
      rw [hget, Option.bind_some, hread]
    intro d hd
    rw [World.dispatched_modifyConn] at hd
    exact hown _ hrx d hd
  | accept fd sock => exact hw.accept sock hen.2
  | reap => exact hw.removeInactive
  | closeAll =>
    refine Sn.FdsOk.closeList _ hw ?_
    exact fun c hc => ⟨c.2, Table.get?_eq_some.mpr hc, rfl⟩
  | reRegister last now =>
    exact Acts.fdsOk (w.reRegisterAndPurgeSupernodes_acts last now
      (P := fun _ => True) fun _ _ => trivial) hw
  | purge last now =>
    exact Acts.fdsOk (P := fun _ => True) (w.purgeExpiredCommunities_acts last now) hw
  | sort last now =>
    exact Acts.fdsOk (P := fun _ => True) (w.sortCommunities_acts last now) hw
  | kcp ctrl data => exact hw.sameConns (.of_eq rfl rfl rfl) rfl

/-- **As long as no registration comes over a connection that another edge is reached over,
no edge refers to a closed connection**, in every run. -/
theorem edgeFdsOk_of_reach {w : World} (h : snMachine.Reach OwnConnections w) : EdgeFdsOk w := by
  have hw : w.sss.FdsOk := h.invariant (I := fun w => w.sss.FdsOk)
    (fun _ hinit => .started hinit) fun _ _ hw hen hown => hw.step hen hown
  intro p c hget hc e he
  obtain ⟨q, hq⟩ := Table.mem_iff_get?.mp he
  have hedge : w.sss.edgeAt p q = some e := Sn.edgeAt_eq_some.mpr ⟨c, hget, hc, hq⟩
  by_cases htcp : w.sss.isTcp e.socketFd = true
  · exact Or.inr (Or.inr (hw.isOpen p q e hedge htcp))
  · rw [Sn.isTcp, Bool.and_eq_true, decide_eq_true_eq, bne_iff_ne, not_and_or, not_not,
      not_le] at htcp
    rcases htcp with hneg | hsock
    · exact Or.inl hneg
    · exact Or.inr (Or.inl hsock)

/-! ### Two edges on one connection -/

/-- The edge 02:00:00:00:00:`b` registers over the connection at address 0. -/
def registersOver (b : UInt8) : List SnEvent :=
  [.tcp 0 (bytes16 (UInt16.ofNat (hostDatagram b).length)) [] 100 zeroStack,
    .tcp 0 (hostDatagram b) (hostDatagram b) 100 zeroStack]

/-- A connection on descriptor 5, over which one edge registers. -/
def oneEdge : List SnEvent := .accept 5 (hostSock 1 5000) :: registersOver 1

/-- Two edges register over the connection, and it ends. -/
def sharedConnection : List SnEvent :=
  oneEdge ++ registersOver 2 ++ [.tcp 0 [] [] 100 zeroStack]

/-- The first edge finds none on its connection. -/
theorem ownConnections_netSn {w : World} (h : w.sss.communities = netSn.communities)
    (event : SnEvent) : OwnConnections w event := by
  intro rx _ d _ _ _ _ p q e he
  obtain ⟨c, hget, -, hq⟩ := Sn.edgeAt_eq_some.mp he
  rw [h] at hget
  rcases netSn_get? hget with ⟨-, rfl⟩ | ⟨-, rfl⟩ <;> cases hq

/-- An edge that is reached over the connection on descriptor 5, which is open. -/
theorem edgeFdsOk_oneEdge :
    EdgeFdsOk (oneEdge.foldl snStep (.start netSn)) ∧
      ((oneEdge.foldl snStep (.start netSn)).sss.edgeAt 1 0).map (·.socketFd) = some 5 := by
  have h₁ : snMachine.Reach OwnConnections (snStep (.start netSn) (.accept 5 (hostSock 1 5000))) :=
    .step (M := snMachine) (.accept 5 (hostSock 1 5000)) (.init netSn_started) (by decide)
      (ownConnections_netSn rfl _)
  have h₂ := Machine.Reach.step (M := snMachine)
    (.tcp 0 (bytes16 (UInt16.ofNat (hostDatagram 1).length)) [] 100 zeroStack) h₁
    (by decide +kernel) (ownConnections_netSn rfl _)
  have h₃ := Machine.Reach.step (M := snMachine)
    (.tcp 0 (hostDatagram 1) (hostDatagram 1) 100 zeroStack) h₂
    (by decide +kernel) (ownConnections_netSn (by decide +kernel) _)
  exact ⟨edgeFdsOk_of_reach h₃, by decide +kernel⟩

/-- The second edge is left with the descriptor of a closed connection. -/
theorem not_edgeFdsOk_shared :
    ¬ ∀ w, snMachine.Reach anyStep w → EdgeFdsOk w := by
  intro h
  have hreach : snMachine.Reach anyStep (sharedConnection.foldl snStep (.start netSn)) :=
    Machine.Reach.runs (M := snMachine) (.init netSn_started) (by decide +kernel)
  have hstale : ∃ c, (sharedConnection.foldl snStep (.start netSn)).sss.communities.get? 1 =
        some c ∧ c.isFederation = false ∧ ∃ e ∈ c.edges.values, e.socketFd = 5 := by
    decide +kernel
  have hsock : (sharedConnection.foldl snStep (.start netSn)).sss.sock = 3 := by decide +kernel
  have hclosed : (sharedConnection.foldl snStep (.start netSn)).sss.isOpen 5 = false := by
    decide +kernel
  obtain ⟨c, hget, hc, e, he, hfd⟩ := hstale
  rcases h _ hreach 1 c hget hc e he with hneg | heq | hopen
  · omega
  · omega
  · rw [hfd, hclosed] at hopen
    cases hopen

end N2n
