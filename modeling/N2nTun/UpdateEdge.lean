import N2nTun.SnState
import N2nTun.Wire

/-!
# Authentication and the table of edges

`auth_edge`, `handle_remote_auth` and `update_edge`: how a REGISTER_SUPER is checked
against the entry it belongs to, or as a new edge, and what becomes of the table.

## Main definitions

* `authEdge`, `handleRemoteAuth` — the checks, with the answer for the edge.
* `lookupEdge` — the entry of a registration, by MAC or else by tunnel address.
* `updateEdge` — the table afterwards, the result and the answer.

## Main results

* `updateEdge_cases` — one entry at most is touched.
* `updateEdge_keeps_iff` — **when a registration that fails, or that only asks for an
  address, leaves the table as it was.**
-/

namespace N2n

open Bytes

/-! ### Authentication -/

/-- `n2n_auth_none`. -/
def authNone : UInt16 := 0

/-- `n2n_auth_simple_id`. -/
def authSimpleId : UInt16 := 1

/-- `n2n_auth_user_password`. -/
def authUserPassword : UInt16 := 2

/-- The answer to a user's token: the challenge encrypted once more, and the dynamic key
wrapped with the challenge and the shared secret. -/
def answerUser (presented : Auth) (user : SnUser) (dynamicKey : List UInt8) : Auth :=
  let token := presented.copied.token
  let challenge := slice token privatePublicKeySize authChallengeSize
  let again := speck128Encrypt challenge user.sharedSecretCtx
  let key := speck128Decrypt challenge user.sharedSecretCtx
  let key := xorBytes key dynamicKey
  let key := xorBytes key (slice user.sharedSecret 0 authChallengeSize)
  let key := speck128Encrypt key user.sharedSecretCtx
  { presented with token := overwrite (overwrite token 0 again) privatePublicKeySize key }

/-- `auth_edge`: whether it returns 0, and `*answer` afterwards. -/
def authEdge (present presented answer : Auth) (community : Community) : Bool × Auth :=
  if present.scheme = authNone then (true, Auth.zero)
  else if present.scheme = authSimpleId ∧ presented.scheme = authSimpleId then
    (present.copied == presented.copied, Auth.zero)
  else if present.scheme = authUserPassword ∧ presented.scheme = authUserPassword then
    match community.findUser presented.token with
    | some user => (true, answerUser presented user community.dynamicKey)
    | none => (false, answer)
  else (false, answer)

/-- `handle_remote_auth`: whether it returns 0, and `*answer_auth` afterwards. -/
def handleRemoteAuth (remoteAuth answer : Auth) (community : Community) : Bool × Auth :=
  if (!community.hasUsers) ≠ (remoteAuth.scheme != authUserPassword) then (false, answer)
  else if remoteAuth.scheme = authNone ∨ remoteAuth.scheme = authSimpleId then (true, Auth.zero)
  else if remoteAuth.scheme = authUserPassword then
    match community.findUser remoteAuth.token with
    | some user => (true, answerUser remoteAuth user community.dynamicKey)
    | none => (false, answer)
  else (false, answer)

/-! ### `update_edge` -/

/-- What `update_edge` returns. -/
inductive UpdateEdgeRet where
  | noChange
  | sockChange
  | newSn
  | authFail
  deriving DecidableEq

/-- `enum skip_add`. -/
inductive SkipAdd where
  | add
  | skip
  | added
  deriving DecidableEq

/-- The entry with a tunnel address that the scan of `update_edge` stops at. -/
def edgeByAddr (edges : Table PeerInfo) (netAddr : UInt32) : Option (ℕ × PeerInfo) :=
  edges.first? (·.devAddr.netAddr == netAddr)

/-- The entry that a registration belongs to: the one with its MAC, or else the first one
with its tunnel address, which then gets the MAC. -/
def lookupEdge (edges : Table PeerInfo) (reg : RegisterSuper) :
    Table PeerInfo × Option (ℕ × PeerInfo) :=
  match edges.find? (·.hasMac reg.edgeMac) with
  | some e => (edges, some e)
  | none =>
    match edgeByAddr edges reg.devAddr.netAddr with
    | some (p, iter) =>
      (edges.rekey p (·.keyed reg.edgeMac), some (p, iter.keyed reg.edgeMac))
    | none => (edges, none)

/-- The entry of a new edge; `stamp` is the value of `initial_time_stamp`. -/
def newEdge (sss : Sn) (cmn : Common) (reg : RegisterSuper) (senderSock : Sock) (socketFd : ℤ)
    (stamp : UInt64) (now : ℤ) : PeerInfo where
  macAddr := reg.edgeMac
  devAddr := reg.devAddr
  devDesc := reg.devDesc
  sock := senderSock
  socketFd := socketFd
  preferredSock :=
    if cmn.flags &&& flagsSocket ≠ 0 then reg.sock else { Sock.zero with family := afInvalid }
  lastCookie := reg.cookie
  auth :=
    if reg.auth.scheme = authSimpleId ∧ sss.overrideSpoofingProtection then
      { reg.auth.copied with scheme := authNone }
    else reg.auth.copied
  purgeable := true
  lastSeen := now
  lastValidTimeStamp := stamp
  hashKey := reg.edgeMac

/-- The entry `scan` after a registration from another socket. -/
def movedEdge (cmn : Common) (reg : RegisterSuper) (senderSock : Sock) (socketFd : ℤ) (now : ℤ)
    (scan : PeerInfo) : PeerInfo :=
  { scan with
    devAddr := reg.devAddr
    devDesc := reg.devDesc
    sock := senderSock
    socketFd := socketFd
    lastCookie := reg.cookie
    preferredSock :=
      if cmn.flags &&& flagsSocket ≠ 0 then reg.sock
      else { scan.preferredSock with family := afInvalid }
    lastSeen := now }

/-- The entry `scan` after a registration from the same socket. -/
def seenEdge (reg : RegisterSuper) (now : ℤ) (scan : PeerInfo) : PeerInfo :=
  { scan with lastCookie := reg.cookie, lastSeen := now }

/-- What `update_edge` leaves behind. -/
structure UpdateEdge where
  edges : Table PeerInfo
  ret : UpdateEdgeRet
  answer : Auth

/-- `update_edge`; `stamp` is the value of `initial_time_stamp`, should it be called. -/
def updateEdge (sss : Sn) (cmn : Common) (reg : RegisterSuper) (comm : Community)
    (senderSock : Sock) (socketFd : ℤ) (answer : Auth) (skipAdd : SkipAdd) (stamp : UInt64)
    (now : ℤ) : UpdateEdge :=
  let found := lookupEdge comm.edges reg
  match found.2 with
  | none =>
    let auth := handleRemoteAuth reg.auth answer comm
    if auth.1 then
      if skipAdd = .add then
        ⟨found.1.add (newEdge sss cmn reg senderSock socketFd stamp now), .newSn, auth.2⟩
      else ⟨found.1, .newSn, auth.2⟩
    else ⟨found.1, .authFail, auth.2⟩
  | some (p, scan) =>
    let auth := authEdge scan.auth reg.auth answer comm
    if auth.1 then
      if sockEqual senderSock scan.sock then
        ⟨found.1.modify p (seenEdge reg now), .noChange, auth.2⟩
      else ⟨found.1.modify p (movedEdge cmn reg senderSock socketFd now), .sockChange, auth.2⟩
    else ⟨found.1, .authFail, auth.2⟩

/-! ### What becomes of the table -/

/-- The table `t'` that `update_edge` makes of `t`: it is the same, or one entry, with the MAC
of the registration, is new, or was there with this MAC, or got the MAC since no other entry
had it. -/
structure UpdatedAt (t t' : Table PeerInfo) (mac : Mac) (socketFd : ℤ) (q : ℕ) (e : PeerInfo) :
    Prop where
  mac_eq : e.macAddr = mac
  get? : t'.get? q = some e
  other : ∀ r, r ≠ q → t'.get? r = t.get? r
  origin :
    (∃ e₀, t.get? q = some e₀ ∧ e.lastValidTimeStamp = e₀.lastValidTimeStamp ∧
      (e.socketFd = e₀.socketFd ∨ e.socketFd = socketFd) ∧
      (e₀.macAddr = mac ∨ t.find? (·.hasMac mac) = none)) ∨
    (t.get? q = none ∧ t.find? (·.hasMac mac) = none ∧ e.socketFd = socketFd)

section

variable {sss : Sn} {cmn : Common} {reg : RegisterSuper} {comm : Community} {senderSock : Sock}
  {socketFd : ℤ} {answer : Auth} {skipAdd : SkipAdd} {stamp : UInt64} {now : ℤ}

/-- The MAC of the registration is known. -/
theorem updateEdge_known {p : ℕ} {e : PeerInfo}
    (hfind : comm.edges.find? (·.hasMac reg.edgeMac) = some (p, e)) :
    (updateEdge sss cmn reg comm senderSock socketFd answer skipAdd stamp now).edges =
        comm.edges ∨
      ∃ q e, UpdatedAt comm.edges
        (updateEdge sss cmn reg comm senderSock socketFd answer skipAdd stamp now).edges
        reg.edgeMac socketFd q e := by
  obtain ⟨hget, hkey⟩ := Table.find?_eq_some hfind
  have hmac : e.macAddr = reg.edgeMac := by simpa [PeerInfo.hasMac] using hkey
  have hlook : lookupEdge comm.edges reg = (comm.edges, some (p, e)) := by
    simp only [lookupEdge, hfind]
  unfold updateEdge
  simp only [hlook]
  split_ifs
  · refine Or.inr ⟨p, seenEdge reg now e, hmac, Table.get?_modify_self hget, ?_, ?_⟩
    · exact fun r hr => Table.get?_modify_other hr _
    · exact Or.inl ⟨e, hget, rfl, Or.inl rfl, Or.inl hmac⟩
  · refine Or.inr ⟨p, movedEdge cmn reg senderSock socketFd now e, hmac,
      Table.get?_modify_self hget, ?_, ?_⟩
    · exact fun r hr => Table.get?_modify_other hr _
    · exact Or.inl ⟨e, hget, rfl, Or.inr rfl, Or.inl hmac⟩
  · exact Or.inl rfl

/-- The MAC is unknown, but the tunnel address is not. -/
theorem updateEdge_byAddr {p : ℕ} {e : PeerInfo}
    (hfind : comm.edges.find? (·.hasMac reg.edgeMac) = none)
    (haddr : edgeByAddr comm.edges reg.devAddr.netAddr = some (p, e)) :
    ∃ q e, UpdatedAt comm.edges
      (updateEdge sss cmn reg comm senderSock socketFd answer skipAdd stamp now).edges
      reg.edgeMac socketFd q e := by
  have hget : comm.edges.get? p = some e := (Table.first?_eq_some haddr).1
  let f : PeerInfo → PeerInfo := (·.keyed reg.edgeMac)
  have hlook : lookupEdge comm.edges reg = (comm.edges.rekey p f, some (p, f e)) := by
    simp only [lookupEdge, hfind, haddr]
    rfl
  have hself : (comm.edges.rekey p f).get? p = some (f e) := Table.get?_rekey_self hget
  have hother : ∀ r, r ≠ p → (comm.edges.rekey p f).get? r = comm.edges.get? r := by
    intro r hr
    rw [Table.get?_rekey, if_neg hr]
  unfold updateEdge
  simp only [hlook]
  split_ifs
  · refine ⟨p, seenEdge reg now (f e), rfl, Table.get?_modify_self hself, ?_, ?_⟩
    · exact fun r hr => (Table.get?_modify_other hr _).trans (hother r hr)
    · exact Or.inl ⟨e, hget, rfl, Or.inl rfl, Or.inr hfind⟩
  · refine ⟨p, movedEdge cmn reg senderSock socketFd now (f e), rfl,
      Table.get?_modify_self hself, ?_, ?_⟩
    · exact fun r hr => (Table.get?_modify_other hr _).trans (hother r hr)
    · exact Or.inl ⟨e, hget, rfl, Or.inr rfl, Or.inr hfind⟩
  · exact ⟨p, f e, rfl, hself, hother, Or.inl ⟨e, hget, rfl, Or.inl rfl, Or.inr hfind⟩⟩

/-- **`update_edge` leaves the table alone, or touches one entry.** -/
theorem updateEdge_cases :
    (updateEdge sss cmn reg comm senderSock socketFd answer skipAdd stamp now).edges =
        comm.edges ∨
      ∃ q e, UpdatedAt comm.edges
        (updateEdge sss cmn reg comm senderSock socketFd answer skipAdd stamp now).edges
        reg.edgeMac socketFd q e := by
  cases hfind : comm.edges.find? (·.hasMac reg.edgeMac) with
  | some e => exact updateEdge_known hfind
  | none =>
    cases haddr : edgeByAddr comm.edges reg.devAddr.netAddr with
    | some e => exact Or.inr (updateEdge_byAddr hfind haddr)
    | none =>
      have hlook : lookupEdge comm.edges reg = (comm.edges, none) := by
        simp only [lookupEdge, hfind, haddr]
      unfold updateEdge
      simp only [hlook]
      split_ifs
      · refine Or.inr ⟨comm.edges.next, newEdge sss cmn reg senderSock socketFd stamp now, rfl, ?_,
          ?_, ?_⟩
        · rw [Table.get?_add, if_pos rfl]
        · intro r hr
          rw [Table.get?_add, if_neg hr]
        · exact Or.inr ⟨comm.edges.get?_next, hfind, rfl⟩
      · exact Or.inl rfl
      · exact Or.inl rfl

end

/-! ### When the table is left alone -/

section

variable (sss : Sn) (cmn : Common) (reg : RegisterSuper) (comm : Community) (senderSock : Sock)
  (socketFd : ℤ) (answer : Auth) (skipAdd : SkipAdd) (stamp : UInt64) (now : ℤ)

/-- The registration only asks for an address: it has the null MAC, for which the caller
passes `SN_ADD_SKIP`. -/
def AddressRequest : Prop := isNullMac reg.edgeMac = true ∧ skipAdd = .skip

/-- A registration that fails, or only asks for an address, leaves the table of edges as
it was. -/
def KeepsEdges : Prop :=
  let r := updateEdge sss cmn reg comm senderSock socketFd answer skipAdd stamp now
  r.ret = .authFail ∨ AddressRequest reg skipAdd → r.edges = comm.edges

/-- The stored entry `scan` authenticates the registration. -/
def Authenticates (scan : PeerInfo) : Prop := (authEdge scan.auth reg.auth answer comm).1 = true

/-- The condition.  If the MAC is unknown, then an entry with the tunnel address has to
authenticate a registration that is no request for an address.  If it is known, a request
for an address that authenticates has to repeat what the entry says. -/
def KeepsEdgesWhen : Prop :=
  match comm.edges.find? (·.hasMac reg.edgeMac) with
  | some (_, scan) =>
    AddressRequest reg skipAdd → Authenticates reg comm answer scan →
      sockEqual senderSock scan.sock = true ∧ scan.lastCookie = reg.cookie ∧ scan.lastSeen = now
  | none =>
    ∀ p iter, edgeByAddr comm.edges reg.devAddr.netAddr = some (p, iter) →
      Authenticates reg comm answer iter ∧ ¬ AddressRequest reg skipAdd

theorem sockEqual_refl (s : Sock) : sockEqual s s = true := by
  unfold sockEqual
  simp

theorem seenEdge_eq_self_iff {scan : PeerInfo} :
    seenEdge reg now scan = scan ↔ scan.lastCookie = reg.cookie ∧ scan.lastSeen = now := by
  cases scan
  simp only [seenEdge, PeerInfo.mk.injEq, true_and, and_true]
  exact ⟨fun h => ⟨h.1.symm, h.2.symm⟩, fun h => ⟨h.1.symm, h.2.symm⟩⟩

theorem movedEdge_ne_self {scan : PeerInfo} (h : sockEqual senderSock scan.sock = false) :
    movedEdge cmn reg senderSock socketFd now scan ≠ scan := by
  intro heq
  have hsock : senderSock = scan.sock := congrArg PeerInfo.sock heq
  rw [hsock, sockEqual_refl] at h
  exact absurd h (by decide)

/-- A known MAC: the entry is changed only if it authenticates the registration. -/
theorem keepsEdges_known_iff {e : ℕ × PeerInfo}
    (hfind : comm.edges.find? (·.hasMac reg.edgeMac) = some e) :
    KeepsEdges sss cmn reg comm senderSock socketFd answer skipAdd stamp now ↔
      (AddressRequest reg skipAdd → Authenticates reg comm answer e.2 →
        sockEqual senderSock e.2.sock = true ∧ e.2.lastCookie = reg.cookie ∧
          e.2.lastSeen = now) := by
  have hget := (Table.find?_eq_some hfind).1
  have hlook : lookupEdge comm.edges reg = (comm.edges, some e) := by
    simp only [lookupEdge, hfind]
  unfold KeepsEdges updateEdge Authenticates
  simp only [hlook]
  cases hauth : (authEdge e.2.auth reg.auth answer comm).1 with
  | false => simp
  | true =>
    cases hsock : sockEqual senderSock e.2.sock with
    | true => simp [Table.modify_eq_self_iff hget, seenEdge_eq_self_iff]
    | false =>
      have hne := movedEdge_ne_self cmn reg senderSock socketFd now hsock
      simp [Table.modify_eq_self_iff hget, hne]

/-- An unknown MAC that takes over the entry with its tunnel address: the table has
changed, whatever happens next. -/
theorem keepsEdges_byAddr_iff {p : ℕ} {iter : PeerInfo}
    (hfind : comm.edges.find? (·.hasMac reg.edgeMac) = none)
    (haddr : edgeByAddr comm.edges reg.devAddr.netAddr = some (p, iter)) :
    KeepsEdges sss cmn reg comm senderSock socketFd answer skipAdd stamp now ↔
      Authenticates reg comm answer iter ∧ ¬ AddressRequest reg skipAdd := by
  have hget : comm.edges.get? p = some iter := (Table.first?_eq_some haddr).1
  have hlook : lookupEdge comm.edges reg =
      (comm.edges.rekey p (·.keyed reg.edgeMac), some (p, iter.keyed reg.edgeMac)) := by
    simp only [lookupEdge, hfind, haddr]
  -- no entry had the MAC before
  have hnew : ∀ {t : Table PeerInfo} {b : PeerInfo}, b ∈ t → b.macAddr = reg.edgeMac →
      t ≠ comm.edges := by
    intro t b hb hmac heq
    have hno := Table.find?_eq_none.mp hfind b (heq ▸ hb)
    simp [PeerInfo.hasMac, hmac] at hno
  have hrekey := Table.get?_rekey_self (f := (·.keyed reg.edgeMac)) hget
  unfold KeepsEdges updateEdge Authenticates
  simp only [hlook, PeerInfo.keyed_auth, PeerInfo.keyed_sock]
  cases hauth : (authEdge iter.auth reg.auth answer comm).1 with
  | false =>
    have hne := hnew (Table.mem_of_get? hrekey) rfl
    simp [hne]
  | true =>
    cases hsock : sockEqual senderSock iter.sock with
    | true =>
      have hseen := Table.get?_modify_self (f := seenEdge reg now) hrekey
      have hne := hnew (Table.mem_of_get? hseen) rfl
      simp [hne]
    | false =>
      have hne := hnew (Table.mem_of_get? (Table.get?_modify_self
        (f := movedEdge cmn reg senderSock socketFd now) hrekey)) rfl
      simp [hne]

/-- An unknown edge: it is added only on success, and never if it only asks for an
address. -/
theorem keepsEdges_unknown (hfind : comm.edges.find? (·.hasMac reg.edgeMac) = none)
    (haddr : edgeByAddr comm.edges reg.devAddr.netAddr = none) :
    KeepsEdges sss cmn reg comm senderSock socketFd answer skipAdd stamp now := by
  have hlook : lookupEdge comm.edges reg = (comm.edges, none) := by
    simp only [lookupEdge, hfind, haddr]
  unfold KeepsEdges updateEdge
  simp only [hlook]
  rcases handleRemoteAuth reg.auth answer comm with ⟨ok, answer'⟩
  cases ok with
  | false => simp
  | true =>
    by_cases hskip : skipAdd = .add
    · simp [hskip, AddressRequest]
    · simp [hskip]

/-- **A registration that fails, or that only asks for an address, leaves the table of
edges as it was exactly under the condition `KeepsEdgesWhen`.** -/
theorem updateEdge_keeps_iff :
    KeepsEdges sss cmn reg comm senderSock socketFd answer skipAdd stamp now ↔
      KeepsEdgesWhen reg comm senderSock answer skipAdd now := by
  unfold KeepsEdgesWhen
  cases hfind : comm.edges.find? (·.hasMac reg.edgeMac) with
  | some e =>
    exact keepsEdges_known_iff sss cmn reg comm senderSock socketFd answer skipAdd stamp now hfind
  | none =>
    cases haddr : edgeByAddr comm.edges reg.devAddr.netAddr with
    | none =>
      refine iff_of_true ?_ (by simp)
      exact keepsEdges_unknown sss cmn reg comm senderSock socketFd answer skipAdd stamp now
        hfind haddr
    | some e =>
      rw [keepsEdges_byAddr_iff sss cmn reg comm senderSock socketFd answer skipAdd stamp now
        hfind haddr]
      constructor
      · rintro h p iter ⟨⟩
        exact h
      · intro h
        exact h e.1 e.2 rfl

end

/-- A REGISTER_SUPER for the tunnel address 10.0.0.5 with an identity of its own. -/
def registerAs (m : UInt8) : RegisterSuper where
  cookie := 7
  edgeMac := ⟨[2, 0, 0, 0, 0, m], rfl⟩
  sock := Sock.zero
  devAddr := ⟨0x0a000005, 24⟩
  devDesc := List.Vector.replicate 16 0
  auth := ⟨authSimpleId, 16, List.replicate 16 m ++ List.replicate 32 0⟩
  keyTime := 0

/-- The common header of a REGISTER_SUPER with given flags. -/
def registerCommon (flags : UInt16) : Common :=
  ⟨1, msgTypeRegisterSuper, flags, ⟨[104, 111, 109, 101] ++ List.replicate 16 0, rfl⟩⟩

/-- A community with one edge, which has registered with the MAC 02:…:01. -/
def oneEdgeComm : Community :=
  { Community.zero with
    edges := Table.empty.add
      (newEdge idleSn (registerCommon 0) (registerAs 1) (hostSock 1 5000) 3 0 100) }

/-- An edge with another identity asks for the tunnel address of the first one: the
registration fails, and the entry has the other edge's MAC. -/
theorem not_keepsEdges_sameAddress :
    ¬ KeepsEdges idleSn (registerCommon 0) (registerAs 2) oneEdgeComm
      (hostSock 2 5000) 3 Auth.zero .add 0 110 := by
  intro h
  have hkept := h (Or.inl (by decide))
  exact absurd hkept (by decide)

end N2n
