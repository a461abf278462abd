import N2nTun.EdgeRun
import N2nTun.TransportState

/-!
# When the edge registers next

`update_supernode_reg` computes in `int` what it sets `last_register_req` back by: three quarters
of the configured interval are the modulus of a random number.  `edge_verify_conf` asks for an
interval of at least one second, whose three quarters are zero; and it has no upper bound, so that
the product with three may not fit into an `int`.

Where the C language leaves a result undefined, the definitions have none.

## Main definitions

* `edgeVerifyConf` — the check of a configuration.
* `Edge.registerOffset` — the offset, where C defines it.
* `edgeRegisterRetryWaitMs` — the time until the next attempt.
* `RegisterArithmetic` — what is to hold of all this in a state.
* `confMachine` — the runs of an edge with a configuration.

## Main results

* `schedule_updateSupernodeReg` — what a registration makes of `last_register_req`.
* `retryWait_bounds` — the time to wait, whatever the clock shows.
* `registerOffset_iff` — **when the offset is defined and below the interval.**
* `registerArithmetic_iff` — **for which configurations the arithmetic holds in every run.**
-/

namespace N2n

open Machines

/-! ### The configuration -/

/-- `n2n_transform_t`. -/
inductive TransformId where
  | inval
  | null
  | twofish
  | aes
  | chacha20
  | speck
  deriving DecidableEq

/-- `n2n_edge_conf_t`, as far as it is checked. -/
structure CheckedConf where
  communityName : CommunityName
  snNum : UInt8
  supernodes : Table PeerInfo
  registerInterval : Int32
  encryptKey : Option (List UInt8)
  transopId : TransformId

/-- `edge_verify_conf`. -/
def edgeVerifyConf (conf : CheckedConf) : ℤ :=
  if conf.communityName.head = 0 then -1
  else if conf.snNum = 0 then -2
  else if conf.supernodes.entries.length = 0 then -5
  else if conf.registerInterval < 1 then -3
  else if (conf.encryptKey.isNone ∧ conf.transopId ≠ .null) ∨
      (conf.encryptKey.isSome ∧ conf.transopId = .null) then -4
  else 0

theorem one_le_of_edgeVerifyConf {conf : CheckedConf} (h : edgeVerifyConf conf = 0) :
    1 ≤ conf.registerInterval.toInt := by
  unfold edgeVerifyConf at h
  split_ifs at h with _ _ _ hinterval
  rw [Int32.lt_iff_toInt_lt] at hinterval
  exact not_lt.mp hinterval

/-! ### The arithmetic -/

namespace Edge

/-- `off`: `register_interval * 3` has to fit into an `int`, and the modulus must not be zero. -/
def registerOffset (e : Edge) : Option ℤ :=
  if e.transport.snWait = 2 then
    let product := e.registerInterval * 3
    if product < -2 ^ 31 ∨ 2 ^ 31 ≤ product then none
    else
      let modulus := product.tdiv 4
      if modulus = 0 then none
      else some (e.rand.2 % UInt64.ofInt modulus).toUInt32.toInt32.toInt
  else some 0

end Edge

/-- `edge_register_retry_wait_ms`. -/
def edgeRegisterRetryWaitMs (t : EdgeTransport) (currentMs : UInt32) (defaultMs : ℤ) : ℤ :=
  if t.snWait = 0 then defaultMs
  else if t.snWait = 2 ∨ t.lastRegisterReqMs = 0 then 0
  else
    let intervalMs := Edge.registerRetryIntervalMs t
    let elapsedMs := currentMs - t.lastRegisterReqMs
    if intervalMs ≤ elapsedMs then 0
    else
      let intervalMs : ℤ := intervalMs.toNat - elapsedMs.toNat
      if defaultMs < intervalMs then defaultMs else intervalMs

/-- **The time to wait is between 0 and the default**, whatever the clock shows. -/
theorem retryWait_bounds (t : EdgeTransport) (currentMs : UInt32) {defaultMs : ℤ}
    (h : 0 ≤ defaultMs) :
    0 ≤ edgeRegisterRetryWaitMs t currentMs defaultMs ∧
      edgeRegisterRetryWaitMs t currentMs defaultMs ≤ defaultMs := by
  unfold edgeRegisterRetryWaitMs
  dsimp only
  split_ifs with hidle hnow helapsed hdefault
  · exact ⟨h, le_refl _⟩
  · exact ⟨le_refl _, h⟩
  · exact ⟨le_refl _, h⟩
  · exact ⟨h, le_refl _⟩
  · rw [UInt32.le_iff_toNat_le] at helapsed
    exact ⟨by omega, not_lt.mp hdefault⟩

section

variable {e : Edge}

/-- What is left of a random number. -/
theorem toInt_mod (r : UInt64) {m : ℤ} (hpos : 0 < m) (hlt : m < 2 ^ 31) :
    (r % UInt64.ofInt m).toUInt32.toInt32.toInt = (r.toNat % m.toNat : ℕ) := by
  have hmodulus : (UInt64.ofInt m).toNat = m.toNat := by
    have hint : m % 2 ^ 64 = m := Int.emod_eq_of_lt (by omega) (by omega)
    rw [UInt64.ofInt, hint]
    exact UInt64.toNat_ofNat_of_lt' (by rw [UInt64.size]; omega)
  have hmod : r.toNat % m.toNat < m.toNat := Nat.mod_lt _ (by omega)
  have hlow : (r % UInt64.ofInt m).toUInt32.toNat = r.toNat % m.toNat := by
    rw [UInt64.toNat_toUInt32, UInt64.toNat_mod, hmodulus]
    omega
  have htoInt : (r % UInt64.ofInt m).toUInt32.toInt32.toInt =
      (r % UInt64.ofInt m).toUInt32.toBitVec.toInt := rfl
  rw [htoInt, BitVec.toInt_eq_toNat_cond, UInt32.toNat_toBitVec, hlow]
  split_ifs
  · rfl
  · omega

/-- Where the offset is defined, it is the one that the edge is set back by. -/
theorem retryOffset_of_registerOffset (hpos : 0 ≤ e.registerInterval) {off : ℤ}
    (h : e.registerOffset = some off) : e.retryOffset = off := by
  unfold Edge.registerOffset at h
  unfold Edge.retryOffset
  split_ifs at h ⊢ with hwait
  · dsimp only at h
    split_ifs at h with hfits hzero
    have hdiv : (e.registerInterval * 3).tdiv 4 = e.registerInterval * 3 / 4 :=
      Int.tdiv_eq_ediv_of_nonneg (by omega)
    rw [hdiv] at h hzero
    rw [toInt_mod e.rand.2 (by omega) (by omega)] at h
    exact Option.some.inj h
  · exact Option.some.inj h

/-- **When the offset is defined and below the interval.** -/
theorem registerOffset_iff (hpos : 1 ≤ e.registerInterval) :
    (∃ off, e.registerOffset = some off ∧ 0 ≤ off ∧ off < e.registerInterval) ↔
      (e.transport.snWait = 2 → 2 ≤ e.registerInterval ∧ e.registerInterval ≤ 715827882) := by
  have hdiv : (e.registerInterval * 3).tdiv 4 = e.registerInterval * 3 / 4 :=
    Int.tdiv_eq_ediv_of_nonneg (by omega)
  unfold Edge.registerOffset
  dsimp only
  rw [hdiv]
  by_cases hwait : e.transport.snWait = 2
  · rw [if_pos hwait]
    constructor
    · rintro ⟨off, hoff, -⟩ -
      split_ifs at hoff with hfits hzero
      omega
    · intro hbounds
      obtain ⟨hmin, hmax⟩ := hbounds hwait
      rw [if_neg (by omega), if_neg (by omega), toInt_mod e.rand.2 (by omega) (by omega)]
      have hmod : e.rand.2.toNat % (e.registerInterval * 3 / 4).toNat <
          (e.registerInterval * 3 / 4).toNat := Nat.mod_lt _ (by omega)
      exact ⟨_, rfl, by omega, by omega⟩
  · rw [if_neg hwait]
    exact ⟨fun _ h => absurd h hwait, fun _ => ⟨0, rfl, le_refl _, by omega⟩⟩

end

/-! ### What leaves the schedule alone -/

namespace Edge

/-- The interval and the time from which the next one is counted. -/
def schedule (e : Edge) : ℤ × ℤ := (e.registerInterval, e.lastRegisterReq)

section

variable (e : Edge)

@[simp] theorem schedule_onTransport (f : EdgeTransport → EdgeTransport) :
    (e.onTransport f).schedule = e.schedule := rfl

@[simp] theorem schedule_connect : e.connect.schedule = e.schedule := rfl

@[simp] theorem schedule_disconnect : e.disconnect.schedule = e.schedule := rfl

@[simp] theorem schedule_switchToTcp : e.switchToTcp.1.schedule = e.schedule := rfl

@[simp] theorem schedule_recycleUdp : e.recycleUdp.schedule = e.schedule := rfl

/-- Both ways of a condition. -/
theorem schedule_ite {c : Prop} [Decidable c] {e₁ e₂ : Edge} {times : ℤ × ℤ}
    (h₁ : e₁.schedule = times) (h₂ : e₂.schedule = times) :
    (if c then e₁ else e₂).schedule = times := by
  split
  · exact h₁
  · exact h₂

/-- A loop over operations that leave the schedule alone. -/
theorem schedule_foldl {α : Type} {f : Edge → α → Edge} (hf : ∀ e a, (f e a).schedule = e.schedule)
    (l : List α) (e : Edge) : (l.foldl f e).schedule = e.schedule := by
  induction l generalizing e with
  | nil => rfl
  | cons a l ih => rw [List.foldl_cons, ih, hf]

@[simp] theorem schedule_sendtoSock (dest : Sock) : (e.sendtoSock dest).schedule = e.schedule := by
  unfold sendtoSock
  dsimp only
  split_ifs <;> rfl

@[simp] theorem schedule_encryptHeader (pktbuf : List UInt8) (ctx iv : Option SpeckContext) :
    (e.encryptHeader pktbuf ctx iv).1.schedule = e.schedule := by
  unfold encryptHeader
  split_ifs
  · dsimp only
    split <;> rfl
  · rfl

@[simp] theorem schedule_sendControl (dest : Sock) :
    (e.sendControl dest).schedule = e.schedule := by
  unfold sendControl
  simp

@[simp] theorem schedule_sendRegistration (dest : Sock) :
    (e.sendRegistration dest).schedule = e.schedule := by
  unfold sendRegistration setSending
  simp

@[simp] theorem schedule_sendRegister (remotePeer : Sock) :
    (e.sendRegister remotePeer).schedule = e.schedule := by
  unfold sendRegister
  refine schedule_ite rfl ?_
  extract_lets e₁ e₂ e₃
  have h₁ : e₁.schedule = e.schedule := schedule_ite rfl rfl
  have h₂ : e₂.schedule = e.schedule := schedule_ite h₁ h₁
  exact (e₂.schedule_sendtoSock remotePeer).trans h₂

@[simp] theorem schedule_localAuth (auth : Auth) : (e.localAuth auth).1.schedule = e.schedule := by
  unfold localAuth
  split_ifs <;> rfl

@[simp] theorem schedule_startRequest : e.startRequest.schedule = e.schedule := by
  unfold startRequest
  split_ifs
  · rfl
  · dsimp only
    rw [schedule_onTransport, schedule_localAuth]
    rfl

@[simp] theorem schedule_sendRegisterSuper : e.sendRegisterSuper.schedule = e.schedule := by
  unfold sendRegisterSuper
  extract_lets flags e₁ e₂ reg pktbuf
  have h₁ : e₁.schedule = e.schedule := e.schedule_startRequest
  have h₂ : e₂.schedule = e.schedule := h₁
  have h₃ := e₂.schedule_encryptHeader pktbuf e₂.conf.keys.ctxStatic e₂.conf.keys.ivStatic
  generalize e₂.encryptHeader pktbuf e₂.conf.keys.ctxStatic e₂.conf.keys.ivStatic = r at h₃ ⊢
  dsimp only
  rw [schedule_sendRegistration]
  exact h₃.trans h₂

@[simp] theorem schedule_sendUnregisterSuper : e.sendUnregisterSuper.schedule = e.schedule := by
  unfold sendUnregisterSuper
  have h₁ := e.schedule_localAuth Auth.zero
  generalize e.localAuth Auth.zero = r₁ at h₁ ⊢
  obtain ⟨e₁, auth⟩ := r₁
  dsimp only
  generalize (encodeUnregisterSuper _ _ _).bytes = pktbuf
  have h₂ := e₁.schedule_encryptHeader pktbuf e₁.conf.keys.ctxDynamic e₁.conf.keys.ivDynamic
  generalize e₁.encryptHeader pktbuf e₁.conf.keys.ctxDynamic e₁.conf.keys.ivDynamic = r₂ at h₂ ⊢
  rw [schedule_sendControl]
  exact h₂.trans h₁

@[simp] theorem schedule_sendQueryPeer (dstMac : Mac) (pings skip : ℕ) :
    (e.sendQueryPeer dstMac pings skip).schedule = e.schedule := by
  unfold sendQueryPeer
  extract_lets query pktbuf
  have h₁ := e.schedule_encryptHeader pktbuf e.conf.keys.ctxDynamic e.conf.keys.ivDynamic
  generalize e.encryptHeader pktbuf e.conf.keys.ctxDynamic e.conf.keys.ivDynamic = r at h₁ ⊢
  dsimp only
  split_ifs
  · rw [schedule_onTransport, schedule_foldl fun e dest => e.schedule_sendtoSock dest]
    exact h₁
  · rw [schedule_onTransport, schedule_foldl fun e dest => e.schedule_sendtoSock dest]
    exact h₁
  · rw [schedule_sendControl]
    exact h₁

@[simp] theorem schedule_registerWithLocalPeers :
    e.registerWithLocalPeers.schedule = e.schedule := by
  unfold registerWithLocalPeers
  split_ifs
  · exact e.schedule_sendRegister _
  · rfl

@[simp] theorem schedule_registerWithKnownPeers (now : ℤ) :
    (e.registerWithKnownPeers now).schedule = e.schedule :=
  schedule_foldl (fun e peer => e.schedule_sendRegister peer) _ e

/-! ### Messages of supernodes -/

theorem schedule_checkStamp (d : EdgeDispatch) (mac : Mac) (allowJitter : Bool) :
    (e.checkStamp d mac allowJitter).1.schedule = e.schedule := by
  unfold checkStamp findPeerTimeStampAndVerify
  split_ifs
  · dsimp only
    split
    · split <;> rfl
    · split
      · rfl
      · split <;> rfl
  · rfl

theorem schedule_afterCheck {r : Edge × Bool} {next : Edge → Edge}
    (hnext : (next r.1).schedule = r.1.schedule) : (afterCheck r next).schedule = r.1.schedule :=
  schedule_ite hnext rfl

theorem schedule_sendGratArp : e.sendGratArp.schedule = e.schedule := by
  unfold sendGratArp
  extract_lets e₁
  have h₁ : e₁.schedule = e.schedule := schedule_ite rfl rfl
  refine schedule_ite h₁ (schedule_ite ?_ ?_)
  · exact (schedule_foldl (fun e dest => e.schedule_sendtoSock dest) _ e₁).trans h₁
  · exact (e₁.schedule_sendtoSock _).trans h₁

theorem schedule_learnSns (tmpbuf : List UInt8) (is : List ℕ) (r : Edge × Sock) :
    (is.foldl (learnSn tmpbuf) r).1.schedule = r.1.schedule := by
  induction is generalizing r with
  | nil => rfl
  | cons i is ih =>
    have hlearn : (learnSn tmpbuf r i).1.schedule = r.1.schedule := by
      unfold learnSn
      dsimp only
      split_ifs <;> rfl
    rw [List.foldl_cons, ih, hlearn]

theorem schedule_acceptAck (rx : EdgeRx) (ra : RegisterSuperAck) (tmpbuf : List UInt8) :
    (e.acceptAck rx ra tmpbuf).schedule = e.schedule := by
  unfold acceptAck
  extract_lets e₁ e₂ e₃ e₄ e₅ e₆
  have h₂ : e₂.schedule = e.schedule := schedule_ite rfl rfl
  have h₃ : e₃.schedule = e.schedule := schedule_ite h₂ h₂
  have h₅ : e₅.schedule = e.schedule :=
    (schedule_learnSns tmpbuf (List.range ra.numSn.toNat) (e₃, rx.payloadSock)).trans h₃
  have h₆ : e₆.schedule = e.schedule :=
    schedule_ite (((schedule_sendGratArp _).trans e₅.schedule_sendGratArp).trans h₅) h₅
  exact schedule_ite h₅ h₆

theorem schedule_learnPeer (cmn : Common) (pi : PeerInfoMsg) (now : ℤ)
    {store : Edge → (EdgePeer → EdgePeer) → Edge}
    (hstore : ∀ e f, (store e f).schedule = e.schedule) :
    (e.learnPeer cmn pi now store).schedule = e.schedule := by
  unfold learnPeer
  extract_lets e₁ e₂ e₃
  have h₂ : e₂.schedule = e.schedule := hstore e₁ _
  have h₃ : e₃.schedule = e.schedule :=
    schedule_ite ((schedule_sendRegister _ _).trans ((hstore e₂ _).trans h₂)) h₂
  exact (e₃.schedule_sendRegister pi.sock).trans h₃

theorem schedule_handleRegisterSuperAck (rx : EdgeRx) (d : EdgeDispatch) :
    (e.handleRegisterSuperAck rx d).schedule = e.schedule := by
  unfold handleRegisterSuperAck
  generalize (decodeRegisterSuperAck d.udpBuf d.cur rx.tmpbuf).out = out
  obtain ⟨ra, tmpbuf⟩ := out
  refine schedule_ite rfl ?_
  refine (schedule_afterCheck ?_).trans (e.schedule_checkStamp d ra.srcMac false)
  refine schedule_ite rfl (schedule_ite rfl ?_)
  split
  · rfl
  · next conf _ => exact schedule_acceptAck _ rx ra tmpbuf

theorem schedule_handleRegisterSuperNak (d : EdgeDispatch) :
    (e.handleRegisterSuperNak d).schedule = e.schedule := by
  unfold handleRegisterSuperNak
  extract_lets nak
  refine schedule_ite rfl ?_
  refine (schedule_afterCheck ?_).trans (e.schedule_checkStamp d nak.srcMac false)
  exact schedule_ite rfl rfl

theorem schedule_handleReRegisterSuper (d : EdgeDispatch) :
    (e.handleReRegisterSuper d).schedule = e.schedule := by
  unfold handleReRegisterSuper
  refine (schedule_afterCheck ?_).trans (e.schedule_checkStamp d nullMac false)
  exact schedule_ite rfl rfl

theorem schedule_handlePeerInfo (rx : EdgeRx) (d : EdgeDispatch) :
    (e.handlePeerInfo rx d).schedule = e.schedule := by
  unfold handlePeerInfo
  extract_lets pi
  refine (schedule_afterCheck ?_).trans (e.schedule_checkStamp d nullMac true)
  refine schedule_ite rfl (schedule_ite ?_ ?_)
  · split <;> rfl
  · split
    · exact schedule_learnPeer _ _ _ _ fun _ _ => rfl
    · split
      · exact schedule_learnPeer _ _ _ _ fun _ _ => rfl
      · rfl

/-- **What comes in leaves the schedule alone.** -/
@[simp] theorem schedule_processRegistration (rx : EdgeRx) :
    (e.processRegistration rx).schedule = e.schedule := by
  unfold processRegistration
  split
  · rfl
  · next d _ =>
    exact schedule_ite (e.schedule_handleRegisterSuperAck rx d)
      (schedule_ite (e.schedule_handleRegisterSuperNak d)
        (schedule_ite (e.schedule_handlePeerInfo rx d)
          (schedule_ite (e.schedule_handleReRegisterSuper d) rfl)))

/-! ### The registration -/

theorem schedule_probeUdp (now : ℤ) : (e.probeUdp now).schedule = e.schedule := by
  unfold probeUdp
  refine schedule_ite ?_ rfl
  dsimp only
  rw [schedule_onTransport]
  refine schedule_ite ?_ rfl
  rw [schedule_onTransport, schedule_sendRegisterSuper, schedule_onTransport]

theorem schedule_beforeAttempt (now : ℤ) : (e.beforeAttempt now).schedule = e.schedule := by
  unfold beforeAttempt
  extract_lets e₁
  have h₁ : e₁.schedule = e.schedule := schedule_ite rfl rfl
  have h₂ : e₁.checkJoinMulticastGroup.schedule = e₁.schedule := schedule_ite rfl rfl
  exact ((schedule_probeUdp _ now).trans h₂).trans h₁

theorem schedule_nextAttempt (rank : ℕ → ℕ) : (e.nextAttempt rank).schedule = e.schedule := by
  unfold nextAttempt giveUp countReconnect
  refine schedule_ite (schedule_ite rfl ?_) rfl
  exact schedule_ite rfl (schedule_ite rfl rfl)

theorem schedule_reconnectTcp : e.reconnectTcp.1.schedule = e.schedule := by
  unfold reconnectTcp
  dsimp only
  split_ifs <;> rfl

theorem schedule_register (now off : ℤ) (currentMs : UInt32) (wasWaiting : Bool) :
    (e.register now off currentMs wasWaiting).schedule = (e.registerInterval, now - off) := by
  unfold register
  extract_lets e₁ e₂
  have h₁ : e₁.schedule = e.schedule :=
    (schedule_registerWithLocalPeers _).trans e.schedule_sendRegisterSuper
  have h₂ : e₂.schedule = e.schedule :=
    schedule_ite ((e₁.schedule_registerWithKnownPeers now).trans h₁) h₁
  have hinterval : e₂.registerInterval = e.registerInterval := congrArg Prod.fst h₂
  rw [← hinterval]
  rfl

/-- **What a registration makes of the schedule**: it stays, or the interval starts now, or it has
started by the offset before. -/
theorem schedule_updateSupernodeReg (now : ℤ) (rank : ℕ → ℕ) :
    (e.updateSupernodeReg now rank).schedule = e.schedule ∨
      (e.updateSupernodeReg now rank).schedule = (e.registerInterval, now) ∨
      (e.updateSupernodeReg now rank).schedule = (e.registerInterval, now - e.retryOffset) := by
  unfold updateSupernodeReg
  dsimp only
  have hoffset : e.nowMs.1.retryOffset = e.retryOffset := rfl
  have h₁ := e.nowMs.1.schedule_beforeAttempt now
  have h₂ := ((schedule_reconnectTcp _).trans
    ((e.nowMs.1.beforeAttempt now).schedule_nextAttempt rank)).trans h₁
  generalize ((e.nowMs.1.beforeAttempt now).nextAttempt rank).reconnectTcp = r at h₂
  have hinterval : r.1.registerInterval = e.registerInterval := congrArg Prod.fst h₂
  split_ifs
  · exact .inl rfl
  · exact .inl h₁
  · refine .inr (.inr ?_)
    rw [schedule_register, hinterval, hoffset]
  · refine .inr (.inl ?_)
    rw [← hinterval]
    rfl

end

end Edge

/-! ### Every run -/

/-- The interval of the configuration is never changed. -/
theorem registerInterval_apply (e : Edge) (c : EdgeCall) :
    (c.apply e).registerInterval = e.registerInterval := by
  have hof : ∀ {e' : Edge}, e'.schedule = e.schedule → e'.registerInterval = e.registerInterval :=
    fun h => congrArg Prod.fst h
  cases c with
  | sendtoSock dest => exact hof (e.schedule_sendtoSock dest)
  | sendControl dest => exact hof (e.schedule_sendControl dest)
  | sendRegister remotePeer => exact hof (e.schedule_sendRegister remotePeer)
  | sendRegisterSuper => exact hof e.schedule_sendRegisterSuper
  | sendUnregisterSuper => exact hof e.schedule_sendUnregisterSuper
  | sendQueryPeer dstMac pings skip => exact hof (e.schedule_sendQueryPeer dstMac pings skip)
  | processUdp rx => exact hof (e.schedule_processRegistration rx)
  | updateSupernodeReg now rank =>
    rcases e.schedule_updateSupernodeReg now rank with h | h | h
    · exact hof h
    · exact congrArg Prod.fst h
    · exact congrArg Prod.fst h
  | connect | disconnect | switchToTcp | releaseTcpSticky | markUdpRecovered | recycleUdp |
    readFailed | readTooLong | kcp | resetKcp | selectionSort | setCurrSn | resetSupAttempts |
    setSnWait | setTimes | resolved | setPeers | setDevice | setPreferredSock | setRxTransport |
    endBootstrap => rfl

/-- The edge is set up with the configuration. -/
structure Edge.Configured (e : Edge) (conf : CheckedConf) : Prop where
  registerInterval : e.registerInterval = conf.registerInterval.toInt
  communityName : e.conf.communityName = conf.communityName
  supernodes : e.supernodes = conf.supernodes

/-- The runs of an edge with the configuration. -/
def confMachine (conf : CheckedConf) : Machine Edge EdgeCall :=
  { edgeMachine with init := fun e => e.Initial ∧ e.Configured conf }

/-- The offset is defined and below the interval; the time to wait is between 0 and the default; and
when a registration sets the time from which the interval is counted, the next one is not due by a
full interval before it. -/
structure RegisterArithmetic (e : Edge) : Prop where
  offset : ∃ off, e.registerOffset = some off ∧ 0 ≤ off ∧ off < e.registerInterval
  wait : ∀ (currentMs : UInt32) (defaultMs : ℤ), 0 ≤ defaultMs →
    0 ≤ edgeRegisterRetryWaitMs e.transport currentMs defaultMs ∧
      edgeRegisterRetryWaitMs e.transport currentMs defaultMs ≤ defaultMs
  next : ∀ (now : ℤ) (rank : ℕ → ℕ),
    (e.updateSupernodeReg now rank).lastRegisterReq ≠ e.lastRegisterReq →
      now - e.registerInterval <
        (e.updateSupernodeReg now rank).lastRegisterReq + e.registerInterval

/-- In a state, all depends on the offset. -/
theorem registerArithmetic_of_offset {e : Edge}
    (h : ∃ off, e.registerOffset = some off ∧ 0 ≤ off ∧ off < e.registerInterval) :
    RegisterArithmetic e where
  offset := h
  wait currentMs _ hdefault := retryWait_bounds e.transport currentMs hdefault
  next now rank hchanged := by
    obtain ⟨off, hoff, hpos, hlt⟩ := h
    have hretry := retryOffset_of_registerOffset (by omega) hoff
    rcases e.schedule_updateSupernodeReg now rank with hsame | hnow | hback
    · exact absurd (congrArg Prod.snd hsame) hchanged
    · have hreq : (e.updateSupernodeReg now rank).lastRegisterReq = now := congrArg Prod.snd hnow
      omega
    · have hreq : (e.updateSupernodeReg now rank).lastRegisterReq = now - e.retryOffset :=
        congrArg Prod.snd hback
      omega

theorem registerArithmetic_state_iff {e : Edge} (hpos : 1 ≤ e.registerInterval) :
    RegisterArithmetic e ↔
      (e.transport.snWait = 2 → 2 ≤ e.registerInterval ∧ e.registerInterval ≤ 715827882) :=
  ⟨fun h => (registerOffset_iff hpos).mp h.offset,
    fun h => registerArithmetic_of_offset ((registerOffset_iff hpos).mpr h)⟩

theorem registerInterval_of_reach {conf : CheckedConf} {e : Edge}
    (h : (confMachine conf).Reach anyStep e) :
    e.registerInterval = conf.registerInterval.toInt := by
  refine h.invariant (I := fun e => e.registerInterval = conf.registerInterval.toInt) ?_ ?_
  · rintro e ⟨-, hconf⟩
    exact hconf.registerInterval
  · intro e c hinterval _ _
    exact (registerInterval_apply e c).trans hinterval

/-- An edge with the configuration, after `edge_init`. -/
def configuredEdge (conf : CheckedConf) : Edge :=
  { startedEdge false sparedSockets with
    conf := { userConf with communityName := conf.communityName }
    registerInterval := conf.registerInterval.toInt
    supernodes := conf.supernodes }

/-- The supernode asks for a registration at once. -/
theorem reach_waiting (conf : CheckedConf) : (confMachine conf).Reach anyStep
    ((EdgeCall.setSnWait 2).apply (configuredEdge conf)) := by
  have hinit : (configuredEdge conf).Initial :=
    ⟨⟨rfl, rfl, rfl⟩, rfl, rfl, ⟨rfl, rfl⟩, ⟨rfl, rfl⟩, rfl, rfl, sparedSockets_ok⟩
  have hconf : (configuredEdge conf).Configured conf := ⟨rfl, rfl, rfl⟩
  have hstart : (confMachine conf).Reach anyStep (configuredEdge conf) := .init ⟨hinit, hconf⟩
  exact hstart.step (.setSnWait 2) trivial trivial

/-- **For which configurations the arithmetic holds in every run.** -/
theorem registerArithmetic_iff {conf : CheckedConf} (h : edgeVerifyConf conf = 0) :
    (∀ e, (confMachine conf).Reach anyStep e → RegisterArithmetic e) ↔
      2 ≤ conf.registerInterval.toInt ∧ conf.registerInterval.toInt ≤ 715827882 := by
  have hpos := one_le_of_edgeVerifyConf h
  constructor
  · intro hall
    have hreach := reach_waiting conf
    have hinterval := registerInterval_of_reach hreach
    have hstate := (registerArithmetic_state_iff (by omega)).mp (hall _ hreach) rfl
    rwa [hinterval] at hstate
  · intro hbounds e hreach
    have hinterval := registerInterval_of_reach hreach
    refine (registerArithmetic_state_iff (by omega)).mpr fun _ => ?_
    rwa [hinterval]

/-- The default configuration but for the interval, with one supernode. -/
def intervalConf (registerInterval : Int32) : CheckedConf where
  communityName := userConf.communityName
  snNum := 1
  supernodes := Table.empty.add PeerInfo.zero
  registerInterval := registerInterval
  encryptKey := none
  transopId := .null

/-- With the default interval of 20 seconds, all is well. -/
theorem registerArithmetic_default :
    edgeVerifyConf (intervalConf 20) = 0 ∧
      ∀ e, (confMachine (intervalConf 20)).Reach anyStep e → RegisterArithmetic e :=
  ⟨by decide, (@registerArithmetic_iff (intervalConf 20) (by decide)).mpr ⟨by decide, by decide⟩⟩

/-- An interval of one second is accepted, and divided by. -/
theorem not_registerArithmetic_one :
    edgeVerifyConf (intervalConf 1) = 0 ∧
      ∃ e, (confMachine (intervalConf 1)).Reach anyStep e ∧ ¬ RegisterArithmetic e := by
  refine ⟨by decide, _, reach_waiting (intervalConf 1), fun hholds => ?_⟩
  have hnone : ((EdgeCall.setSnWait 2).apply (configuredEdge (intervalConf 1))).registerOffset =
      none := by decide
  obtain ⟨off, hoff, -⟩ := hholds.offset
  rw [hnone] at hoff
  cases hoff

end N2n
