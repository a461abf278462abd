import N2nTun.KcpReceive

/-!
# The supernode takes messages out of its KCP sessions

The tables of sessions once more, now with the objects of the library behind them.  A datagram for a
session is put into its object, and `run_sn_loop` hands the messages that are then complete to
`process_udp`; what that does to the sessions is to send on them.

## Main definitions

* `SnKcpRx` — the tables and the objects.
* `SnKcpRx.accept`, `SnKcpRx.recvPending` — `n2n_kcp_sn_process_input` up to the receipt, and
  `n2n_kcp_sn_recv_pending`.
* `SnKcpRx.send`, `SnKcpRx.update` — `n2n_kcp_sn_send` and `n2n_kcp_sn_update`.
* `SnKcpRx.handle` — the UDP part of `run_sn_loop`.
* `snKcpRxMachine` — the runs.

## Main results

* `SnKcpRx.Keeps.queue` — sends and updates leave a queue alone or end its session.
* `SnKcpRx.handle_accepted` — **what becomes of the queue of the session a datagram is for.**
-/

namespace N2n

open Loops Machines

/-- The tables of sessions, and for every place in them the object of the library. -/
structure SnKcpRx (κ : Type) where
  kcp : SnKcp
  obj : KcpChannel → ℕ → κ

/-- A datagram, what `recvfrom` says of its sender, whether there is memory, and the clocks. -/
structure SnDatagram where
  remote : Sock
  buf : List UInt8
  alloc : SnKcp.Alloc
  now : ℤ
  time : ℤ
  nowMs : UInt32

/-- What `process_udp` sends over KCP. -/
structure SnKcpSend where
  remote : Sock
  payload : List UInt8
  channel : KcpChannel
  nowMs : UInt32

namespace SnKcpRx

variable {κ : Type} (lib : KcpLibrary κ)

/-- An object is written. -/
def setObj (s : SnKcpRx κ) (channel : KcpChannel) (p : ℕ) (k : κ) : SnKcpRx κ :=
  { s with obj := fun c q => if c = channel ∧ q = p then k else s.obj c q }

/-- The object of a session that has been found or created. -/
def object (s : SnKcpRx κ) (conv : UInt32) (channel : KcpChannel) (p : ℕ) (created : Bool) : κ :=
  if created then lib.create conv else s.obj channel p

/-- `n2n_kcp_sn_process_input` up to `ikcp_update`, with what is returned and, if that is 1, the
place of the session. -/
def accept (s : SnKcpRx κ) (d : SnDatagram) : SnKcpRx κ × ℤ × Option (KcpChannel × ℕ) :=
  match (n2nKcpPacketGetConv d.buf).join with
  | none => (s, 0, none)
  | some conv =>
    let channel := n2nKcpChannelFromConv conv
    match s.kcp.findOrCreate d.remote conv channel d.alloc d.time with
    | (kcp, none) => ({ s with kcp := kcp }, 0, none)
    | (kcp, some (p, created)) =>
      let (rc, k) := lib.input (s.object lib conv channel p created) d.buf
      if rc < 0 then
        (setObj { s with kcp := if created then kcp.dropCtx p channel else kcp } channel p k, -1,
          none)
      else
        let k := lib.update k d.nowMs
        let kcp := kcp.setTable channel ((kcp.table channel).modify p fun ctx =>
          { ctx with lastSeen := d.now })
        (setObj { s with kcp := kcp.setState channel p (lib.state k) } channel p k, 1,
          some (channel, p))

/-- The tables and what is returned are those of the model without the objects. -/
theorem accept_processInput (s : SnKcpRx κ) (d : SnDatagram) : ∃ ans : KcpAnswer,
    s.kcp.processInput d.remote d.buf d.alloc ans d.now d.time =
      ((s.accept lib d).1.kcp, (s.accept lib d).2.1) := by
  unfold SnKcp.processInput SnKcpRx.accept
  cases (n2nKcpPacketGetConv d.buf).join with
  | none => exact ⟨⟨true, 0⟩, rfl⟩
  | some conv =>
    dsimp only
    generalize s.kcp.findOrCreate d.remote conv _ d.alloc d.time = r
    obtain ⟨kcp, found⟩ := r
    cases found with
    | none => exact ⟨⟨true, 0⟩, rfl⟩
    | some found =>
      obtain ⟨p, created⟩ := found
      dsimp only
      generalize s.object lib conv _ p created = k
      by_cases hrc : (lib.input k d.buf).1 < 0
      · refine ⟨⟨false, 0⟩, ?_⟩
        rw [if_pos hrc]
        rfl
      · refine ⟨⟨true, lib.state (lib.update (lib.input k d.buf).2 d.nowMs)⟩, ?_⟩
        rw [if_neg hrc]
        rfl

/-- `n2n_kcp_recv_pending_ctx` on a context of the tables. -/
def recvFrom (outBufSize : ℕ) (s : SnKcpRx κ) (channel : KcpChannel) (p : ℕ) (ctx : SnKcpCtx) :
    SnKcpRx κ × ℤ × List UInt8 :=
  if !ctx.active || ctx.kcp.isNone then (s, 0, [])
  else
    let (k, rc, out) := recvPendingCtx lib outBufSize (s.obj channel p)
    (s.setObj channel p k, rc, out)

/-- `n2n_kcp_sn_recv_pending`. -/
def recvPending (outBufSize : ℕ) (remote : Sock) (channel : KcpChannel) (s : SnKcpRx κ) :
    SnKcpRx κ × ℤ × List UInt8 :=
  match s.kcp.findCtx remote channel with
  | none => (s, 0, [])
  | some (p, ctx) => s.recvFrom lib outBufSize channel p ctx

/-- `n2n_kcp_sn_send`. -/
def send (s : SnKcpRx κ) (x : SnKcpSend) : SnKcpRx κ :=
  match s.kcp.findSendCtx x.remote x.channel with
  | (kcp, none) => { s with kcp := kcp }
  | (kcp, some (p, ctx, channel)) =>
    if ctx.kcp.isNone || ctx.isDead then { s with kcp := kcp }
    else
      let (rc, k) := lib.send (s.obj channel p) x.payload
      if rc < 0 then setObj { s with kcp := kcp } channel p k
      else
        let k := lib.update k x.nowMs
        setObj { s with kcp := kcp.setState channel p (lib.state k) } channel p k

/-- `n2n_kcp_sn_update`. -/
def update (s : SnKcpRx κ) (now : ℤ) (nowMs : UInt32) : SnKcpRx κ :=
  let obj channel p := lib.flush (lib.update (s.obj channel p) nowMs)
  ⟨s.kcp.update now (fun p => lib.state (obj .ctrl p)) fun p => lib.state (obj .data p), obj⟩

/-- `process_udp` for a message: `sends` tells what it sends on the sessions. -/
def processUdp (sends : SnKcpRx κ → List UInt8 → List SnKcpSend) (s : SnKcpRx κ) (m : List UInt8) :
    SnKcpRx κ := (sends s m).foldl (send lib) s

/-- The UDP part of `run_sn_loop`, with at most `passes` passes of the loop that receives: the state
afterwards and what has been handed to `process_udp`. -/
def handle (sends : SnKcpRx κ → List UInt8 → List SnKcpSend) (passes : ℕ) (s : SnKcpRx κ)
    (d : SnDatagram) : Option (SnKcpRx κ × List (List UInt8)) :=
  match s.accept lib d with
  | (s, rc, none) => some (if rc ≠ 0 then (s, []) else (processUdp lib sends s d.buf, [d.buf]))
  | (s, _, some (channel, p)) =>
    let (s, _, out) :=
      match (s.kcp.table channel).get? p with
      | none => (s, 0, [])
      | some ctx => s.recvFrom lib snPktbufSize channel p ctx
    loop (receiveStep (processUdp lib sends) (recvPending lib snPktbufSize d.remote channel)) passes
      ⟨s, out, []⟩

/-- The messages that the library completes from a datagram. -/
def completes (messages : κ → List (List UInt8)) (s : SnKcpRx κ) (d : SnDatagram) :
    List (List UInt8) :=
  match (n2nKcpPacketGetConv d.buf).join with
  | none => []
  | some conv =>
    let channel := n2nKcpChannelFromConv conv
    match (s.kcp.findOrCreate d.remote conv channel d.alloc d.time).2 with
    | none => []
    | some (p, created) =>
      let k := s.object lib conv channel p created
      (messages (lib.input k d.buf).2).drop (messages k).length

/-- The messages that wait in the session with a peer. -/
def queue (messages : κ → List (List UInt8)) (remote : Sock) (channel : KcpChannel)
    (s : SnKcpRx κ) : List (List UInt8) :=
  match s.kcp.findCtx remote channel with
  | none => []
  | some (p, _) => messages (s.obj channel p)

end SnKcpRx

/-! ### The tables -/

namespace SnKcp

/-- A context of the tables is in use, and has an object. -/
def Live (ctx : SnKcpCtx) : Prop := ctx.active = true ∧ ctx.kcp.isSome = true

/-- Two states of one context. -/
structure SameCtx (ctx ctx' : SnKcpCtx) : Prop where
  hashKey : ctx'.hashKey = ctx.hashKey
  live : Live ctx → Live ctx'

/-- The sessions of the second state are sessions of the first. -/
def Kept (sss sss' : SnKcp) : Prop :=
  ∀ channel p ctx', (sss'.table channel).get? p = some ctx' →
    ∃ ctx, (sss.table channel).get? p = some ctx ∧ SameCtx ctx ctx'

theorem Kept.refl (sss : SnKcp) : sss.Kept sss :=
  fun _ _ ctx' h => ⟨ctx', h, rfl, id⟩

theorem Kept.trans {sss sss₁ sss₂ : SnKcp} (h : sss.Kept sss₁) (h₁ : sss₁.Kept sss₂) :
    sss.Kept sss₂ := by
  intro channel p ctx₂ hget
  obtain ⟨ctx₁, hget₁, hsame₁⟩ := h₁ channel p ctx₂ hget
  obtain ⟨ctx, hget, hsame⟩ := h channel p ctx₁ hget₁
  exact ⟨ctx, hget, hsame₁.hashKey.trans hsame.hashKey, hsame₁.live ∘ hsame.live⟩

theorem table_setTable_ne {sss : SnKcp} {channel other : KcpChannel} (h : other ≠ channel)
    (table : Table SnKcpCtx) : (sss.setTable channel table).table other = sss.table other := by
  cases channel <;> cases other <;> first | rfl | exact absurd rfl h

theorem Kept.setTable {sss : SnKcp} {channel : KcpChannel} {table : Table SnKcpCtx}
    (h : ∀ p ctx', table.get? p = some ctx' →
      ∃ ctx, (sss.table channel).get? p = some ctx ∧ SameCtx ctx ctx') :
    sss.Kept (sss.setTable channel table) := by
  intro other p ctx' hget
  by_cases hother : other = channel
  · subst hother
    rw [table_setTable] at hget
    exact h p ctx' hget
  · rw [table_setTable_ne hother] at hget
    exact ⟨ctx', hget, rfl, id⟩

theorem Kept.modify {sss : SnKcp} {channel : KcpChannel} {p : ℕ} {f : SnKcpCtx → SnKcpCtx}
    (hf : ∀ ctx, SameCtx ctx (f ctx)) :
    sss.Kept (sss.setTable channel ((sss.table channel).modify p f)) := by
  refine .setTable fun q ctx' hget => ?_
  rw [Table.get?_modify] at hget
  split_ifs at hget with hq
  · obtain ⟨ctx, hctx, rfl⟩ := Option.map_eq_some_iff.mp hget
    exact ⟨ctx, hctx, hf ctx⟩
  · exact ⟨ctx', hget, rfl, id⟩

theorem sameCtx_withState (ctx : SnKcpCtx) (state : UInt32) :
    SameCtx ctx { ctx with toEdgeKcpCtx := ctx.withState state } :=
  ⟨rfl, fun h => ⟨h.1, by simpa [EdgeKcpCtx.withState] using h.2⟩⟩

theorem sameCtx_seen (ctx : SnKcpCtx) (now : ℤ) : SameCtx ctx { ctx with lastSeen := now } :=
  ⟨rfl, id⟩

theorem kept_setState (sss : SnKcp) (channel : KcpChannel) (p : ℕ) (state : UInt32) :
    sss.Kept (sss.setState channel p state) := .modify fun ctx => sameCtx_withState ctx state

theorem kept_dropCtx (sss : SnKcp) (p : ℕ) (channel : KcpChannel) :
    sss.Kept (sss.dropCtx p channel) := by
  refine .setTable fun q ctx' hget => ?_
  rw [Table.get?_del] at hget
  split_ifs at hget
  exact ⟨ctx', hget, rfl, id⟩

theorem kept_findLiveCtx (sss : SnKcp) (remote : Sock) (channel : KcpChannel) :
    sss.Kept (sss.findLiveCtx remote channel).1 := by
  unfold SnKcp.findLiveCtx
  cases sss.findCtx remote channel with
  | none => exact .refl sss
  | some found =>
    dsimp only
    split_ifs
    · exact .refl sss
    · exact kept_dropCtx sss found.1 channel
    · exact .refl sss

theorem kept_findSendCtx (sss : SnKcp) (remote : Sock) (channel : KcpChannel) :
    sss.Kept (sss.findSendCtx remote channel).1 := by
  unfold SnKcp.findSendCtx
  have h₁ := kept_findLiveCtx sss remote channel
  generalize sss.findLiveCtx remote channel = r at h₁ ⊢
  obtain ⟨sss₁, found⟩ := r
  cases found with
  | some found => exact h₁
  | none =>
    have h₂ := h₁.trans (kept_findLiveCtx sss₁ remote (otherChannel channel))
    dsimp only at h₂ ⊢
    generalize sss₁.findLiveCtx remote (otherChannel channel) = r at h₂ ⊢
    obtain ⟨sss₂, found⟩ := r
    cases found <;> exact h₂

theorem kept_updateCtx (sss : SnKcp) (now : ℤ) (states : ℕ → UInt32) (channel : KcpChannel)
    (p : ℕ) : sss.Kept (SnKcp.updateCtx now states channel sss p) := by
  unfold SnKcp.updateCtx
  have h₁ := kept_setState sss channel p (states p)
  dsimp only
  split
  · exact h₁
  · split_ifs
    · exact h₁.trans (kept_dropCtx _ p channel)
    · exact h₁

theorem kept_update (sss : SnKcp) (now : ℤ) (ctrl data : ℕ → UInt32) :
    sss.Kept (sss.update now ctrl data) := by
  have hloop : ∀ (states : ℕ → UInt32) (channel : KcpChannel) (ps : List ℕ) (sss : SnKcp),
      sss.Kept (ps.foldl (SnKcp.updateCtx now states channel) sss) := by
    intro states channel ps
    induction ps with
    | nil => exact Kept.refl
    | cons p ps ih => exact fun sss => (kept_updateCtx sss now states channel p).trans (ih _)
  exact (hloop ctrl .ctrl _ sss).trans (hloop data .data _ _)

/-- A session that is found, in a state with these sessions or fewer, is the one that was found. -/
theorem Kept.findCtx {sss sss' : SnKcp} (h : sss.Kept sss') (hok : sss.Ok) {remote : Sock}
    {channel : KcpChannel} {p : ℕ} {ctx' : SnKcpCtx}
    (hfound : sss'.findCtx remote channel = some (p, ctx')) :
    ∃ ctx, sss.findCtx remote channel = some (p, ctx) := by
  obtain ⟨hget', hkey'⟩ := findCtx_eq_some hfound
  obtain ⟨ctx, hget, hsame⟩ := h channel p ctx' hget'
  have hkey : ctx.hashKey = remote := hsame.hashKey.symm.trans hkey'
  cases hfind : sss.findCtx remote channel with
  | none => exact absurd hkey (findCtx_eq_none hfind ctx (Table.mem_of_get? hget))
  | some found =>
    obtain ⟨hget₀, hkey₀⟩ := findCtx_eq_some hfind
    have hp : found.1 = p :=
      (hok channel).distinct _ _ _ _ hget₀ hget (hkey₀.trans hkey.symm) trivial
    exact ⟨found.2, by rw [← hp]⟩

/-- What `n2n_kcp_sn_find_or_create` finds or creates: the session with the peer, in tables that
otherwise hold what they held. -/
structure Target (sss : SnKcp) (remote : Sock) (channel : KcpChannel) (sss' : SnKcp) (p : ℕ)
    (created : Bool) : Prop where
  find : ∃ ctx, sss'.findCtx remote channel = some (p, ctx)
  new : created = true → ∀ ctx, (sss'.table channel).get? p = some ctx → Live ctx
  old : ∀ c q ctx', (sss'.table c).get? q = some ctx' → ¬ (created = true ∧ c = channel ∧ q = p) →
    ∃ ctx, (sss.table c).get? q = some ctx ∧ SameCtx ctx ctx'

theorem createCtx_cases (sss : SnKcp) (remote : Sock) (conv : UInt32) (channel : KcpChannel)
    (alloc : Alloc) (now : ℤ) :
    sss.createCtx remote conv channel alloc now = (sss, none) ∨
      ∃ sss' p, sss.createCtx remote conv channel alloc now = (sss', some (p, true)) ∧
        Target sss remote channel sss' p true := by
  unfold SnKcp.createCtx
  split_ifs
  · exact Or.inl rfl
  · refine Or.inr ⟨_, _, rfl, ⟨newCtx remote conv now, ?_⟩, ?_, ?_⟩
    · rw [SnKcp.findCtx, table_setTable, Table.find?_add, if_pos (by simp [newCtx])]
    · intro _ ctx hget
      rw [table_setTable, Table.get?_add, if_pos rfl] at hget
      rw [← Option.some.inj hget]
      exact ⟨rfl, rfl⟩
    · intro c q ctx' hget hnot
      by_cases hc : c = channel
      · subst hc
        rw [table_setTable, Table.get?_add, if_neg fun hq => hnot ⟨rfl, rfl, hq⟩] at hget
        exact ⟨ctx', hget, rfl, id⟩
      · rw [table_setTable_ne hc] at hget
        exact ⟨ctx', hget, rfl, id⟩

/-- Sessions may have gone before. -/
theorem Target.of_kept {sss sss₁ sss' : SnKcp} {remote : Sock} {channel : KcpChannel} {p : ℕ}
    {created : Bool} (h : sss.Kept sss₁) (ht : Target sss₁ remote channel sss' p created) :
    Target sss remote channel sss' p created where
  find := ht.find
  new := ht.new
  old c q ctx' hget hnot := by
    obtain ⟨ctx₁, hget₁, hsame₁⟩ := ht.old c q ctx' hget hnot
    obtain ⟨ctx, hctx, hsame⟩ := h c q ctx₁ hget₁
    exact ⟨ctx, hctx, hsame₁.hashKey.trans hsame.hashKey, hsame₁.live ∘ hsame.live⟩

theorem findOrCreate_cases (sss : SnKcp) (remote : Sock) (conv : UInt32) (channel : KcpChannel)
    (alloc : Alloc) (now : ℤ) :
    (∃ sss', sss.findOrCreate remote conv channel alloc now = (sss', none) ∧ sss.Kept sss') ∨
      ∃ sss' p created, sss.findOrCreate remote conv channel alloc now =
          (sss', some (p, created)) ∧ Target sss remote channel sss' p created := by
  have hcreate : ∀ sss₁, sss.Kept sss₁ →
      (∃ sss', sss₁.createCtx remote conv channel alloc now = (sss', none) ∧ sss.Kept sss') ∨
        ∃ sss' p created, sss₁.createCtx remote conv channel alloc now =
          (sss', some (p, created)) ∧ Target sss remote channel sss' p created := by
    intro sss₁ hkept
    rcases createCtx_cases sss₁ remote conv channel alloc now with h | ⟨sss', p, h, ht⟩
    · exact Or.inl ⟨sss₁, h, hkept⟩
    · exact Or.inr ⟨sss', p, true, h, ht.of_kept hkept⟩
  unfold SnKcp.findOrCreate
  cases hfind : sss.findCtx remote channel with
  | none => exact hcreate sss (.refl sss)
  | some found =>
    dsimp only
    split_ifs
    · exact hcreate _ (kept_dropCtx sss found.1 channel)
    · exact Or.inr ⟨sss, found.1, false, rfl, ⟨found.2, hfind⟩, fun h => (by cases h),
        fun _ _ ctx' hget _ => ⟨ctx', hget, rfl, id⟩⟩

/-- A write to a context that leaves its key alone. -/
theorem findCtx_modify {sss : SnKcp} {remote : Sock} {channel : KcpChannel} {p : ℕ}
    {ctx : SnKcpCtx} (h : sss.findCtx remote channel = some (p, ctx)) {f : SnKcpCtx → SnKcpCtx}
    (hf : ∀ ctx, (f ctx).hashKey = ctx.hashKey) :
    (sss.setTable channel ((sss.table channel).modify p f)).findCtx remote channel =
      some (p, f ctx) := by
  unfold SnKcp.findCtx at h ⊢
  rw [table_setTable, Table.find?_modify _ _ fun ctx => by rw [hf], h]
  simp [Table.updateAt]

end SnKcp

/-! ### Queues under sends and updates -/

namespace SnKcpRx

variable {κ : Type} {lib : KcpLibrary κ} {messages : κ → List (List UInt8)}

/-- The sessions of the second state are sessions of the first, with the messages they had. -/
structure Keeps (messages : κ → List (List UInt8)) (s s' : SnKcpRx κ) : Prop where
  ok : s'.kcp.Ok
  kept : s.kcp.Kept s'.kcp
  messages : ∀ channel p ctx', (s'.kcp.table channel).get? p = some ctx' →
    messages (s'.obj channel p) = messages (s.obj channel p)

theorem Keeps.refl {s : SnKcpRx κ} (h : s.kcp.Ok) : Keeps messages s s :=
  ⟨h, .refl _, fun _ _ _ _ => rfl⟩

theorem Keeps.trans {s s₁ s₂ : SnKcpRx κ} (h : Keeps messages s s₁) (h₁ : Keeps messages s₁ s₂) :
    Keeps messages s s₂ where
  ok := h₁.ok
  kept := h.kept.trans h₁.kept
  messages channel p ctx₂ hget := by
    obtain ⟨ctx₁, hget₁, -⟩ := h₁.kept channel p ctx₂ hget
    exact (h₁.messages channel p ctx₂ hget).trans (h.messages channel p ctx₁ hget₁)

/-- **They leave a queue alone, or its session is gone.** -/
theorem Keeps.queue {s s' : SnKcpRx κ} (h : Keeps messages s s') (hok : s.kcp.Ok) (remote : Sock)
    (channel : KcpChannel) :
    s'.queue messages remote channel = s.queue messages remote channel ∨
      s'.queue messages remote channel = [] := by
  unfold SnKcpRx.queue
  cases hfind' : s'.kcp.findCtx remote channel with
  | none => exact Or.inr rfl
  | some found =>
    left
    have hfound : s'.kcp.findCtx remote channel = some (found.1, found.2) := hfind'
    obtain ⟨ctx, hfind⟩ := h.kept.findCtx hok hfound
    rw [hfind]
    exact h.messages channel found.1 found.2 (SnKcp.findCtx_eq_some hfind').1

@[simp] theorem setObj_kcp (s : SnKcpRx κ) (channel : KcpChannel) (p : ℕ) (k : κ) :
    (s.setObj channel p k).kcp = s.kcp := rfl

@[simp] theorem setObj_self (s : SnKcpRx κ) (channel : KcpChannel) (p : ℕ) (k : κ) :
    (s.setObj channel p k).obj channel p = k := by
  simp [setObj]

theorem setObj_other (s : SnKcpRx κ) {channel c : KcpChannel} {p q : ℕ} (k : κ)
    (h : ¬ (c = channel ∧ q = p)) : (s.setObj channel p k).obj c q = s.obj c q := if_neg h

/-- The object is written, without a message more or less. -/
theorem messages_setObj {s : SnKcpRx κ} {channel : KcpChannel} {p : ℕ} {k : κ}
    (h : messages k = messages (s.obj channel p)) (c : KcpChannel) (q : ℕ) :
    messages ((s.setObj channel p k).obj c q) = messages (s.obj c q) := by
  by_cases hq : c = channel ∧ q = p
  · obtain ⟨rfl, rfl⟩ := hq
    rw [setObj_self, h]
  · rw [setObj_other s k hq]

/-- A send. -/
theorem keeps_send (hlib : lib.Queues messages) {s : SnKcpRx κ} (hok : s.kcp.Ok) (x : SnKcpSend) :
    Keeps messages s (s.send lib x) := by
  unfold SnKcpRx.send
  have hok₁ := hok.findSendCtx x.remote x.channel
  have hkept := SnKcp.kept_findSendCtx s.kcp x.remote x.channel
  generalize s.kcp.findSendCtx x.remote x.channel = r at hok₁ hkept ⊢
  obtain ⟨kcp, found⟩ := r
  cases found with
  | none => exact ⟨hok₁, hkept, fun _ _ _ _ => rfl⟩
  | some found =>
    obtain ⟨p, ctx, channel⟩ := found
    dsimp only at hok₁ hkept ⊢
    split_ifs
    · exact ⟨hok₁, hkept, fun _ _ _ _ => rfl⟩
    · exact ⟨hok₁, hkept, fun c q _ _ => messages_setObj (hlib.send _ _) c q⟩
    · refine ⟨hok₁.setState _ _ _, hkept.trans (SnKcp.kept_setState _ _ _ _), fun c q _ _ => ?_⟩
      exact messages_setObj ((hlib.update _ _).trans (hlib.send _ _)) c q

theorem keeps_processUdp (hlib : lib.Queues messages)
    (sends : SnKcpRx κ → List UInt8 → List SnKcpSend) {s : SnKcpRx κ} (hok : s.kcp.Ok)
    (m : List UInt8) :
    Keeps messages s (processUdp lib sends s m) := by
  unfold SnKcpRx.processUdp
  generalize sends s m = xs
  induction xs generalizing s with
  | nil => exact .refl hok
  | cons x xs ih =>
    have hsend := keeps_send hlib hok x
    exact hsend.trans (ih hsend.ok)

/-- The periodic update. -/
theorem keeps_update (hlib : lib.Queues messages) {s : SnKcpRx κ} (hok : s.kcp.Ok) (now : ℤ)
    (nowMs : UInt32) : Keeps messages s (s.update lib now nowMs) where
  ok := hok.update _ _ _
  kept := SnKcp.kept_update _ _ _ _
  messages _ _ _ _ := (hlib.flush _).trans (hlib.update _ _)

/-! ### The loop of the supernode -/

/-- What the loop needs of the tables. -/
structure Good (s : SnKcpRx κ) : Prop where
  ok : s.kcp.Ok
  live : ∀ channel p ctx, (s.kcp.table channel).get? p = some ctx → SnKcp.Live ctx

theorem Keeps.good {s s' : SnKcpRx κ} (h : Keeps messages s s') (hgood : s.Good) : s'.Good where
  ok := h.ok
  live channel p ctx' hget := by
    obtain ⟨ctx, hctx, hsame⟩ := h.kept channel p ctx' hget
    exact hsame.live (hgood.live channel p ctx hctx)

/-- The receipt from a session that is found. -/
theorem recvPending_eq {size : ℕ} {remote : Sock} {channel : KcpChannel} {s : SnKcpRx κ}
    (hgood : s.Good) {p : ℕ} {ctx : SnKcpCtx} (hfind : s.kcp.findCtx remote channel = some (p, ctx))
    {k : κ} {rc : ℤ} {out : List UInt8}
    (h : recvPendingCtx lib size (s.obj channel p) = (k, rc, out)) :
    recvPending lib size remote channel s = (s.setObj channel p k, rc, out) := by
  obtain ⟨hactive, hkcp⟩ := hgood.live channel p ctx (SnKcp.findCtx_eq_some hfind).1
  unfold SnKcpRx.recvPending
  rw [hfind]
  dsimp only
  unfold SnKcpRx.recvFrom
  rw [if_neg (by simp [hactive, Option.isSome_iff_ne_none.mp hkcp]), h]

theorem queue_setObj {s : SnKcpRx κ} {remote : Sock} {channel : KcpChannel} {p : ℕ} {ctx : SnKcpCtx}
    (hfind : s.kcp.findCtx remote channel = some (p, ctx)) (k : κ) :
    (s.setObj channel p k).queue messages remote channel = messages k := by
  unfold SnKcpRx.queue
  rw [setObj_kcp, hfind]
  dsimp only
  rw [setObj_self]

section

variable (hlib : lib.Queues messages) {I : SnKcpRx κ → Prop} (hgood : ∀ s, I s → s.Good)
include hlib hgood

theorem pending (size : ℕ) (remote : Sock) (channel : KcpChannel)
    (hinv : ∀ s, I s → I (recvPending lib size remote channel s).1) :
    Pending size (SnKcpRx.queue messages remote channel) I
      (recvPending lib size remote channel) where
  inv := hinv
  fits s m rest h hq hm := by
    cases hfind : s.kcp.findCtx remote channel with
    | none =>
      rw [SnKcpRx.queue, hfind] at hq
      cases hq
    | some found =>
      obtain ⟨p, ctx⟩ := found
      rw [SnKcpRx.queue, hfind] at hq
      obtain ⟨k, hrecv, hrest⟩ := recvPendingCtx_fits hlib hq hm
      rw [recvPending_eq (hgood s h) hfind hrecv]
      exact ⟨rfl, (queue_setObj hfind k).trans hrest⟩
  stuck s h hq := by
    cases hfind : s.kcp.findCtx remote channel with
    | none =>
      rw [SnKcpRx.recvPending, hfind]
      exact ⟨rfl, rfl⟩
    | some found =>
      obtain ⟨p, ctx⟩ := found
      have hqueue : s.queue messages remote channel = messages (s.obj channel p) := by
        rw [SnKcpRx.queue, hfind]
      rw [hqueue] at hq
      rw [recvPending_eq (hgood s h) hfind (recvPendingCtx_stuck hlib hq)]
      exact ⟨rfl, (queue_setObj hfind _).trans hqueue.symm⟩

theorem handled (sends : SnKcpRx κ → List UInt8 → List SnKcpSend) (remote : Sock)
    (channel : KcpChannel) (hinv : ∀ s m, I s → I (processUdp lib sends s m)) :
    Handled (SnKcpRx.queue messages remote channel) I (processUdp lib sends) where
  inv := hinv
  queue s m h := (keeps_processUdp hlib sends (hgood s h).ok m).queue (hgood s h).ok remote channel

end

/-! ### Sessions whose messages all fit -/

/-- The tables are good, and the messages that wait in their sessions fit into the buffer. -/
structure Fitting (messages : κ → List (List UInt8)) (s : SnKcpRx κ) : Prop extends Good s where
  fit : ∀ channel p ctx, (s.kcp.table channel).get? p = some ctx →
    ∀ m ∈ messages (s.obj channel p), Fits snPktbufSize m

theorem Keeps.fitting {s s' : SnKcpRx κ} (h : Keeps messages s s') (hs : Fitting messages s) :
    Fitting messages s' where
  toGood := h.good hs.toGood
  fit channel p ctx' hget := by
    obtain ⟨ctx, hctx, -⟩ := h.kept channel p ctx' hget
    rw [h.messages channel p ctx' hget]
    exact hs.fit channel p ctx hctx

theorem Fitting.recvPending (hlib : lib.Queues messages) {s : SnKcpRx κ} (h : Fitting messages s)
    (remote : Sock) (channel : KcpChannel) :
    Fitting messages (recvPending lib snPktbufSize remote channel s).1 := by
  cases hfind : s.kcp.findCtx remote channel with
  | none =>
    rw [SnKcpRx.recvPending, hfind]
    exact h
  | some found =>
    obtain ⟨p, ctx⟩ := found
    -- the object of the session has the same messages, or one less
    have hobj : ∀ k, (∀ m ∈ messages k, m ∈ messages (s.obj channel p)) →
        Fitting messages (s.setObj channel p k) := by
      intro k hk
      refine ⟨⟨h.ok, h.live⟩, fun c q ctx' hget m hm => ?_⟩
      by_cases hq : c = channel ∧ q = p
      · obtain ⟨rfl, rfl⟩ := hq
        rw [setObj_self] at hm
        exact h.fit c q ctx' hget m (hk m hm)
      · rw [setObj_other s k hq] at hm
        exact h.fit c q ctx' hget m hm
    rcases fits_or_stuck snPktbufSize (messages (s.obj channel p)) with
      ⟨m, rest, hq, hm⟩ | hstuck
    · obtain ⟨k, hrecv, hrest⟩ := recvPendingCtx_fits hlib hq hm
      rw [recvPending_eq h.toGood hfind hrecv]
      refine hobj k fun m' hm' => ?_
      rw [hq, ← hrest]
      exact List.mem_cons_of_mem _ hm'
    · rw [recvPending_eq h.toGood hfind (recvPendingCtx_stuck hlib hstuck)]
      exact hobj _ fun m hm => hm

/-- A datagram has been put into the object of the session it is for. -/
theorem Fitting.put (hlib : lib.Queues messages) {s : SnKcpRx κ} (h : Fitting messages s)
    {remote : Sock} (conv : UInt32) {channel : KcpChannel} {kcp kcp' : SnKcp} {p : ℕ}
    {created : Bool} (ht : SnKcp.Target s.kcp remote channel kcp p created)
    (hkept : kcp.Kept kcp') (hok : kcp'.Ok) (buf : List UInt8) {k : κ}
    (hk : messages k = messages (lib.input (s.object lib conv channel p created) buf).2)
    (hnew : ∀ m ∈ (messages k).drop (messages (s.object lib conv channel p created)).length,
      Fits snPktbufSize m) :
    Fitting messages (setObj { s with kcp := kcp' } channel p k) := by
  -- a context is the new one, or one that was there
  have hcases : ∀ c q ctx', (kcp'.table c).get? q = some ctx' → SnKcp.Live ctx' ∧
      (¬ (created = true ∧ c = channel ∧ q = p) →
        ∃ ctx, (s.kcp.table c).get? q = some ctx) := by
    intro c q ctx' hget
    obtain ⟨ctx₁, hget₁, hsame₁⟩ := hkept c q ctx' hget
    by_cases hq : created = true ∧ c = channel ∧ q = p
    · obtain ⟨hcreated, rfl, rfl⟩ := hq
      exact ⟨hsame₁.live (ht.new hcreated ctx₁ hget₁), fun hnot => (hnot ⟨hcreated, rfl, rfl⟩).elim⟩
    · obtain ⟨ctx, hctx, hsame⟩ := ht.old c q ctx₁ hget₁ hq
      exact ⟨hsame₁.live (hsame.live (h.live c q ctx hctx)), fun _ => ⟨ctx, hctx⟩⟩
  refine ⟨⟨hok, fun c q ctx' hget => (hcases c q ctx' hget).1⟩, fun c q ctx' hget m hm => ?_⟩
  by_cases hq : c = channel ∧ q = p
  · obtain ⟨rfl, rfl⟩ := hq
    rw [setObj_self] at hm
    have hprefix := hlib.input (s.object lib conv c q created) buf
    rw [← hk] at hprefix
    rw [← List.prefix_iff_eq_append.mp hprefix, List.mem_append] at hm
    rcases hm with hm | hm
    · cases created with
      | true =>
        rw [show s.object lib conv c q true = lib.create conv from rfl, hlib.create] at hm
        cases hm
      | false =>
        obtain ⟨ctx, hctx⟩ := (hcases c q ctx' hget).2 fun hnot => (by cases hnot.1)
        exact h.fit c q ctx hctx m hm
    · exact hnew m hm
  · rw [setObj_other _ k hq] at hm
    obtain ⟨ctx, hctx⟩ := (hcases c q ctx' hget).2 fun hnot => hq hnot.2
    exact h.fit c q ctx hctx m hm

/-- What `n2n_kcp_sn_process_input` does before it receives. -/
theorem Fitting.accept (hlib : lib.Queues messages) {s : SnKcpRx κ} (h : Fitting messages s)
    (d : SnDatagram) (hnew : ∀ m ∈ s.completes lib messages d, Fits snPktbufSize m) :
    Fitting messages (s.accept lib d).1 ∧
      ∀ channel p, (s.accept lib d).2.2 = some (channel, p) →
        ∃ ctx, (s.accept lib d).1.kcp.findCtx d.remote channel = some (p, ctx) := by
  unfold SnKcpRx.accept
  unfold SnKcpRx.completes at hnew
  cases hconv : (n2nKcpPacketGetConv d.buf).join with
  | none => exact ⟨h, fun _ _ hsome => (by cases hsome)⟩
  | some conv =>
    rw [hconv] at hnew
    dsimp only at hnew ⊢
    have hok := h.ok.findOrCreate d.remote (rfl : n2nKcpChannelFromConv conv = _) d.alloc d.time
    rcases SnKcp.findOrCreate_cases s.kcp d.remote conv (n2nKcpChannelFromConv conv) d.alloc
      d.time with ⟨kcp, hfound, hkept⟩ | ⟨kcp, p, created, hfound, ht⟩
    · rw [hfound] at hok ⊢
      have hkeeps : Keeps messages s { s with kcp := kcp } := ⟨hok, hkept, fun _ _ _ _ => rfl⟩
      exact ⟨hkeeps.fitting h, fun _ _ hsome => (by cases hsome)⟩
    · rw [hfound] at hok hnew ⊢
      dsimp only at hok hnew ⊢
      by_cases hrc : (lib.input (s.object lib conv (n2nKcpChannelFromConv conv) p created)
          d.buf).1 < 0
      · rw [if_pos hrc]
        have hkept : kcp.Kept
            (if created = true then kcp.dropCtx p (n2nKcpChannelFromConv conv) else kcp) ∧
            (if created = true then kcp.dropCtx p (n2nKcpChannelFromConv conv) else kcp).Ok := by
          split
          · exact ⟨SnKcp.kept_dropCtx _ _ _, hok.dropCtx _ _⟩
          · exact ⟨.refl _, hok⟩
        exact ⟨h.put hlib conv ht hkept.1 hkept.2 d.buf rfl hnew, fun _ _ hsome => (by cases hsome)⟩
      · rw [if_neg hrc]
        have hseen : kcp.Kept (kcp.setTable (n2nKcpChannelFromConv conv)
            ((kcp.table (n2nKcpChannelFromConv conv)).modify p fun ctx =>
              { ctx with lastSeen := d.now })) := .modify fun ctx => SnKcp.sameCtx_seen ctx d.now
        refine ⟨h.put hlib conv ht (hseen.trans (SnKcp.kept_setState _ _ _ _)) ?_ d.buf ?_ ?_, ?_⟩
        · refine SnKcp.Ok.setState (hok.setTable ?_) _ _ _
          exact (hok _).modify p (fun _ => rfl) (fun _ => rfl) fun _ => rfl
        · exact hlib.update _ _
        · rw [hlib.update]
          exact hnew
        · intro channel q hsome
          obtain ⟨rfl, rfl⟩ := Prod.mk.inj (Option.some.inj hsome)
          obtain ⟨ctx, hctx⟩ := ht.find
          have hseen₁ := SnKcp.findCtx_modify hctx
            (f := fun ctx => { ctx with lastSeen := d.now }) fun _ => rfl
          exact ⟨_, SnKcp.findCtx_modify hseen₁
            (f := fun ctx => { ctx with toEdgeKcpCtx := ctx.withState _ }) fun _ => rfl⟩

/-! ### A datagram in the loop of the supernode -/

/-- The loop of `run_sn_loop` for a session ends, the messages of the session have been handed over
in their order, or discarded with the session, and none is left in it. -/
def Drains (lib : KcpLibrary κ) (messages : κ → List (List UInt8))
    (sends : SnKcpRx κ → List UInt8 → List SnKcpSend) (s : SnKcpRx κ) (d : SnDatagram) : Prop :=
  ∀ s₁ rc channel p, s.accept lib d = (s₁, rc, some (channel, p)) →
    (∃ passes, (s.handle lib sends passes d).isSome) ∧
      ∀ passes s' handed, s.handle lib sends passes d = some (s', handed) →
        handed <+: messages (s₁.obj channel p) ∧ s'.queue messages d.remote channel = []

/-- The loop after a datagram for a session. -/
theorem handle_eq {s s₁ : SnKcpRx κ} {d : SnDatagram} {rc : ℤ} {channel : KcpChannel} {p : ℕ}
    {ctx : SnKcpCtx} (sends : SnKcpRx κ → List UInt8 → List SnKcpSend)
    (h : s.accept lib d = (s₁, rc, some (channel, p)))
    (hfind : s₁.kcp.findCtx d.remote channel = some (p, ctx)) (passes : ℕ) :
    s.handle lib sends passes d =
      loop (receiveStep (processUdp lib sends)
        (SnKcpRx.recvPending lib snPktbufSize d.remote channel)) passes
         ⟨(SnKcpRx.recvPending lib snPktbufSize d.remote channel s₁).1,
          (SnKcpRx.recvPending lib snPktbufSize d.remote channel s₁).2.2, []⟩ := by
  have hrecv : SnKcpRx.recvPending lib snPktbufSize d.remote channel s₁ =
      s₁.recvFrom lib snPktbufSize channel p ctx := by
    unfold SnKcpRx.recvPending
    rw [hfind]
  unfold SnKcpRx.handle
  rw [h]
  dsimp only
  rw [(SnKcp.findCtx_eq_some hfind).1, hrecv]

/-- **A datagram whose messages all fit**: the queue of its session is empty after the loop. -/
theorem Fitting.handle (hlib : lib.Queues messages)
    (sends : SnKcpRx κ → List UInt8 → List SnKcpSend) {s : SnKcpRx κ} (h : Fitting messages s)
    (d : SnDatagram)
    (hnew : ∀ m ∈ s.completes lib messages d, Fits snPktbufSize m) :
    Drains lib messages sends s d ∧
      ∀ passes s' handed, s.handle lib sends passes d = some (s', handed) →
        Fitting messages s' := by
  obtain ⟨hfit₁, hfind₁⟩ := h.accept hlib d hnew
  have hudp : ∀ (s : SnKcpRx κ) m, Fitting messages s →
      Fitting messages (processUdp lib sends s m) :=
    fun s m hs => (keeps_processUdp hlib sends hs.ok m).fitting hs
  cases haccept : s.accept lib d with
  | mk s₁ r =>
    obtain ⟨rc, found⟩ := r
    rw [haccept] at hfit₁ hfind₁
    cases found with
    | none =>
      refine ⟨fun s₂ rc₂ channel p heq => ?_, fun passes s' handed hrun => ?_⟩
      · rw [haccept] at heq
        cases heq
      · unfold SnKcpRx.handle at hrun
        rw [haccept] at hrun
        dsimp only at hrun
        split_ifs at hrun
        · obtain ⟨rfl, -⟩ := Prod.mk.inj (Option.some.inj hrun)
          exact hfit₁
        · obtain ⟨rfl, -⟩ := Prod.mk.inj (Option.some.inj hrun)
          exact hudp s₁ d.buf hfit₁
    | some found =>
      obtain ⟨channel, p⟩ := found
      obtain ⟨ctx, hfind⟩ := hfind₁ channel p rfl
      have heq := handle_eq sends haccept hfind
      have hqueue : s₁.queue messages d.remote channel = messages (s₁.obj channel p) := by
        rw [SnKcpRx.queue, hfind]
      obtain ⟨s', handed, hends, hfit', hdrained⟩ := receive_ends
        (pending hlib (fun s hs => Fitting.toGood hs) snPktbufSize d.remote channel
          fun s hs => hs.recvPending hlib d.remote channel)
        (handled hlib (fun s hs => Fitting.toGood hs) sends d.remote channel hudp)
        id ⟨fun _ _ hs => hs, fun _ _ _ => Or.inl rfl⟩ hfit₁
      -- whatever the bound on the passes, this is the result
      have hunique : ∀ passes s₂ handed₂, s.handle lib sends passes d = some (s₂, handed₂) →
          s₂ = s' ∧ handed₂ = handed := by
        intro passes s₂ handed₂ hrun
        rw [heq] at hrun
        exact Prod.mk.inj (Ends.unique ⟨passes, hrun⟩ hends)
      refine ⟨fun s₂ rc₂ channel₂ p₂ heq₂ => ?_, fun passes s₂ handed₂ hrun => ?_⟩
      · rw [haccept] at heq₂
        obtain ⟨rfl, hr⟩ := Prod.mk.inj heq₂
        obtain ⟨-, hfound⟩ := Prod.mk.inj hr
        obtain ⟨rfl, rfl⟩ := Prod.mk.inj (Option.some.inj hfound)
        obtain ⟨passes, hpasses⟩ := hends
        have hrun := (heq passes).trans hpasses
        refine ⟨⟨passes, by rw [hrun]; rfl⟩, fun passes s₂ handed₂ hrun => ?_⟩
        obtain ⟨rfl, rfl⟩ := hunique passes s₂ handed₂ hrun
        rw [← hqueue]
        refine hdrained.all ?_
        rw [hqueue]
        exact hfit₁.fit channel p ctx (SnKcp.findCtx_eq_some hfind).1
      · obtain ⟨rfl, rfl⟩ := hunique passes s₂ handed₂ hrun
        exact hfit'

end SnKcpRx

/-! ### Runs of the supernode -/

/-- What happens to the sessions of a supernode. -/
inductive SnKcpRxEvent where
  /-- a datagram on the UDP socket, and a bound on the passes of the loop that receives -/
  | datagram (d : SnDatagram) (passes : ℕ)
  | send (x : SnKcpSend)
  | update (now : ℤ) (nowMs : UInt32)

section

variable {κ : Type} (lib : KcpLibrary κ) (messages : κ → List (List UInt8))
  (sends : SnKcpRx κ → List UInt8 → List SnKcpSend)

/-- An event happens. -/
def SnKcpRxEvent.apply (s : SnKcpRx κ) : SnKcpRxEvent → SnKcpRx κ
  | datagram d passes => ((s.handle lib sends passes d).map Prod.fst).getD s
  | send x => s.send lib x
  | update now nowMs => s.update lib now nowMs

/-- The bound on the passes is high enough. -/
def SnKcpRxEvent.Enabled (s : SnKcpRx κ) : SnKcpRxEvent → Prop
  | datagram d passes => (s.handle lib sends passes d).isSome
  | _ => True

/-- The messages that the event completes fit into the buffer. -/
def SnKcpRxEvent.Fitting (s : SnKcpRx κ) : SnKcpRxEvent → Prop
  | datagram d _ => ∀ m ∈ s.completes lib messages d, Fits snPktbufSize m
  | _ => True

/-- The runs of a supernode, from empty tables. -/
def snKcpRxMachine : Machine (SnKcpRx κ) SnKcpRxEvent :=
  ⟨fun s => s.kcp.ctrl = Table.empty ∧ s.kcp.data = Table.empty, SnKcpRxEvent.Enabled lib sends,
    SnKcpRxEvent.apply lib sends⟩

variable {lib messages}

theorem SnKcpRx.Fitting.initial {s : SnKcpRx κ} (hctrl : s.kcp.ctrl = Table.empty)
    (hdata : s.kcp.data = Table.empty) : s.Fitting messages := by
  have hnone : ∀ channel p, (s.kcp.table channel).get? p = none := by
    intro channel p
    cases channel with
    | ctrl =>
      rw [show s.kcp.table .ctrl = Table.empty from hctrl]
      rfl
    | data =>
      rw [show s.kcp.table .data = Table.empty from hdata]
      rfl
  refine ⟨⟨.initial hctrl hdata, ?_⟩, ?_⟩
  all_goals
    intro channel p ctx hget
    rw [hnone] at hget
    cases hget

theorem SnKcpRx.Fitting.apply (hlib : lib.Queues messages) {s : SnKcpRx κ} (h : s.Fitting messages)
    (ev : SnKcpRxEvent) (hfits : ev.Fitting lib messages s) :
    (ev.apply lib sends s).Fitting messages := by
  cases ev with
  | datagram d passes =>
    show (((s.handle lib sends passes d).map Prod.fst).getD s).Fitting messages
    cases hrun : s.handle lib sends passes d with
    | none => exact h
    | some r => exact (h.handle hlib sends d hfits).2 passes r.1 r.2 hrun
  | send x => exact (SnKcpRx.keeps_send hlib h.ok x).fitting h
  | update now nowMs => exact (SnKcpRx.keeps_update hlib h.ok now nowMs).fitting h

/-- **In every run in which all messages fit** the next datagram whose messages fit leaves no
message in the queue of its session. -/
theorem SnKcpRx.drains (hlib : lib.Queues messages) {s : SnKcpRx κ}
    (h : (snKcpRxMachine lib sends).Reach (fun s ev => ev.Fitting lib messages s) s)
    (d : SnDatagram) (hfits : ∀ m ∈ s.completes lib messages d, Fits snPktbufSize m) :
    s.Drains lib messages sends d := by
  have hs : s.Fitting messages :=
    h.invariant (fun _ hinit => .initial hinit.1 hinit.2)
      fun _ ev hs _ hcond => hs.apply sends hlib ev hcond
  exact (hs.handle hlib sends d hfits).1

end

end N2n
