import N2nTun.ControlMessages
import N2nTun.NeighborCache
import N2nTun.WirePrimitives
import N2nTun.Lib.Mailbox

/-!
# Reading from and writing to the wintun device

The adapter takes and gives IP packets, the program Ethernet frames.  What is written is stripped of
its header; ARP requests for the device are answered by the device itself, with a reply that the
next read returns.  There is room for one reply.

Writing and reading threads meet in critical sections.  A write enters one that matters, for the
reply or for the neighbour cache; a read one for the reply, and if there was none, one for the
neighbour cache.

## Main definitions

* `WintunContext` — the device.
* `wintunWrite`, `wintunRead` — the two routines, the second one with its two sections.
* `WintunState`, `WintunEvent`, `wintunStep` — any number of threads that write and read.
* `ArpServed` — what is to hold of the replies.
* `StepOk` — a request finds no reply waiting, and a reply is read into a buffer that is long enough.

## Main results

* `arpReplyTo_addressed` — whom a reply is for.
* `wintunStep_mailbox` — the reply is kept in a mailbox with one slot.
* `arpServed_iff` — **every request is answered once exactly if all steps are so.**
-/

namespace N2n

open Bytes

/-! ### The device -/

/-- `N2N_ETH_HDR_SIZE`. -/
def ethHdrSize : ℕ := 14

/-- `ARP_PKT_SIZE`. -/
def arpPktSize : ℕ := ethHdrSize + 8 + 6 * 2 + 4 * 2

/-- `N2N_ETHERTYPE_IPV4`. -/
def ethertypeIpv4 : UInt16 := 0x0800

/-- `N2N_ETHERTYPE_IPV6`. -/
def ethertypeIpv6 : UInt16 := 0x86DD

/-- `N2N_ETHERTYPE_ARP`. -/
def ethertypeArp : UInt16 := 0x0806

/-- `ARP_OP_REQUEST`. -/
def arpOpRequest : UInt16 := 1

/-- `ARP_OP_REPLY`. -/
def arpOpReply : UInt8 := 2

/-- `N2N_WINTUN_CONTEXT`: whether there is a session, the addresses, the MTU, the ARP reply with its
length, and the neighbour cache. -/
structure WintunContext where
  session : Bool
  macAddr : Mac
  ipAddr : UInt32
  mtu : UInt32
  arpReply : List UInt8
  arpReplyLen : ℕ
  neighborCache : NeighborCache

/-! ### Writing -/

/-- What `WintunAllocateSendPacket` gives: a packet, or an error, `ERROR_BUFFER_OVERFLOW` or
another. -/
inductive SendPacket where
  | allocated
  | bufferOverflow
  | failed

/-- The frame that `wintun_write` builds in answer to an ARP request. -/
def arpReplyTo (ctx : WintunContext) (buf : List UInt8) : List UInt8 :=
  let arp := buf.drop ethHdrSize
  slice buf 6 6 ++ ctx.macAddr.toList ++ bytes16 ethertypeArp ++
    ([0x00, 0x01] ++ [0x08, 0x00] ++ [6] ++ [4] ++ [0x00, arpOpReply] ++ ctx.macAddr.toList ++
      leBytes32 ctx.ipAddr ++ slice arp 8 6 ++ slice arp 14 4)

/-- What a write leaves: what it returns, the device, and the packet for the adapter. -/
structure Written where
  ret : ℤ
  ctx : WintunContext
  sent : Option (List UInt8)

/-- The reply is kept for the next read. -/
def WintunContext.cacheReply (ctx : WintunContext) (reply : List UInt8) : WintunContext :=
  { ctx with arpReply := overwrite ctx.arpReply 0 reply, arpReplyLen := arpPktSize }

/-- `wintun_write`. -/
def wintunWrite (ctx : WintunContext) (buf : List UInt8) (alloc : SendPacket) : Written :=
  if ctx.session = false then ⟨-1, ctx, none⟩
  else if buf.length ≤ ethHdrSize then ⟨-1, ctx, none⟩
  else
    let ethertype := be16At buf 12
    if ethertype = ethertypeArp then
      if arpPktSize ≤ buf.length then
        let arp := buf.drop ethHdrSize
        let arpOper := be16At arp 6
        let targetIp := le32At arp 24
        if arpOper = arpOpRequest ∧ targetIp = ctx.ipAddr then
          ⟨buf.length, ctx.cacheReply (arpReplyTo ctx buf), none⟩
        else ⟨buf.length, ctx, none⟩
      else ⟨buf.length, ctx, none⟩
    else if ethertype ≠ ethertypeIpv4 ∧ ethertype ≠ ethertypeIpv6 then ⟨buf.length, ctx, none⟩
    else
      let ipData := buf.drop ethHdrSize
      let ctx :=
        if ethertype = ethertypeIpv4 then
          { ctx with
            neighborCache := neighborLearn ctx.ipAddr ctx.neighborCache (sliceVec buf 6 6) ipData }
        else ctx
      match alloc with
      | .allocated => ⟨buf.length, ctx, some ipData⟩
      | .bufferOverflow => ⟨0, ctx, none⟩
      | .failed => ⟨-1, ctx, none⟩

/-! ### Reading -/

/-- What a read leaves: what it returns, what it has copied to the start of the buffer, and the
control message for the adapter. -/
structure ReadResult where
  ret : ℤ
  copied : List UInt8
  injected : Option (List UInt8)

/-- What happens in a read outside of the device: what `WintunReceivePacket` gives first, the last
error, whether the event is signalled, what it gives then, and what `n2n_rand` gives. -/
structure ReadDriver where
  first : Option (List UInt8)
  error : UInt32
  signalled : Bool
  second : Option (List UInt8)
  rand : UInt64

/-- `ERROR_NO_MORE_ITEMS`. -/
def errorNoMoreItems : UInt32 := 259

/-- `build_eth_frame_for_ip`: the frame, or `none` where it returns `-1`. -/
def buildEthFrameForIp (ctx : WintunContext) (ethertype : UInt16) (ipPkt : List UInt8)
    (frameBufSize : ℕ) : Option (List UInt8) :=
  if frameBufSize < ethHdrSize + ipPkt.length then none
  else
    let broadcast : Mac := List.Vector.replicate 6 0xFF
    let dst :=
      if ethertype = ethertypeIpv4 ∧ 20 ≤ ipPkt.length then
        (neighborLookup ctx.neighborCache (le32At ipPkt 16)).getD broadcast
      else broadcast
    some (dst.toList ++ ctx.macAddr.toList ++ bytes16 ethertype ++ ipPkt)

/-- The part of `process_wintun_received_packet` behind the version: a packet that is too large for
the buffer gets a control message instead of a frame. -/
def processIpPacket (ctx : WintunContext) (rand : UInt64) (ethertype : UInt16)
    (packet : List UInt8) (len : ℤ) : ReadResult :=
  let totalLen := ethHdrSize + intOfSize packet.length
  if len < totalLen then ⟨0, [], handleOversizedIpPacket ctx.mtu rand packet⟩
  else
    match buildEthFrameForIp ctx ethertype packet len.toNat with
    | some frame =>
      if (frame.length : ℤ) = totalLen then ⟨totalLen, frame, none⟩ else ⟨0, frame, none⟩
    | none => if -1 = totalLen then ⟨totalLen, [], none⟩ else ⟨0, [], none⟩

/-- `process_wintun_received_packet`. -/
def processWintunReceivedPacket (ctx : WintunContext) (rand : UInt64) (packet : List UInt8)
    (len : ℤ) : ReadResult :=
  if packet.getD 0 0 >>> 4 = 4 then processIpPacket ctx rand ethertypeIpv4 packet len
  else if packet.getD 0 0 >>> 4 = 6 then processIpPacket ctx rand ethertypeIpv6 packet len
  else ⟨0, [], none⟩

/-- The first part of `wintun_read`, up to the end of the first critical section: the device, and
what is returned unless the read goes on. -/
def wintunReadArp (ctx : WintunContext) (len : ℤ) : WintunContext × Option ReadResult :=
  if ctx.session = false then (ctx, some ⟨-1, [], none⟩)
  else if len < ethHdrSize + 1 then (ctx, some ⟨-1, [], none⟩)
  else if 0 < ctx.arpReplyLen then
    let replyLen := ctx.arpReplyLen
    let copied := if (replyLen : ℤ) ≤ len then ctx.arpReply.take replyLen else []
    ({ ctx with arpReplyLen := 0 }, some ⟨replyLen, copied, none⟩)
  else (ctx, none)

/-- The rest of `wintun_read`. -/
def wintunReadPacket (ctx : WintunContext) (len : ℤ) (driver : ReadDriver) : ReadResult :=
  match driver.first with
  | some (b :: packet) => processWintunReceivedPacket ctx driver.rand (b :: packet) len
  | _ =>
    if driver.error = errorNoMoreItems ∨ driver.error = 0 then
      match driver.signalled, driver.second with
      | true, some (b :: packet) => processWintunReceivedPacket ctx driver.rand (b :: packet) len
      | _, _ => ⟨0, [], none⟩
    else ⟨-1, [], none⟩

/-- `wintun_read`, when no other thread comes in between. -/
def wintunRead (ctx : WintunContext) (len : ℤ) (driver : ReadDriver) : WintunContext × ReadResult :=
  match wintunReadArp ctx len with
  | (ctx, some result) => (ctx, result)
  | (ctx, none) => (ctx, wintunReadPacket ctx len driver)

/-! ### Threads -/

/-- A device and the reads that are between their two critical sections, each with the length of its
buffer. -/
structure WintunState where
  ctx : WintunContext
  waiting : ℕ → Option ℤ

/-- A write, and the two parts of a read by a thread. -/
inductive WintunEvent where
  | write (buf : List UInt8) (alloc : SendPacket)
  | readBegin (thread : ℕ) (len : ℤ)
  | readEnd (thread : ℕ) (driver : ReadDriver)

/-- What happens, and what a read that ends returns.  A thread that is in a read does not begin
another. -/
def wintunStep (s : WintunState) : WintunEvent → WintunState × Option ReadResult
  | .write buf alloc => ({ s with ctx := (wintunWrite s.ctx buf alloc).ctx }, none)
  | .readBegin thread len =>
    match s.waiting thread with
    | some _ => (s, none)
    | none =>
      match wintunReadArp s.ctx len with
      | (ctx, some result) => ({ s with ctx := ctx }, some result)
      | (ctx, none) => (⟨ctx, Function.update s.waiting thread (some len)⟩, none)
  | .readEnd thread driver =>
    match s.waiting thread with
    | none => (s, none)
    | some len =>
      ({ s with waiting := Function.update s.waiting thread none },
        some (wintunReadPacket s.ctx len driver))

/-- The state after events. -/
def wintunRun (s : WintunState) (events : List WintunEvent) : WintunState :=
  events.foldl (fun s e => (wintunStep s e).1) s

/-- What the reads return. -/
def readResults : WintunState → List WintunEvent → List ReadResult
  | _, [] => []
  | s, e :: events => (wintunStep s e).2.toList ++ readResults (wintunStep s e).1 events

/-- A read between whose sections nothing happens is `wintun_read`. -/
theorem readResults_read (s : WintunState) {thread : ℕ} (hidle : s.waiting thread = none) (len : ℤ)
    (driver : ReadDriver) :
    readResults s [.readBegin thread len, .readEnd thread driver] =
      [(wintunRead s.ctx len driver).2] := by
  simp only [readResults, wintunStep, wintunRead, hidle]
  cases harp : wintunReadArp s.ctx len with
  | mk ctx result => cases result <;> simp [hidle]

/-- The device as `wintun_open` leaves it. -/
def openedWintun (macAddr : Mac) (ipAddr mtu : UInt32) (arpReply : List UInt8)
    (entries : Fin neighborCacheSize → Neighbor) : WintunState :=
  ⟨⟨true, macAddr, ipAddr, mtu, arpReply, 0, .empty entries⟩, fun _ => none⟩

/-! ### What is to hold -/

/-- A frame is an ARP request for an address. -/
def IsArpRequest (ipAddr : UInt32) (buf : List UInt8) : Prop :=
  arpPktSize ≤ buf.length ∧ be16At buf 12 = ethertypeArp ∧ be16At buf 20 = arpOpRequest ∧
    le32At buf 38 = ipAddr

instance (ipAddr : UInt32) (buf : List UInt8) : Decidable (IsArpRequest ipAddr buf) :=
  inferInstanceAs (Decidable (_ ∧ _))

/-- The replies that are due for what is written. -/
def dueReplies (ctx : WintunContext) (events : List WintunEvent) : List (List UInt8) :=
  events.flatMap fun
    | .write buf _ => if IsArpRequest ctx.ipAddr buf then [arpReplyTo ctx buf] else []
    | _ => []

/-- The ARP frames among what has been read. -/
def arpFrames (results : List ReadResult) : List (List UInt8) :=
  (results.map ReadResult.copied).filter fun frame => be16At frame 12 = ethertypeArp

/-- Reads of one thread, one after the other. -/
def readsBy (thread : ℕ) (reads : List (ℤ × ReadDriver)) : List WintunEvent :=
  reads.flatMap fun r => [.readBegin thread r.1, .readEnd thread r.2]

/-- What is to hold of the events so far: each ARP frame that was read is the reply to another
request before it; with enough reads, every request gets its reply; and no read returns another
length than that of what it has copied. -/
structure ArpServed (s : WintunState) (events : List WintunEvent) : Prop where
  sound : ∀ before, before <+: events →
    (arpFrames (readResults s before)).Subperm (dueReplies s.ctx before)
  complete : ∃ n, ∀ thread reads, (wintunRun s events).waiting thread = none →
    (∀ r ∈ reads, (arpPktSize : ℤ) ≤ r.1) → n ≤ reads.length →
    (arpFrames (readResults s (events ++ readsBy thread reads))).Perm (dueReplies s.ctx events)
  copied : ∀ r ∈ readResults s events, 0 < r.ret → (r.copied.length : ℤ) = r.ret

/-- A request finds no reply waiting, and a read that gets a reply has a buffer that is long enough
for it, unless it is refused at once. -/
def StepOk (s : WintunState) : WintunEvent → Prop
  | .write buf _ => IsArpRequest s.ctx.ipAddr buf → s.ctx.arpReplyLen = 0
  | .readBegin thread len =>
    s.waiting thread = none → 0 < s.ctx.arpReplyLen → (ethHdrSize : ℤ) < len → (arpPktSize : ℤ) ≤ len
  | .readEnd _ _ => True

/-- All steps are so. -/
def StepsOk : WintunState → List WintunEvent → Prop
  | _, [] => True
  | s, e :: events => StepOk s e ∧ StepsOk (wintunStep s e).1 events

/-! ### What the routines do -/

theorem length_arpReplyTo (ctx : WintunContext) (buf : List UInt8) :
    (arpReplyTo ctx buf).length = arpPktSize := by
  simp [arpReplyTo, leBytes32, arpPktSize, ethHdrSize]

/-- A reply goes to the sender of the request: the frame has its source as the destination, and the
ARP message its two addresses as the target. -/
theorem arpReplyTo_addressed (ctx : WintunContext) (buf : List UInt8) :
    slice (arpReplyTo ctx buf) 0 6 = slice buf 6 6 ∧
      be16At (arpReplyTo ctx buf) 12 = ethertypeArp ∧
      slice (arpReplyTo ctx buf) 32 6 = slice buf 22 6 ∧
      slice (arpReplyTo ctx buf) 38 4 = slice buf 28 4 := by
  have hmac : ctx.macAddr.toList.length = 6 := ctx.macAddr.toList_length
  have hlen : ∀ v, (leBytes32 v).length = 4 := fun v => List.length_reverse.trans (length_bytes32 v)
  have hsource := fun z => slice_middle (z := z) (x := []) (y := slice buf 6 6) (i := 0) rfl
    (length_slice buf 6 6)
  have hmacAt := slice_middle (x := slice buf 6 6 ++ ctx.macAddr.toList ++ bytes16 ethertypeArp ++
    ([0x00, 0x01] ++ [0x08, 0x00] ++ [6] ++ [4] ++ [0x00, arpOpReply] ++ ctx.macAddr.toList ++
      leBytes32 ctx.ipAddr)) (z := slice (buf.drop ethHdrSize) 14 4) (i := 32)
    (by simp [hmac, hlen]) (length_slice (buf.drop ethHdrSize) 8 6)
  have hipAt := slice_middle (x := slice buf 6 6 ++ ctx.macAddr.toList ++ bytes16 ethertypeArp ++
    ([0x00, 0x01] ++ [0x08, 0x00] ++ [6] ++ [4] ++ [0x00, arpOpReply] ++ ctx.macAddr.toList ++
      leBytes32 ctx.ipAddr ++ slice (buf.drop ethHdrSize) 8 6)) (z := []) (i := 38)
    (by simp [hmac, hlen]) (length_slice (buf.drop ethHdrSize) 14 4)
  have htype := be16At_append (slice buf 6 6 ++ ctx.macAddr.toList)
    (bytes16 ethertypeArp ++ ([0x00, 0x01] ++ [0x08, 0x00] ++ [6] ++ [4] ++ [0x00, arpOpReply] ++
      ctx.macAddr.toList ++ leBytes32 ctx.ipAddr ++ slice (buf.drop ethHdrSize) 8 6 ++
      slice (buf.drop ethHdrSize) 14 4)) 0
  rw [be16At_bytes16] at htype
  simp only [arpReplyTo]
  simp only [List.append_assoc, List.append_nil, List.nil_append, List.length_append, length_slice,
    hmac, slice_drop] at hsource hmacAt hipAt htype ⊢
  exact ⟨hsource _, htype, hmacAt, hipAt⟩

theorem be16At_drop (base : List UInt8) (j k : ℕ) :
    be16At (base.drop j) k = be16At base (j + k) := by
  simp [be16At, List.getElem?_drop, Nat.add_assoc]

theorem le32At_drop (base : List UInt8) (j k : ℕ) :
    le32At (base.drop j) k = le32At base (j + k) := by
  simp [le32At, List.getElem?_drop, Nat.add_assoc]

theorem take_cacheReply (ctx : WintunContext) {reply : List UInt8}
    (h : reply.length = arpPktSize) :
    (ctx.cacheReply reply).arpReply.take (ctx.cacheReply reply).arpReplyLen = reply := by
  show (([] ++ reply) ++ ctx.arpReply.drop (0 + reply.length)).take arpPktSize = reply
  rw [List.nil_append, List.take_left' h]

/-- A request leaves its reply. -/
theorem wintunWrite_request {ctx : WintunContext} {buf : List UInt8} (hsession : ctx.session = true)
    (h : IsArpRequest ctx.ipAddr buf) (alloc : SendPacket) :
    (wintunWrite ctx buf alloc).ctx = ctx.cacheReply (arpReplyTo ctx buf) := by
  obtain ⟨hlen, htype, hoper, htarget⟩ := h
  have hlong : ¬ buf.length ≤ ethHdrSize := by
    have : ethHdrSize < arpPktSize := by decide
    omega
  have harp : be16At (buf.drop ethHdrSize) 6 = arpOpRequest := (be16At_drop _ _ _).trans hoper
  have hip : le32At (buf.drop ethHdrSize) 24 = ctx.ipAddr := (le32At_drop _ _ _).trans htarget
  simp only [wintunWrite, hsession, if_neg hlong, if_pos htype, if_pos hlen, harp, hip, and_self,
    if_true, Bool.true_eq_false, if_false]

/-- Anything else changes the neighbour cache at most. -/
theorem wintunWrite_other {ctx : WintunContext} {buf : List UInt8}
    (h : ¬ IsArpRequest ctx.ipAddr buf) (alloc : SendPacket) :
    ∃ cache, (wintunWrite ctx buf alloc).ctx = { ctx with neighborCache := cache } := by
  have hkeep : ∃ cache, ctx = { ctx with neighborCache := cache } := ⟨ctx.neighborCache, rfl⟩
  simp only [wintunWrite]
  split_ifs with hsession hshort htype hlen hrequest hother hipv4
  · exact hkeep
  · exact hkeep
  · rw [be16At_drop, le32At_drop] at hrequest
    exact absurd ⟨hlen, htype, hrequest.1, hrequest.2⟩ h
  · exact hkeep
  · exact hkeep
  · exact hkeep
  · cases alloc <;> exact ⟨_, rfl⟩
  · cases alloc <;> exact hkeep

/-- A read returns a length only if it has copied as much. -/
def ReadResult.Exact (r : ReadResult) : Prop := 0 < r.ret → (r.copied.length : ℤ) = r.ret

/-- The ethertype of what a read has copied is not the one of ARP. -/
def ReadResult.NotArp (r : ReadResult) : Prop := be16At r.copied 12 ≠ ethertypeArp

theorem ReadResult.exact_nothing {ret : ℤ} (h : ret ≤ 0) (injected : Option (List UInt8)) :
    (⟨ret, [], injected⟩ : ReadResult).Exact ∧ (⟨ret, [], injected⟩ : ReadResult).NotArp :=
  ⟨fun hpos => absurd hpos (not_lt.mpr h), show be16At [] 12 ≠ ethertypeArp by decide⟩

theorem be16At_buildEthFrame {ctx : WintunContext} {ethertype : UInt16} {ipPkt frame : List UInt8}
    {frameBufSize : ℕ} (h : buildEthFrameForIp ctx ethertype ipPkt frameBufSize = some frame) :
    be16At frame 12 = ethertype := by
  have hframe : ∀ dst : Mac,
      be16At (dst.toList ++ ctx.macAddr.toList ++ bytes16 ethertype ++ ipPkt) 12 = ethertype := by
    intro dst
    have hread := be16At_append (dst.toList ++ ctx.macAddr.toList) (bytes16 ethertype ++ ipPkt) 0
    rw [List.length_append, dst.toList_length, ctx.macAddr.toList_length, be16At_bytes16,
      ← List.append_assoc] at hread
    exact hread
  rw [buildEthFrameForIp] at h
  by_cases hlong : frameBufSize < ethHdrSize + ipPkt.length
  · rw [if_pos hlong] at h
    cases h
  · rw [if_neg hlong] at h
    exact Option.some.inj h ▸ hframe _

theorem processIpPacket_exact (ctx : WintunContext) (rand : UInt64) {ethertype : UInt16}
    (htype : ethertype ≠ ethertypeArp) (packet : List UInt8) (len : ℤ) :
    (processIpPacket ctx rand ethertype packet len).Exact ∧
      (processIpPacket ctx rand ethertype packet len).NotArp := by
  simp only [processIpPacket]
  by_cases hlong : len < ethHdrSize + intOfSize packet.length
  · rw [if_pos hlong]
    exact ReadResult.exact_nothing le_rfl _
  · rw [if_neg hlong]
    cases hframe : buildEthFrameForIp ctx ethertype packet len.toNat with
    | some frame =>
      have harp : be16At frame 12 ≠ ethertypeArp := (be16At_buildEthFrame hframe).symm ▸ htype
      dsimp only
      split_ifs with hlen
      · exact ⟨fun _ => hlen, harp⟩
      · exact ⟨fun hpos => absurd hpos (lt_irrefl 0), harp⟩
    | none =>
      dsimp only
      split_ifs with hminus
      · exact ReadResult.exact_nothing (hminus ▸ by decide) _
      · exact ReadResult.exact_nothing le_rfl _

theorem processWintunReceivedPacket_exact (ctx : WintunContext) (rand : UInt64)
    (packet : List UInt8) (len : ℤ) :
    (processWintunReceivedPacket ctx rand packet len).Exact ∧
      (processWintunReceivedPacket ctx rand packet len).NotArp := by
  unfold processWintunReceivedPacket
  split_ifs
  · exact processIpPacket_exact ctx rand (by decide) packet len
  · exact processIpPacket_exact ctx rand (by decide) packet len
  · exact ReadResult.exact_nothing le_rfl _

/-- What is read from the adapter is copied as far as it is reported, and is not an ARP frame. -/
theorem wintunReadPacket_exact (ctx : WintunContext) (len : ℤ) (driver : ReadDriver) :
    (wintunReadPacket ctx len driver).Exact ∧ (wintunReadPacket ctx len driver).NotArp := by
  unfold wintunReadPacket
  split
  · exact processWintunReceivedPacket_exact _ _ _ _
  · split_ifs
    · split
      · exact processWintunReceivedPacket_exact _ _ _ _
      · exact ReadResult.exact_nothing le_rfl _
    · exact ReadResult.exact_nothing (by decide) _

/-! ### The mailbox -/

namespace WintunState

/-- What is kept between the steps: the session, the addresses, and that what waits is a reply. -/
structure Wf (c : WintunContext) (s : WintunState) : Prop where
  session : s.ctx.session = true
  macAddr : s.ctx.macAddr = c.macAddr
  ipAddr : s.ctx.ipAddr = c.ipAddr
  reply : s.ctx.arpReplyLen = 0 ∨ s.ctx.arpReplyLen = arpPktSize ∧
    ∃ buf, s.ctx.arpReply.take arpPktSize = arpReplyTo c buf

/-- The reply that waits. -/
def slot (s : WintunState) : Option (List UInt8) :=
  if 0 < s.ctx.arpReplyLen then some (s.ctx.arpReply.take s.ctx.arpReplyLen) else none

/-- What an event does to the slot. -/
def mailboxOps (s : WintunState) : WintunEvent → List (Mailbox.Op (List UInt8))
  | .write buf _ =>
    if IsArpRequest s.ctx.ipAddr buf then [.put (arpReplyTo s.ctx buf)] else []
  | .readBegin thread len =>
    if s.waiting thread = none ∧ (ethHdrSize : ℤ) < len then [.take] else []
  | .readEnd _ _ => []

end WintunState

/-- A read gets no reply, or one that its buffer is long enough for. -/
def ReadOk (s : WintunState) : WintunEvent → Prop
  | .readBegin thread len =>
    s.waiting thread = none → 0 < s.ctx.arpReplyLen → (ethHdrSize : ℤ) < len → (arpPktSize : ℤ) ≤ len
  | _ => True

open WintunState

theorem arpReplyTo_congr {c c' : WintunContext} (hmac : c.macAddr = c'.macAddr)
    (hip : c.ipAddr = c'.ipAddr) (buf : List UInt8) : arpReplyTo c buf = arpReplyTo c' buf := by
  rw [arpReplyTo, arpReplyTo, hmac, hip]

variable {c : WintunContext} {s : WintunState}

/-- A step of a write. -/
theorem write_mailbox (h : s.Wf c) (buf : List UInt8) (alloc : SendPacket) :
    (wintunStep s (.write buf alloc)).1.Wf c ∧
      (wintunStep s (.write buf alloc)).1.slot =
        Mailbox.run s.slot (s.mailboxOps (.write buf alloc)) := by
  by_cases hrequest : IsArpRequest s.ctx.ipAddr buf
  · have hctx := wintunWrite_request h.session hrequest alloc
    have htake := take_cacheReply s.ctx (length_arpReplyTo s.ctx buf)
    simp only [mailboxOps, if_pos hrequest, wintunStep, hctx]
    refine ⟨⟨h.session, h.macAddr, h.ipAddr, .inr ⟨rfl, buf, ?_⟩⟩, ?_⟩
    · exact htake.trans (arpReplyTo_congr h.macAddr h.ipAddr buf)
    · exact (if_pos (show 0 < arpPktSize by decide)).trans (congrArg some htake)
  · obtain ⟨cache, hctx⟩ := wintunWrite_other hrequest alloc
    simp only [mailboxOps, if_neg hrequest, wintunStep, hctx]
    exact ⟨⟨h.session, h.macAddr, h.ipAddr, h.reply⟩, rfl⟩

/-- An ARP frame is read once. -/
theorem arpFrames_reply {frame : List UInt8} (h : be16At frame 12 = ethertypeArp) (ret : ℤ) :
    arpFrames [⟨ret, frame, none⟩] = [frame] := by
  simp [arpFrames, h]

theorem arpFrames_notArp {r : ReadResult} (h : r.NotArp) : arpFrames [r] = [] := by
  have hne : ¬ be16At r.copied 12 = ethertypeArp := h
  simp [arpFrames, hne]

/-- What the first part of a read does, in an open device. -/
theorem wintunReadArp_eq (h : s.Wf c) {len : ℤ} (hlen : (ethHdrSize : ℤ) < len) :
    wintunReadArp s.ctx len =
      if 0 < s.ctx.arpReplyLen then
        ({ s.ctx with arpReplyLen := 0 }, some ⟨s.ctx.arpReplyLen,
          if (s.ctx.arpReplyLen : ℤ) ≤ len then s.ctx.arpReply.take s.ctx.arpReplyLen else [], none⟩)
      else (s.ctx, none) := by
  have hroom : ¬ len < ethHdrSize + 1 := by omega
  simp only [wintunReadArp, h.session, if_neg hroom, Bool.true_eq_false, if_false]

/-- A step that begins a read. -/
theorem readBegin_mailbox (h : s.Wf c) (thread : ℕ) (len : ℤ) :
    (wintunStep s (.readBegin thread len)).1.Wf c ∧
      (wintunStep s (.readBegin thread len)).1.slot =
        Mailbox.run s.slot (s.mailboxOps (.readBegin thread len)) ∧
      (ReadOk s (.readBegin thread len) ↔
        ∀ r ∈ (wintunStep s (.readBegin thread len)).2, r.Exact) ∧
      (ReadOk s (.readBegin thread len) →
        arpFrames (wintunStep s (.readBegin thread len)).2.toList =
          Mailbox.taken s.slot (s.mailboxOps (.readBegin thread len))) := by
  cases hwaiting : s.waiting thread with
  | some busy =>
    -- the thread is in a read already
    have hops : s.mailboxOps (.readBegin thread len) = [] := by simp [mailboxOps, hwaiting]
    have hstep : wintunStep s (.readBegin thread len) = (s, none) := by simp [wintunStep, hwaiting]
    rw [hops, hstep]
    exact ⟨h, rfl, iff_of_true (fun hnone => by simp [hwaiting] at hnone) (by simp), fun _ => rfl⟩
  | none =>
    by_cases hlen : (ethHdrSize : ℤ) < len
    · have hops : s.mailboxOps (.readBegin thread len) = [.take] := by
        simp [mailboxOps, hwaiting, hlen]
      have hread := wintunReadArp_eq h hlen
      rw [hops]
      rcases h.reply with hzero | ⟨hfull, buf, hbuf⟩
      · -- no reply waits, so the read goes on
        have hempty : ¬ 0 < s.ctx.arpReplyLen := by omega
        have hslot : s.slot = none := if_neg hempty
        rw [if_neg hempty] at hread
        simp only [wintunStep, hwaiting, hread, hslot]
        refine ⟨⟨h.session, h.macAddr, h.ipAddr, h.reply⟩, if_neg hempty,
          iff_of_true (fun _ hpos => absurd hpos hempty) (by simp), fun _ => rfl⟩
      · -- the reply is returned
        have hpos : 0 < s.ctx.arpReplyLen := by
          rw [hfull]
          decide
        have hslot : s.slot = some (arpReplyTo c buf) := by
          rw [slot, if_pos hpos, hfull, hbuf]
        rw [if_pos hpos, hfull, hbuf] at hread
        have hsize : (0 : ℤ) < (arpPktSize : ℤ) := by decide
        simp only [wintunStep, hwaiting, hread, hslot]
        refine ⟨⟨h.session, h.macAddr, h.ipAddr, .inl rfl⟩, rfl, ⟨fun hok r hr => ?_, fun hexact => ?_⟩,
          fun hok => ?_⟩
        · obtain rfl := Option.some.inj hr
          intro _
          rw [if_pos (hok hwaiting hpos hlen), length_arpReplyTo]
        · intro _ _ _
          by_contra hshort
          have hcopied := hexact _ rfl hsize
          rw [if_neg hshort] at hcopied
          exact absurd hcopied (by decide)
        · rw [if_pos (hok hwaiting hpos hlen)]
          exact arpFrames_reply (arpReplyTo_addressed c buf).2.1 _
    · -- the buffer is too short for anything
      have hops : s.mailboxOps (.readBegin thread len) = [] := by simp [mailboxOps, hlen]
      have hshort : len < ethHdrSize + 1 := by omega
      have hread : wintunReadArp s.ctx len = (s.ctx, some ⟨-1, [], none⟩) := by
        simp only [wintunReadArp, h.session, if_pos hshort, Bool.true_eq_false, if_false]
      have hnothing := ReadResult.exact_nothing (by decide : (-1 : ℤ) ≤ 0) none
      simp only [wintunStep, hwaiting, hread, hops]
      refine ⟨⟨h.session, h.macAddr, h.ipAddr, h.reply⟩, rfl,
        iff_of_true (fun _ _ hroom => absurd hroom hlen) fun r hr => ?_,
        fun _ => arpFrames_notArp hnothing.2⟩
      obtain rfl := Option.some.inj hr
      exact hnothing.1

/-- **A step uses the reply as a mailbox with one slot**: a request puts its reply there, and a read
takes it.  A read reports what it has copied exactly if its buffer is long enough, and then returns
what it has taken. -/
theorem wintunStep_mailbox (h : s.Wf c) (e : WintunEvent) :
    (wintunStep s e).1.Wf c ∧
      (wintunStep s e).1.slot = Mailbox.run s.slot (s.mailboxOps e) ∧
      (ReadOk s e ↔ ∀ r ∈ (wintunStep s e).2, r.Exact) ∧
      (ReadOk s e → arpFrames (wintunStep s e).2.toList = Mailbox.taken s.slot (s.mailboxOps e)) := by
  cases e with
  | write buf alloc =>
    obtain ⟨hwf, hslot⟩ := write_mailbox h buf alloc
    refine ⟨hwf, hslot, iff_of_true trivial (by simp [wintunStep]), fun _ => ?_⟩
    simp only [mailboxOps, wintunStep, Option.toList_none]
    split_ifs <;> rfl
  | readBegin thread len => exact readBegin_mailbox h thread len
  | readEnd thread driver =>
    cases hwaiting : s.waiting thread with
    | none =>
      have hstep : wintunStep s (.readEnd thread driver) = (s, none) := by
        simp [wintunStep, hwaiting]
      rw [hstep]
      exact ⟨h, rfl, iff_of_true trivial (by simp), fun _ => rfl⟩
    | some len =>
      have hresult := wintunReadPacket_exact s.ctx len driver
      simp only [wintunStep, hwaiting]
      refine ⟨⟨h.session, h.macAddr, h.ipAddr, h.reply⟩, rfl, iff_of_true trivial fun r hr => ?_,
        fun _ => arpFrames_notArp hresult.2⟩
      obtain rfl := Option.some.inj hr
      exact hresult.1

theorem dueReplies_cons (h : s.Wf c) (e : WintunEvent) (events : List WintunEvent) :
    dueReplies c (e :: events) = Mailbox.puts (s.mailboxOps e) ++ dueReplies c events := by
  have hhead : dueReplies c [e] = Mailbox.puts (s.mailboxOps e) := by
    cases e with
    | write buf alloc =>
      simp only [dueReplies, mailboxOps, List.flatMap_cons, List.flatMap_nil, List.append_nil,
        h.ipAddr, arpReplyTo_congr h.macAddr h.ipAddr buf]
      split_ifs <;> rfl
    | readBegin thread len =>
      simp only [mailboxOps]
      split_ifs <;> rfl
    | readEnd => rfl
  rw [← hhead, ← List.singleton_append]
  exact List.flatMap_append

/-! ### Runs -/

/-- What events do to the slot. -/
def slotOps : WintunState → List WintunEvent → List (Mailbox.Op (List UInt8))
  | _, [] => []
  | s, e :: events => s.mailboxOps e ++ slotOps (wintunStep s e).1 events

/-- All reads are so. -/
def ReadsOk : WintunState → List WintunEvent → Prop
  | _, [] => True
  | s, e :: events => ReadOk s e ∧ ReadsOk (wintunStep s e).1 events

theorem slot_run (h : s.Wf c) (events : List WintunEvent) :
    (wintunRun s events).Wf c ∧
      (wintunRun s events).slot = Mailbox.run s.slot (slotOps s events) ∧
      dueReplies c events = Mailbox.puts (slotOps s events) := by
  induction events generalizing s with
  | nil => exact ⟨h, rfl, rfl⟩
  | cons e events ih =>
    obtain ⟨hwf, hslot, -, -⟩ := wintunStep_mailbox h e
    obtain ⟨hwf', hslot', hdue⟩ := ih hwf
    refine ⟨hwf', ?_, ?_⟩
    · rw [slotOps, Mailbox.run_append, ← hslot]
      exact hslot'
    · rw [dueReplies_cons h, slotOps, Mailbox.puts_append, hdue]

theorem arpFrames_append (results results' : List ReadResult) :
    arpFrames (results ++ results') = arpFrames results ++ arpFrames results' := by
  rw [arpFrames, List.map_append, List.filter_append]
  rfl

/-- If the buffers are long enough, what is read are the replies that are taken. -/
theorem arpFrames_run (h : s.Wf c) {events : List WintunEvent} (hok : ReadsOk s events) :
    arpFrames (readResults s events) = Mailbox.taken s.slot (slotOps s events) := by
  induction events generalizing s with
  | nil => rfl
  | cons e events ih =>
    obtain ⟨hwf, hslot, -, hframes⟩ := wintunStep_mailbox h e
    rw [readResults, arpFrames_append, hframes hok.1, ih hwf hok.2, slotOps, Mailbox.taken_append,
      ← hslot]

/-- The buffers are long enough exactly if the reads report what they have copied. -/
theorem readsOk_iff (h : s.Wf c) (events : List WintunEvent) :
    ReadsOk s events ↔ ∀ r ∈ readResults s events, r.Exact := by
  induction events generalizing s with
  | nil => exact iff_of_true trivial fun _ hr => absurd hr List.not_mem_nil
  | cons e events ih =>
    obtain ⟨hwf, -, hread, -⟩ := wintunStep_mailbox h e
    rw [ReadsOk, hread, ih hwf, readResults]
    simp only [List.mem_append, or_imp, forall_and, Option.mem_toList, Option.mem_def]

theorem slot_eq_none : s.slot = none ↔ s.ctx.arpReplyLen = 0 := by
  simp [slot]

theorem stepOk_iff (e : WintunEvent) :
    StepOk s e ↔ ReadOk s e ∧ Mailbox.Spaced s.slot (s.mailboxOps e) := by
  cases e with
  | write buf alloc =>
    simp only [StepOk, ReadOk, mailboxOps, true_and]
    split_ifs with hrequest
    · simp [Mailbox.Spaced, slot_eq_none, hrequest]
    · exact iff_of_true (fun h => absurd h hrequest) trivial
  | readBegin thread len =>
    have hspaced : Mailbox.Spaced s.slot (s.mailboxOps (.readBegin thread len)) := by
      simp only [mailboxOps]
      split_ifs <;> trivial
    exact (and_iff_left hspaced).symm
  | readEnd => exact iff_of_true trivial ⟨trivial, trivial⟩

/-- The steps are as they are to be exactly if the buffers are long enough and the requests find the
slot empty. -/
theorem stepsOk_iff (h : s.Wf c) (events : List WintunEvent) :
    StepsOk s events ↔ ReadsOk s events ∧ Mailbox.Spaced s.slot (slotOps s events) := by
  induction events generalizing s with
  | nil => exact iff_of_true trivial ⟨trivial, trivial⟩
  | cons e events ih =>
    obtain ⟨hwf, hslot, -, -⟩ := wintunStep_mailbox h e
    rw [StepsOk, stepOk_iff, ih hwf, ReadsOk, slotOps, Mailbox.spaced_append, ← hslot]
    tauto

/-- From some thread on none is in a read. -/
theorem exists_idle {s : WintunState} (h : ∃ n, ∀ t, n ≤ t → s.waiting t = none)
    (events : List WintunEvent) : ∃ n, ∀ t, n ≤ t → (wintunRun s events).waiting t = none := by
  induction events generalizing s with
  | nil => exact h
  | cons e events ih =>
    obtain ⟨n, hn⟩ := h
    refine ih ?_
    cases e with
    | write buf alloc => exact ⟨n, hn⟩
    | readBegin thread len =>
      refine ⟨max n (thread + 1), fun t ht => ?_⟩
      have hidle := hn t (le_trans (le_max_left _ _) ht)
      have hne : t ≠ thread := by omega
      simp only [wintunStep]
      split
      · exact hidle
      · split
        · exact hidle
        · exact (Function.update_of_ne hne _ _).trans hidle
    | readEnd thread driver =>
      refine ⟨n, fun t ht => ?_⟩
      have hidle := hn t ht
      simp only [wintunStep]
      split
      · exact hidle
      · by_cases hthread : t = thread
        · rw [hthread]
          exact Function.update_self ..
        · exact (Function.update_of_ne hthread _ _).trans hidle

theorem slotOps_append (s : WintunState) (events events' : List WintunEvent) :
    slotOps s (events ++ events') = slotOps s events ++ slotOps (wintunRun s events) events' := by
  induction events generalizing s with
  | nil => rfl
  | cons e events ih =>
    rw [List.cons_append, slotOps, ih, slotOps, List.append_assoc]
    rfl

theorem readsOk_append (s : WintunState) (events events' : List WintunEvent) :
    ReadsOk s (events ++ events') ↔
      ReadsOk s events ∧ ReadsOk (wintunRun s events) events' := by
  induction events generalizing s with
  | nil => exact ⟨fun h => ⟨trivial, h⟩, And.right⟩
  | cons e events ih =>
    rw [List.cons_append, ReadsOk, ih, ReadsOk, and_assoc]
    rfl

/-! ### Reads that follow -/

/-- Reads with long buffers are as they are to be. -/
theorem readsOk_readsBy (s : WintunState) (thread : ℕ) {reads : List (ℤ × ReadDriver)}
    (h : ∀ r ∈ reads, (arpPktSize : ℤ) ≤ r.1) : ReadsOk s (readsBy thread reads) := by
  induction reads generalizing s with
  | nil => trivial
  | cons r reads ih =>
    exact ⟨fun _ _ _ => h r List.mem_cons_self, trivial,
      ih _ fun r' hr' => h r' (List.mem_cons_of_mem _ hr')⟩

theorem dueReplies_readsBy (ctx : WintunContext) (thread : ℕ) (reads : List (ℤ × ReadDriver)) :
    dueReplies ctx (readsBy thread reads) = [] := by
  induction reads with
  | nil => rfl
  | cons r reads ih => exact ih

/-- The first of them empties the slot. -/
theorem run_readsBy (h : s.Wf c) {thread : ℕ} (hidle : s.waiting thread = none)
    {reads : List (ℤ × ReadDriver)} (hreads : ∀ r ∈ reads, (arpPktSize : ℤ) ≤ r.1)
    (hne : 1 ≤ reads.length) :
    Mailbox.run s.slot (slotOps s (readsBy thread reads)) = none := by
  have hputs := (slot_run h (readsBy thread reads)).2.2
  rw [dueReplies_readsBy] at hputs
  cases reads with
  | nil => exact absurd hne (by decide)
  | cons r reads =>
    have hlen : (ethHdrSize : ℤ) < r.1 :=
      lt_of_lt_of_le (by decide) (hreads r List.mem_cons_self)
    have hops : s.mailboxOps (.readBegin thread r.1) = [.take] := by
      simp [mailboxOps, hidle, hlen]
    have hcons : readsBy thread (r :: reads) =
        .readBegin thread r.1 :: .readEnd thread r.2 :: readsBy thread reads := rfl
    rw [hcons, slotOps, hops] at hputs ⊢
    exact Mailbox.run_none hputs.symm

/-! ### Exactly when -/

/-- Steps that are as they are to be serve every request. -/
theorem arpServed_of_stepsOk {s : WintunState} (h : s.Wf s.ctx) (hempty : s.slot = none)
    {events : List WintunEvent} (hok : StepsOk s events) : ArpServed s events := by
  obtain ⟨hreads, hspaced⟩ := (stepsOk_iff h events).mp hok
  rw [hempty] at hspaced
  refine ⟨fun before hbefore => ?_, ⟨1, fun thread reads hidle hlong hlen => ?_⟩,
    (readsOk_iff h events).mp hreads⟩
  · obtain ⟨rest, rfl⟩ := hbefore
    rw [slotOps_append, Mailbox.spaced_append] at hspaced
    rw [readsOk_append] at hreads
    have htaken := Mailbox.taken_of_spaced hspaced.1
    rw [arpFrames_run h hreads.1, hempty, (slot_run h before).2.2]
    exact (List.sublist_append_left _ _).subperm.trans (List.Perm.of_eq htaken).subperm
  · obtain ⟨hwf, hslot, hdue⟩ := slot_run h events
    have hafter : ReadsOk s (events ++ readsBy thread reads) :=
      (readsOk_append _ _ _).mpr ⟨hreads, readsOk_readsBy _ thread hlong⟩
    have hputs : Mailbox.puts (slotOps (wintunRun s events) (readsBy thread reads)) = [] :=
      (slot_run hwf (readsBy thread reads)).2.2.symm.trans (dueReplies_readsBy _ _ _)
    have hall : Mailbox.Spaced none (slotOps s (events ++ readsBy thread reads)) := by
      rw [slotOps_append, Mailbox.spaced_append]
      exact ⟨hspaced, Mailbox.spaced_of_puts hputs _⟩
    -- the first of the reads that follow leaves nothing in the slot
    have hend : Mailbox.run none (slotOps s (events ++ readsBy thread reads)) = none := by
      rw [hempty] at hslot
      rw [slotOps_append, Mailbox.run_append, ← hslot]
      exact run_readsBy hwf hidle hlong hlen
    have htaken := Mailbox.taken_of_spaced hall
    rw [hend, Option.toList_none, List.append_nil, List.nil_append, slotOps_append,
      Mailbox.puts_append, hputs, List.append_nil, ← hdue, ← slotOps_append] at htaken
    rw [arpFrames_run h hafter, hempty, htaken]

/-- Steps that serve every request are as they are to be. -/
theorem stepsOk_of_arpServed {s : WintunState} (h : s.Wf s.ctx) (hempty : s.slot = none)
    (hidle : ∃ n, ∀ t, n ≤ t → s.waiting t = none) {events : List WintunEvent}
    (hserved : ArpServed s events) : StepsOk s events := by
  have hreads : ReadsOk s events := (readsOk_iff h events).mpr hserved.copied
  refine (stepsOk_iff h events).mpr ⟨hreads, ?_⟩
  by_contra hlost
  obtain ⟨n, hn⟩ := hserved.complete
  obtain ⟨thread, hthread⟩ := exists_idle hidle events
  set reads : List (ℤ × ReadDriver) := List.replicate n (arpPktSize, ⟨none, 0, false, none, 0⟩)
  have hlong : ∀ r ∈ reads, (arpPktSize : ℤ) ≤ r.1 := fun r hr =>
    (congrArg Prod.fst (List.eq_of_mem_replicate hr)).ge
  have hperm := hn thread reads (hthread thread le_rfl) hlong (List.length_replicate).ge
  have hafter : ReadsOk s (events ++ readsBy thread reads) :=
    (readsOk_append _ _ _).mpr ⟨hreads, readsOk_readsBy _ thread hlong⟩
  have hnot : ¬ Mailbox.Spaced s.slot (slotOps s (events ++ readsBy thread reads)) := by
    rw [slotOps_append, Mailbox.spaced_append]
    exact fun hspaced => hlost hspaced.1
  -- what was lost is missing in the end
  have hlt := Mailbox.length_lt_of_not_spaced hnot
  have hdue : dueReplies s.ctx (events ++ readsBy thread reads) = dueReplies s.ctx events := by
    rw [dueReplies, List.flatMap_append, ← dueReplies, ← dueReplies, dueReplies_readsBy,
      List.append_nil]
  rw [← arpFrames_run h hafter, ← (slot_run h (events ++ readsBy thread reads)).2.2, hdue, hempty,
    hperm.length_eq, Option.toList_none, List.length_nil] at hlt
  omega

section

variable (macAddr : Mac) (ipAddr mtu : UInt32) (arpReply : List UInt8)
  (entries : Fin neighborCacheSize → Neighbor)

theorem wf_openedWintun :
    (openedWintun macAddr ipAddr mtu arpReply entries).Wf
      (openedWintun macAddr ipAddr mtu arpReply entries).ctx := ⟨rfl, rfl, rfl, .inl rfl⟩

theorem idle_openedWintun :
    ∃ n, ∀ t, n ≤ t → (openedWintun macAddr ipAddr mtu arpReply entries).waiting t = none :=
  ⟨0, fun _ _ => rfl⟩

/-- **Every request for the device is answered once, and every read reports what it has copied,
exactly if each request finds no reply waiting and each reply is read into a buffer that is long
enough**, in any interleaving of writes and reads. -/
theorem arpServed_iff (events : List WintunEvent) :
    ArpServed (openedWintun macAddr ipAddr mtu arpReply entries) events ↔
      StepsOk (openedWintun macAddr ipAddr mtu arpReply entries) events :=
  ⟨stepsOk_of_arpServed (wf_openedWintun ..) rfl (idle_openedWintun ..),
    arpServed_of_stepsOk (wf_openedWintun ..) rfl⟩

end

/-- An ARP request for 10.0.0.1 from a sender whose addresses are all `sender`. -/
def arpRequestFrom (sender : UInt8) : List UInt8 :=
  List.replicate 6 0xFF ++ List.replicate 6 sender ++ [8, 6, 0, 1, 8, 0, 6, 4, 0, 1] ++
    List.replicate 10 sender ++ List.replicate 6 0 ++ [10, 0, 0, 1]

/-- The second of two requests takes the place of the first one. -/
theorem not_arpServed_two :
    ¬ ArpServed (openedWintun nullMac (le32At [10, 0, 0, 1] 0) 1290 [] fun _ => ⟨0, nullMac⟩)
      [.write (arpRequestFrom 2) .allocated, .write (arpRequestFrom 3) .allocated] := by
  intro h
  have hok := stepsOk_of_arpServed (wf_openedWintun ..) rfl (idle_openedWintun ..) h
  exact absurd (hok.2.1 (by decide)) (by decide)

end N2n
