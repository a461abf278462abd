import Mathlib.Algebra.GroupWithZero.Nat
import N2nTun.Lib.LinkedList

/-!
# The transmit queue of the Windows TAP thread

A thread reads frames from the TAP device and queues them for the main thread, which sends them.
The queue is a linked list with a count, a total of bytes and a flag that a wake-up is under way.
It is limited in both counts: for a frame that exceeds a limit the oldest ones are dropped.

## Main definitions

* `TapQueue` — the fields of the queue and the memory of its entries.
* `queueTapTxPacket`, `dequeuePacket`, `flushTapTxQueue`, `clearTapTxQueue` — the operations.
* `TapQueue.Holds` — the queue holds some entries.
* `TapReach` — the states that are reached by operations, with what has entered and left so far.

## Main results

* `dropWhile_spec`, `queueTapTxPacket_spec`, `flushTapTxQueue_spec` — what the operations do.
* `tapTxQueue_reach` — **what holds in every state, and of every operation in it.**
-/

namespace N2n

open LinkedLists

/-! ### The queue -/

/-- `N2N_TAP_TX_QUEUE_MAX_PACKETS`. -/
def tapTxQueueMaxPackets : ℕ := 1024

/-- `N2N_TAP_TX_QUEUE_MAX_BYTES`. -/
def tapTxQueueMaxBytes : ℕ := 4 * 1024 * 1024

/-- `N2N_TAP_TX_DRAIN_BUDGET`. -/
def tapTxDrainBudget : ℕ := 128

/-- `n2n_packet_queue_entry_t`, without its link. -/
structure TapEntry where
  enqueueMs : UInt32
  len : UInt16
  data : List UInt8

/-- The fields `tap_tx_queue_*` and `tap_tx_wake_pending` of the edge, with the memory. -/
structure TapQueue where
  heap : Heap TapEntry
  head : Option ℕ
  tail : Option ℕ
  count : ℕ
  bytes : ℕ
  wakePending : Bool

/-- The queue after its first entry has been taken out. -/
def TapQueue.unlink (q : TapQueue) (entry : Cell TapEntry) : TapQueue :=
  { q with
    head := entry.next
    tail := if entry.next = none then none else q.tail
    count := if 0 < q.count then q.count - 1 else q.count
    bytes := if entry.val.len.toNat ≤ q.bytes then q.bytes - entry.val.len.toNat else 0
    wakePending := if entry.next = none then false else q.wakePending }

/-- `edge_tap_tx_drop_oldest_locked`, with what it drops; `none` if it follows a pointer that is not
valid. -/
def dropOldest (q : TapQueue) : Option (TapQueue × List TapEntry) :=
  match q.head with
  | none => some (q, [])
  | some p => (q.heap p).map fun entry =>
    ({ q.unlink entry with heap := q.heap.free p }, [entry.val])

/-- A loop that drops the oldest entry while there is one and a condition holds, with at most `n`
tests. -/
def dropWhile (cond : TapQueue → Bool) : ℕ → TapQueue → Option (TapQueue × List TapEntry)
  | 0, _ => none
  | n + 1, q =>
    if q.head.isSome && cond q then
      (dropOldest q).bind fun r =>
        (dropWhile cond n r.1).map fun r' => (r'.1, r.2 ++ r'.2)
    else some (q, [])

/-- One more packet of this length exceeds a limit. -/
def limitReached (len : ℕ) (q : TapQueue) : Bool :=
  tapTxQueueMaxPackets ≤ q.count || tapTxQueueMaxBytes < q.bytes + len

/-- The main thread has to be woken for an entry. -/
def TapQueue.needWake (q : TapQueue) : Bool := q.head.isNone && !q.wakePending

/-- The entry is linked to the end of the queue. -/
def TapQueue.append (q : TapQueue) (p : ℕ) (len : ℕ) : TapQueue :=
  let q' : TapQueue :=
    match q.tail with
    | some t => { q with heap := q.heap.setNext t (some p) }
    | none => { q with head := some p }
  { q' with
    tail := some p
    count := q.count + 1
    bytes := q.bytes + len
    wakePending := if q.needWake then true else q.wakePending }

/-- What queueing a frame leaves: the queue, what it has dropped, and whether it wakes the main
thread. -/
structure TapQueued where
  queue : TapQueue
  dropped : List TapEntry
  signal : Bool

/-- `edge_queue_tap_tx_packet`; `entry` is the memory that `calloc` gives. -/
def queueTapTxPacket (q : TapQueue) (tapPkt : List UInt8) (now : UInt32) (entry : Option ℕ) :
    Option TapQueued :=
  if tapPkt.length = 0 then some ⟨q, [], false⟩
  else if 0xFFFF < tapPkt.length ∨ tapTxQueueMaxBytes < tapPkt.length then some ⟨q, [], false⟩
  else
    match entry with
    | none => some ⟨q, [], false⟩
    | some p =>
      let q := { q with
        heap := q.heap.set p ⟨⟨now, UInt16.ofNat tapPkt.length, tapPkt⟩, none⟩ }
      (dropWhile (limitReached tapPkt.length) (q.count + 1) q).map fun r =>
        if limitReached tapPkt.length r.1 then
          ⟨{ r.1 with heap := r.1.heap.free p }, r.2, false⟩
        else ⟨r.1.append p tapPkt.length, r.2, r.1.needWake⟩

/-- `edge_tap_tx_dequeue_packet`: the queue and the entry that is handed over. -/
def dequeuePacket (q : TapQueue) : Option (TapQueue × Option ℕ) :=
  match q.head with
  | none => some (q, none)
  | some p => (q.heap p).map fun entry => (q.unlink entry, some p)

/-- The loop of `edge_flush_tap_tx_queue`, with what it sends. -/
def flushLoop : ℕ → TapQueue → Option (TapQueue × List TapEntry)
  | 0, q => some (q, [])
  | budget + 1, q =>
    (dequeuePacket q).bind fun r =>
      match r.2 with
      | none => some (r.1, [])
      | some p =>
        (r.1.heap p).bind fun entry =>
          (flushLoop budget { r.1 with heap := r.1.heap.free p }).map fun r' =>
            (r'.1, entry.val :: r'.2)

/-- `edge_flush_tap_tx_queue`. -/
def flushTapTxQueue (q : TapQueue) : Option (TapQueue × List TapEntry) :=
  flushLoop tapTxDrainBudget q

/-- `edge_clear_tap_tx_queue`. -/
def clearTapTxQueue (q : TapQueue) : Option (TapQueue × List TapEntry) :=
  dropWhile (fun _ => true) (q.count + 1) q

/-! ### What the queue holds -/

/-- The bytes of the entries. -/
def totalBytes (es : List TapEntry) : ℕ := (es.map fun e => e.len.toNat).sum

/-- The cells `ps` of the queue hold the entries. -/
structure TapQueue.Holds (q : TapQueue) (ps : List ℕ) (es : List TapEntry) : Prop where
  linked : Linked q.heap q.head ps es
  nodup : ps.Nodup
  tail : q.tail = ps.getLast?
  count : q.count = es.length
  bytes : q.bytes = totalBytes es
  wake : q.wakePending = true ↔ es ≠ []

namespace TapQueue

variable {q : TapQueue} {ps : List ℕ} {e : TapEntry} {es : List TapEntry}

/-- The first entry is taken out, and its memory may be freed. -/
theorem Holds.unlink {p : ℕ} {entry : Cell TapEntry} (h : q.Holds (p :: ps) (e :: es))
    (hentry : q.heap p = some entry) {heap : Heap TapEntry}
    (hheap : ∀ r ∈ ps, heap r = q.heap r) :
    entry.val = e ∧ ({ q.unlink entry with heap := heap } : TapQueue).Holds ps es := by
  obtain ⟨hhead, next, hcell, hrest⟩ := h.linked
  obtain rfl : entry = ⟨e, next⟩ := Option.some.inj (hentry.symm.trans hcell)
  have hcount : q.count = es.length + 1 := h.count
  have hbytes : q.bytes = e.len.toNat + totalBytes es := h.bytes
  refine ⟨rfl, hrest.congr hheap, (List.nodup_cons.mp h.nodup).2, ?_, ?_, ?_, ?_⟩
  · simp only [TapQueue.unlink]
    cases next with
    | none => rw [if_pos rfl, hrest.of_none.1, List.getLast?_nil]
    | some r =>
      obtain ⟨ps, _, _, _, rfl, -⟩ := hrest.of_some
      rw [if_neg (Option.some_ne_none r), h.tail, List.getLast?_cons_cons]
  · simp only [TapQueue.unlink]
    rw [hcount, if_pos (Nat.succ_pos _), Nat.add_sub_cancel]
  · simp only [TapQueue.unlink]
    rw [hbytes, if_pos (Nat.le_add_right _ _), Nat.add_sub_cancel_left]
  · simp only [TapQueue.unlink]
    cases next with
    | none => simp [hrest.of_none.2]
    | some r =>
      obtain ⟨_, _, _, _, -, rfl, -⟩ := hrest.of_some
      rw [if_neg (Option.some_ne_none r)]
      exact iff_of_true (h.wake.mpr (List.cons_ne_nil _ _)) (List.cons_ne_nil _ _)

/-- The first cell of a queue that holds something. -/
theorem Holds.head_cell {p : ℕ} (h : q.Holds (p :: ps) (e :: es)) :
    q.head = some p ∧ ∃ entry, q.heap p = some entry := by
  obtain ⟨hhead, next, hcell, -⟩ := h.linked
  exact ⟨hhead, _, hcell⟩

theorem Holds.head_isSome (h : q.Holds ps es) : q.head.isSome = !es.isEmpty := by
  cases hhead : q.head with
  | none =>
    have hlinked := h.linked
    rw [hhead] at hlinked
    rw [hlinked.of_none.2]
    rfl
  | some p =>
    have hlinked := h.linked
    rw [hhead] at hlinked
    obtain ⟨_, _, _, _, -, rfl, -⟩ := hlinked.of_some
    rfl

/-- The oldest entry is dropped. -/
theorem Holds.dropOldest {p : ℕ} (h : q.Holds (p :: ps) (e :: es)) :
    ∃ q', N2n.dropOldest q = some (q', [e]) ∧ q'.Holds ps es ∧
      ∀ r, r ≠ p → q'.heap r = q.heap r := by
  obtain ⟨hhead, entry, hentry⟩ := h.head_cell
  have hne : ∀ r, r ≠ p → q.heap.free p r = q.heap r := fun r hr => Function.update_of_ne hr _ _
  have hp : p ∉ ps := (List.nodup_cons.mp h.nodup).1
  obtain ⟨rfl, hholds⟩ := h.unlink hentry fun r hr => hne r fun heq => hp (heq ▸ hr)
  refine ⟨_, ?_, hholds, hne⟩
  rw [N2n.dropOldest, hhead]
  simp only [hentry, Option.map_some]

/-- The oldest entry is handed over. -/
theorem Holds.dequeue {p : ℕ} (h : q.Holds (p :: ps) (e :: es)) :
    ∃ q' next, dequeuePacket q = some (q', some p) ∧ q'.heap = q.heap ∧
      q.heap p = some ⟨e, next⟩ ∧ q'.Holds ps es := by
  obtain ⟨hhead, ⟨v, next⟩, hentry⟩ := h.head_cell
  obtain ⟨rfl, hholds⟩ := h.unlink hentry fun r _ => rfl
  refine ⟨q.unlink ⟨v, next⟩, next, ?_, rfl, hentry, hholds⟩
  rw [dequeuePacket, hhead]
  simp only [hentry, Option.map_some]

/-- The main thread has to be woken if the queue is empty. -/
theorem Holds.needWake (h : q.Holds ps es) : q.needWake = es.isEmpty := by
  have hhead := h.head_isSome
  have hwake := h.wake
  rw [TapQueue.needWake, ← Option.not_isSome, hhead, Bool.not_not]
  cases es with
  | nil =>
    have hpending : q.wakePending = false := by simpa using hwake
    rw [hpending]
    rfl
  | cons e es => rfl

/-- An allocated entry is linked to the end. -/
theorem Holds.append (h : q.Holds ps es) {p : ℕ} (hp : p ∉ ps)
    (hcell : q.heap p = some ⟨e, none⟩) :
    (q.append p e.len.toNat).Holds (ps ++ [p]) (es ++ [e]) := by
  have hnodup : (ps ++ [p]).Nodup := List.nodup_append.mpr
    ⟨h.nodup, List.nodup_singleton p, fun a ha b hb heq => hp (by
      rw [List.mem_singleton] at hb
      rwa [← hb, ← heq])⟩
  have htotal : totalBytes (es ++ [e]) = totalBytes es + e.len.toNat := by
    simp [totalBytes]
  refine ⟨?_, hnodup, ?_, ?_, ?_, ?_⟩
  · cases htail : q.tail with
    | some t =>
      simp only [TapQueue.append, htail]
      exact h.linked.concat h.nodup (h.tail.symm.trans htail) hp hcell
    | none =>
      -- the queue was empty
      have hps : ps = [] := List.getLast?_eq_none_iff.mp (h.tail.symm.trans htail)
      have hlen := h.linked.length_eq
      rw [hps] at hlen
      have hes : es = [] := List.length_eq_zero_iff.mp hlen.symm
      simp only [TapQueue.append, htail, hps, hes]
      exact ⟨rfl, none, hcell, rfl⟩
  · rw [List.getLast?_concat]
    rfl
  · rw [List.length_append, List.length_singleton, ← h.count]
    rfl
  · rw [htotal, ← h.bytes]
    rfl
  · refine iff_of_true ?_ (by simp)
    show (if q.needWake = true then true else q.wakePending) = true
    rw [h.needWake]
    cases es with
    | nil => rfl
    | cons e es => exact h.wake.mpr (List.cons_ne_nil e es)

end TapQueue

open TapQueue

/-! ### The loops -/

/-- **The loop that drops**: it ends with the entries from some place on, and drops those before
it; the condition holds up to there, and no longer there, unless nothing is left. -/
theorem dropWhile_spec {cond : TapQueue → Bool} {holds : List TapEntry → Bool}
    (hcond : ∀ {q ps es}, TapQueue.Holds q ps es → cond q = holds es) {n : ℕ} {q : TapQueue}
    {ps : List ℕ} {es : List TapEntry} (h : q.Holds ps es) (hn : es.length < n) :
    ∃ q' k, dropWhile cond n q = some (q', es.take k) ∧ q'.Holds (ps.drop k) (es.drop k) ∧
      (∀ r, r ∉ ps → q'.heap r = q.heap r) ∧ k ≤ es.length ∧
      (∀ j, j < k → holds (es.drop j) = true) ∧ (es.drop k = [] ∨ holds (es.drop k) = false) := by
  induction n generalizing q ps es with
  | zero => exact absurd hn (Nat.not_lt_zero _)
  | succ n ih =>
    by_cases hgo : (q.head.isSome && cond q) = true
    · rw [h.head_isSome, hcond h, Bool.and_eq_true, Bool.not_eq_true'] at hgo
      obtain ⟨hes, hholds⟩ := hgo
      cases es with
      | nil => cases hes
      | cons e es =>
        cases ps with
        | nil => exact h.linked.elim
        | cons p ps =>
          obtain ⟨q₁, hdrop, hq₁, hheap₁⟩ := h.dropOldest
          obtain ⟨q', k, hloop, hq', hheap', hk, hbefore, hend⟩ :=
            ih hq₁ (Nat.lt_of_succ_lt_succ hn)
          refine ⟨q', k + 1, ?_, hq', fun r hr => ?_, Nat.succ_le_succ hk, fun j hj => ?_, hend⟩
          · rw [dropWhile, h.head_isSome, hcond h, hholds]
            simp [hdrop, hloop]
          · rw [List.mem_cons, not_or] at hr
            rw [hheap' r hr.2, hheap₁ r hr.1]
          · cases j with
            | zero => exact hholds
            | succ j => exact hbefore j (Nat.lt_of_succ_lt_succ hj)
    · refine ⟨q, 0, by rw [dropWhile, if_neg hgo, List.take_zero], h, fun _ _ => rfl,
        Nat.zero_le _, fun j hj => absurd hj (Nat.not_lt_zero _), ?_⟩
      rw [h.head_isSome, hcond h] at hgo
      cases es with
      | nil => exact .inl rfl
      | cons e es =>
        refine .inr ?_
        simpa using hgo

/-- A limit is exceeded with one more packet of this length behind these entries. -/
def Exceeds (len : ℕ) (es : List TapEntry) : Bool :=
  tapTxQueueMaxPackets ≤ es.length || tapTxQueueMaxBytes < totalBytes es + len

theorem limitReached_eq (len : ℕ) {q : TapQueue} {ps : List ℕ} {es : List TapEntry}
    (h : q.Holds ps es) : limitReached len q = Exceeds len es := by
  rw [limitReached, Exceeds, h.count, h.bytes]

/-- A frame that comes into the queue: it is not empty, its length fits its field, and there is
memory for it. -/
def Accepted (tapPkt : List UInt8) (entry : Option ℕ) : Prop :=
  0 < tapPkt.length ∧ tapPkt.length ≤ 0xFFFF ∧ entry ≠ none

instance (tapPkt : List UInt8) (entry : Option ℕ) : Decidable (Accepted tapPkt entry) :=
  inferInstanceAs (Decidable (_ ∧ _))

/-- The entry of a frame. -/
def tapEntry (tapPkt : List UInt8) (now : UInt32) : TapEntry :=
  ⟨now, UInt16.ofNat tapPkt.length, tapPkt⟩

theorem queueTapTxPacket_refused {tapPkt : List UInt8} {entry : Option ℕ}
    (h : ¬ Accepted tapPkt entry) (q : TapQueue) (now : UInt32) :
    queueTapTxPacket q tapPkt now entry = some ⟨q, [], false⟩ := by
  unfold queueTapTxPacket
  split_ifs with hempty hlarge
  · rfl
  · rfl
  · cases entry with
    | none => rfl
    | some p =>
      exact absurd ⟨Nat.pos_of_ne_zero hempty, Nat.not_lt.mp fun hlt => hlarge (.inl hlt),
        Option.some_ne_none p⟩ h

/-- **A frame that is accepted comes to the end of the queue**; before that, the oldest entries are
dropped, as long as a limit would be exceeded. -/
theorem queueTapTxPacket_spec {q : TapQueue} {ps : List ℕ} {es : List TapEntry}
    (h : q.Holds ps es) {tapPkt : List UInt8} {p : ℕ} (hok : Accepted tapPkt (some p))
    (hp : q.heap p = none) (now : UInt32) :
    ∃ q' k, queueTapTxPacket q tapPkt now (some p) =
        some ⟨q', es.take k, (es.drop k).isEmpty⟩ ∧
      q'.Holds (ps.drop k ++ [p]) (es.drop k ++ [tapEntry tapPkt now]) ∧ k ≤ es.length ∧
      (∀ j, j < k → Exceeds tapPkt.length (es.drop j) = true) ∧
      Exceeds tapPkt.length (es.drop k) = false := by
  obtain ⟨hpos, hlen, -⟩ := hok
  have hps : p ∉ ps := fun hmem => h.linked.allocated hmem hp
  have hword : (tapEntry tapPkt now).len.toNat = tapPkt.length :=
    UInt16.toNat_ofNat_of_lt' (Nat.lt_succ_of_le hlen)
  have hlarge : ¬ (0xFFFF < tapPkt.length ∨ tapTxQueueMaxBytes < tapPkt.length) := by
    unfold tapTxQueueMaxBytes
    omega
  let q₁ : TapQueue := { q with heap := q.heap.set p ⟨tapEntry tapPkt now, none⟩ }
  have hheap : ∀ r ∈ ps, q₁.heap r = q.heap r := fun r hr =>
    Function.update_of_ne (fun heq : r = p => hps (heq ▸ hr)) _ _
  have h₁ : q₁.Holds ps es :=
    ⟨h.linked.congr hheap, h.nodup, h.tail, h.count, h.bytes, h.wake⟩
  obtain ⟨q', k, hloop, hq', hkeep, hk, hbefore, hend⟩ :=
    dropWhile_spec (limitReached_eq tapPkt.length) h₁ (n := q.count + 1)
      (h.count ▸ Nat.lt_succ_self _)
  -- in an empty queue there is room for every frame that is accepted
  have hroom : Exceeds tapPkt.length (es.drop k) = false := by
    rcases hend with hnil | hroom
    · rw [hnil, Exceeds]
      simp [totalBytes, tapTxQueueMaxPackets, tapTxQueueMaxBytes]
      omega
    · exact hroom
  have hcell : q'.heap p = some ⟨tapEntry tapPkt now, none⟩ :=
    (hkeep p hps).trans (Function.update_self ..)
  have hdrop : p ∉ ps.drop k := fun hmem => hps (List.mem_of_mem_drop hmem)
  refine ⟨q'.append p tapPkt.length, k, ?_, hword ▸ hq'.append hdrop hcell, hk, hbefore, hroom⟩
  rw [queueTapTxPacket, if_neg (Nat.ne_of_gt hpos), if_neg hlarge]
  have hlimit : limitReached tapPkt.length q' = false := (limitReached_eq _ hq').trans hroom
  show (dropWhile _ _ q₁).map _ = _
  rw [hloop, Option.map_some, hlimit, hq'.needWake]
  rfl

/-- **Flushing sends the entries from the front**, as many as the budget allows. -/
theorem flushLoop_spec (budget : ℕ) {q : TapQueue} {ps : List ℕ} {es : List TapEntry}
    (h : q.Holds ps es) :
    ∃ q', flushLoop budget q = some (q', es.take budget) ∧
      q'.Holds (ps.drop budget) (es.drop budget) := by
  induction budget generalizing q ps es with
  | zero => exact ⟨q, rfl, h⟩
  | succ budget ih =>
    cases ps with
    | nil =>
      cases es with
      | cons => exact h.linked.elim
      | nil =>
        have hhead : q.head = none := h.linked
        refine ⟨q, ?_, h⟩
        rw [flushLoop, dequeuePacket, hhead]
        rfl
    | cons p ps =>
      cases es with
      | nil => exact h.linked.elim
      | cons e es =>
        obtain ⟨q₁, next, hdequeue, hheap, hcell, h₁⟩ := h.dequeue
        -- the memory of the entry is freed when it has been sent
        have hp : p ∉ ps := (List.nodup_cons.mp h.nodup).1
        have hfree : ∀ r ∈ ps, q₁.heap.free p r = q₁.heap r := fun r hr =>
          Function.update_of_ne (fun heq : r = p => hp (heq ▸ hr)) _ _
        obtain ⟨q', hloop, hq'⟩ := ih (q := { q₁ with heap := q₁.heap.free p })
          ⟨h₁.linked.congr hfree, h₁.nodup, h₁.tail, h₁.count, h₁.bytes, h₁.wake⟩
        refine ⟨q', ?_, hq'⟩
        rw [flushLoop, hdequeue]
        simp only [Option.bind_some, hheap ▸ hcell, hloop, Option.map_some, List.take_succ_cons]

/-- Clearing drops everything. -/
theorem clearTapTxQueue_spec {q : TapQueue} {ps : List ℕ} {es : List TapEntry}
    (h : q.Holds ps es) :
    ∃ q', clearTapTxQueue q = some (q', es) ∧ q'.Holds [] [] := by
  have hcond : ∀ {q ps es}, TapQueue.Holds q ps es →
      (fun _ : TapQueue => true) q = (fun _ : List TapEntry => true) es := fun _ => rfl
  obtain ⟨q', k, hloop, hq', -, hk, -, hend⟩ :=
    dropWhile_spec hcond h (n := q.count + 1) (h.count ▸ Nat.lt_succ_self _)
  have hnil : es.drop k = [] := hend.resolve_right (by decide)
  have hall : es.length ≤ k := List.drop_eq_nil_iff.mp hnil
  have hps : ps.drop k = [] := List.drop_eq_nil_iff.mpr (h.linked.length_eq ▸ hall)
  rw [List.take_of_length_le hall] at hloop
  rw [hnil, hps] at hq'
  exact ⟨q', hloop, hq'⟩

/-! ### Runs -/

/-- An operation; `entry` is the memory that `calloc` gives. -/
inductive TapOp where
  | enqueue (tapPkt : List UInt8) (now : UInt32) (entry : Option ℕ)
  | dequeue
  | flush
  | clear

/-- An entry leaves the queue for the main thread, or is dropped. -/
inductive TapLeave where
  | sent
  | dropped

/-- The queue, what has come in so far, and what has left. -/
structure TapState where
  queue : TapQueue
  entered : List TapEntry
  left : List (TapLeave × TapEntry)

/-- The frames that come in with an operation. -/
def TapOp.enters : TapOp → List TapEntry
  | .enqueue tapPkt now entry => if Accepted tapPkt entry then [tapEntry tapPkt now] else []
  | _ => []

/-- An operation with what leaves in it. -/
def tapOp (q : TapQueue) : TapOp → Option (TapQueue × List (TapLeave × TapEntry))
  | .enqueue tapPkt now entry =>
    (queueTapTxPacket q tapPkt now entry).map fun r => (r.queue, r.dropped.map (.dropped, ·))
  | .dequeue =>
    (dequeuePacket q).bind fun r =>
      match r.2 with
      | none => some (r.1, [])
      | some p => (r.1.heap p).map fun entry => (r.1, [(.sent, entry.val)])
  | .flush => (flushTapTxQueue q).map fun r => (r.1, r.2.map (.sent, ·))
  | .clear => (clearTapTxQueue q).map fun r => (r.1, r.2.map (.dropped, ·))

/-- An operation in a run. -/
def tapStep (s : TapState) (op : TapOp) : Option TapState :=
  (tapOp s.queue op).map fun r => ⟨r.1, s.entered ++ op.enters, s.left ++ r.2⟩

/-- What `calloc` gives is not in use. -/
def TapOp.Allowed (q : TapQueue) : TapOp → Prop
  | .enqueue _ _ (some p) => q.heap p = none
  | _ => True

/-- The states that are reached from an empty queue. -/
inductive TapReach : TapState → Prop
  | init (heap : Heap TapEntry) : TapReach ⟨⟨heap, none, none, 0, 0, false⟩, [], []⟩
  | step {s s' : TapState} {op : TapOp} (h : TapReach s) (hop : op.Allowed s.queue)
      (hstep : tapStep s op = some s') : TapReach s'

/-- What leaves in an operation on a queue of these entries.  When a frame comes in, the oldest
entries are dropped, each when a limit would be exceeded; otherwise entries leave for the main
thread, from the front, or all are dropped when the queue is cleared. -/
def LeavesOk (es : List TapEntry) : TapOp → List (TapLeave × TapEntry) → Prop
  | .enqueue tapPkt _ entry, left =>
    ∃ k, left = (es.take k).map (.dropped, ·) ∧ k ≤ es.length ∧
      (∀ j, j < k → Accepted tapPkt entry ∧ Exceeds tapPkt.length (es.drop j) = true)
  | .dequeue, left => left = (es.take 1).map (.sent, ·)
  | .flush, left => left = (es.take tapTxDrainBudget).map (.sent, ·)
  | .clear, left => left = es.map (.dropped, ·)

/-- What holds in a state, whose queue holds the entries `es` in the cells `ps`. -/
structure TapInvariant (s : TapState) (ps : List ℕ) (es : List TapEntry) : Prop where
  holds : s.queue.Holds ps es
  packets : s.queue.count ≤ tapTxQueueMaxPackets
  bytes : s.queue.bytes ≤ tapTxQueueMaxBytes
  order : s.entered = s.left.map Prod.snd ++ es

theorem totalBytes_append (es es' : List TapEntry) :
    totalBytes (es ++ es') = totalBytes es + totalBytes es' := by
  simp [totalBytes]

theorem totalBytes_drop_le (es : List TapEntry) (k : ℕ) : totalBytes (es.drop k) ≤ totalBytes es := by
  have hsplit := totalBytes_append (es.take k) (es.drop k)
  rw [List.take_append_drop] at hsplit
  omega

/-- Entries that leave from the front leave in their order. -/
theorem TapInvariant.order_leave {s : TapState} {ps : List ℕ} {es : List TapEntry}
    (h : TapInvariant s ps es) (k : ℕ) (fate : TapLeave) :
    s.entered = (s.left ++ (es.take k).map (fate, ·)).map Prod.snd ++ es.drop k := by
  have hmap : ((es.take k).map (fate, ·)).map Prod.snd = es.take k := by
    rw [List.map_map]
    exact List.map_id _
  rw [List.map_append, hmap, List.append_assoc, List.take_append_drop, h.order]

/-- Entries that leave from the front keep the limits and the order. -/
theorem TapInvariant.leave {s : TapState} {ps : List ℕ} {es : List TapEntry}
    (h : TapInvariant s ps es) {q' : TapQueue} {k : ℕ} (hq' : q'.Holds (ps.drop k) (es.drop k))
    (fate : TapLeave) :
    TapInvariant ⟨q', s.entered ++ [], s.left ++ (es.take k).map (fate, ·)⟩ (ps.drop k)
      (es.drop k) := by
  have hcount := h.packets
  have hbytes := h.bytes
  have hle := totalBytes_drop_le es k
  rw [h.holds.count] at hcount
  rw [h.holds.bytes] at hbytes
  refine ⟨hq', ?_, ?_, (List.append_nil _).trans (h.order_leave k fate)⟩
  · rw [hq'.count, List.length_drop]
    omega
  · rw [hq'.bytes]
    omega

/-- A frame that comes in when there is room keeps them too. -/
theorem TapInvariant.enter {s : TapState} {ps ps' : List ℕ} {es : List TapEntry}
    (h : TapInvariant s ps es) {q' : TapQueue} {k : ℕ} {e : TapEntry}
    (hq' : q'.Holds ps' (es.drop k ++ [e])) (hroom : Exceeds e.len.toNat (es.drop k) = false) :
    TapInvariant ⟨q', s.entered ++ [e], s.left ++ (es.take k).map (.dropped, ·)⟩ ps'
      (es.drop k ++ [e]) := by
  simp only [Exceeds, Bool.or_eq_false_iff, decide_eq_false_iff_not] at hroom
  refine ⟨hq', ?_, ?_, ?_⟩
  · rw [hq'.count, List.length_append, List.length_singleton]
    omega
  · have htotal : totalBytes [e] = e.len.toNat := Nat.add_zero _
    rw [hq'.bytes, totalBytes_append, htotal]
    omega
  · rw [← List.append_assoc]
    exact congrArg (· ++ [e]) (h.order_leave k .dropped)

/-- **An operation succeeds, keeps what holds, and lets leave what may leave.** -/
theorem tapStep_spec {s : TapState} {ps : List ℕ} {es : List TapEntry} (h : TapInvariant s ps es)
    {op : TapOp} (hop : op.Allowed s.queue) :
    ∃ s' ps' es' left, tapStep s op = some s' ∧ TapInvariant s' ps' es' ∧
      s'.left = s.left ++ left ∧ LeavesOk es op left := by
  cases op with
  | enqueue tapPkt now entry =>
    by_cases hok : Accepted tapPkt entry
    · obtain ⟨p, rfl⟩ := Option.ne_none_iff_exists'.mp hok.2.2
      obtain ⟨q', k, hqueue, hq', hk, hbefore, hroom⟩ := queueTapTxPacket_spec h.holds hok hop now
      have hword : (tapEntry tapPkt now).len.toNat = tapPkt.length :=
        UInt16.toNat_ofNat_of_lt' (Nat.lt_succ_of_le hok.2.1)
      rw [← hword] at hroom
      refine ⟨_, _, _, (es.take k).map (.dropped, ·), ?_, h.enter hq' hroom, rfl, k, rfl, hk,
        fun j hj => ⟨hok, hbefore j hj⟩⟩
      rw [tapStep, tapOp, hqueue, TapOp.enters, if_pos hok]
      rfl
    · -- the frame is refused
      refine ⟨_, _, _, [], ?_, h.leave (k := 0) h.holds .dropped, rfl, 0, rfl, Nat.zero_le _,
        fun j hj => absurd hj (Nat.not_lt_zero j)⟩
      rw [tapStep, tapOp, queueTapTxPacket_refused hok, TapOp.enters, if_neg hok]
      rfl
  | dequeue =>
    cases ps with
    | nil =>
      cases es with
      | cons => exact h.holds.linked.elim
      | nil =>
        have hhead : s.queue.head = none := h.holds.linked
        refine ⟨_, _, _, [], ?_, h.leave (k := 1) h.holds .sent, rfl, rfl⟩
        rw [tapStep, tapOp, dequeuePacket, hhead]
        rfl
    | cons p ps =>
      cases es with
      | nil => exact h.holds.linked.elim
      | cons e es =>
        obtain ⟨q', next, hdequeue, hheap, hcell, hq'⟩ := h.holds.dequeue
        refine ⟨_, _, _, [(.sent, e)], ?_, h.leave (k := 1) hq' .sent, rfl, rfl⟩
        rw [tapStep, tapOp, hdequeue]
        simp only [Option.bind_some, hheap, hcell, Option.map_some]
        rfl
  | flush =>
    obtain ⟨q', hflush, hq'⟩ := flushLoop_spec tapTxDrainBudget h.holds
    refine ⟨_, _, _, _, ?_, h.leave hq' .sent, rfl, rfl⟩
    rw [tapStep, tapOp, flushTapTxQueue, hflush]
    rfl
  | clear =>
    obtain ⟨q', hclear, hq'⟩ := clearTapTxQueue_spec h.holds
    have hall : q'.Holds (ps.drop es.length) (es.drop es.length) := by
      rw [List.drop_length, ← h.holds.linked.length_eq, List.drop_length]
      exact hq'
    have hleave := h.leave hall .dropped
    rw [List.take_length] at hleave
    refine ⟨_, _, _, _, ?_, hleave, rfl, rfl⟩
    rw [tapStep, tapOp, hclear]
    rfl

/-- What holds in every state that is reached. -/
theorem TapReach.invariant {s : TapState} (h : TapReach s) : ∃ ps es, TapInvariant s ps es := by
  induction h with
  | init heap =>
    exact ⟨[], [], ⟨rfl, List.nodup_nil, rfl, rfl, rfl, by simp⟩, Nat.zero_le _, Nat.zero_le _,
      rfl⟩
  | step _ hop hstep ih =>
    obtain ⟨ps, es, hinv⟩ := ih
    obtain ⟨s', ps', es', left, hstep', hinv', -, -⟩ := tapStep_spec hinv hop
    obtain rfl := Option.some.inj (hstep.symm.trans hstep')
    exact ⟨ps', es', hinv'⟩

/-- **In every state that is reached**, the queue is a list of entries whose length and bytes are the
count and the total, both within their limits; the tail is its last cell; a wake-up is pending
exactly if it is not empty; and the entries that came in are those that have left, in this order,
and those in the queue.  Every operation succeeds, and only when a frame comes in that would exceed
a limit, or when the queue is cleared, something is dropped, from the front. -/
theorem tapTxQueue_reach {s : TapState} (h : TapReach s) :
    ∃ ps es, TapInvariant s ps es ∧ ∀ op : TapOp, op.Allowed s.queue →
      ∃ s' left, tapStep s op = some s' ∧ s'.left = s.left ++ left ∧ LeavesOk es op left := by
  obtain ⟨ps, es, hinv⟩ := h.invariant
  refine ⟨ps, es, hinv, fun op hop => ?_⟩
  obtain ⟨s', -, -, left, hstep, -, hleft, hok⟩ := tapStep_spec hinv hop
  exact ⟨s', left, hstep, hleft, hok⟩

theorem tapTxQueue_reach_one :
    ∃ s, tapStep ⟨⟨fun _ => none, none, none, 0, 0, false⟩, [], []⟩
        (.enqueue [1, 2] 0 (some 7)) = some s ∧
      ∃ ps es, TapInvariant s ps es ∧ ∀ op : TapOp, op.Allowed s.queue →
        ∃ s' left, tapStep s op = some s' ∧ s'.left = s.left ++ left ∧ LeavesOk es op left :=
  ⟨_, rfl, tapTxQueue_reach (.step (.init fun _ => none)
    (show TapOp.Allowed _ (.enqueue [1, 2] 0 (some 7)) from rfl) rfl)⟩

/-- Entries are only dropped for a frame that would exceed a limit. -/
def DropsAtLimit (es : List TapEntry) (op : TapOp) (left : List (TapLeave × TapEntry)) : Prop :=
  ∀ e, (TapLeave.dropped, e) ∈ left → ∃ tapPkt now entry,
    op = .enqueue tapPkt now entry ∧ Exceeds tapPkt.length es = true

/-- Clearing a queue with one entry drops it. -/
theorem not_dropsAtLimit_clear :
    ¬ ∀ (s s' : TapState) (op : TapOp) (ps : List ℕ) (es : List TapEntry)
      (left : List (TapLeave × TapEntry)), TapReach s → s.queue.Holds ps es →
      tapStep s op = some s' → s'.left = s.left ++ left → DropsAtLimit es op left := by
  intro h
  have hreach : TapReach _ := .step (.init fun _ => none)
    (show TapOp.Allowed _ (.enqueue [1, 2] 0 (some 7)) from rfl) rfl
  obtain ⟨ps, es, hinv⟩ := hreach.invariant
  obtain ⟨tapPkt, now, entry, hop, -⟩ :=
    h _ _ .clear ps es [(.dropped, tapEntry [1, 2] 0)] hreach hinv.holds rfl rfl _
      List.mem_cons_self
  cases hop

end N2n
