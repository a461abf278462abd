import Mathlib.Data.List.TakeWhile
import N2nTun.KcpSessions
import N2nTun.Lib.Loop

/-!
# Taking messages out of a KCP session

The KCP library puts the messages of a session together; `n2n_kcp_recv_pending_ctx` takes one of
them, and the loops of the supernode and of the edge call it until it gives none.  It gives none
when there is none, and also when the next one is empty or too long for the buffer.

The library is an argument.  Of it is supposed what its documentation says of `ikcp_peeksize` and
`ikcp_recv`, and that nothing else takes messages out of a session.

## Main definitions

* `KcpLibrary`, `KcpLibrary.Queues` — the library, and what it does with messages.
* `recvPendingCtx` — the function.
* `receiveStep` — the loop of its callers.
* `Pending`, `Handled` — what the loop needs to know of the two functions it calls.

## Main results

* `recvPendingCtx_fits`, `recvPendingCtx_stuck` — what the function does.
* `receive_ends` — **the loop ends, and has handed over the messages before the first that does not
  fit**, unless the session has ended meanwhile.
-/

namespace N2n

open Loops

/-! ### The library -/

/-- What is called of the KCP library; `κ` are its objects. -/
structure KcpLibrary (κ : Type) where
  /-- `ikcp_create` -/
  create : UInt32 → κ
  /-- `ikcp_input`, with what it returns -/
  input : κ → List UInt8 → ℤ × κ
  /-- `ikcp_send`, with what it returns -/
  send : κ → List UInt8 → ℤ × κ
  /-- `ikcp_update` at a time in milliseconds -/
  update : κ → UInt32 → κ
  /-- `ikcp_flush` -/
  flush : κ → κ
  /-- the field `state` -/
  state : κ → UInt32
  /-- `ikcp_peeksize` -/
  peeksize : κ → ℤ
  /-- `ikcp_recv` into so many bytes, with what it returns and what it writes -/
  recv : κ → ℤ → ℤ × List UInt8 × κ

variable {κ : Type}

/-- The complete messages of a session are a queue: input adds to its end, `ikcp_peeksize` gives
the size of the first or a negative value, and `ikcp_recv` takes it. -/
structure KcpLibrary.Queues (lib : KcpLibrary κ) (messages : κ → List (List UInt8)) : Prop where
  create : ∀ conv, messages (lib.create conv) = []
  input : ∀ k buf, messages k <+: messages (lib.input k buf).2
  send : ∀ k payload, messages (lib.send k payload).2 = messages k
  update : ∀ k ms, messages (lib.update k ms) = messages k
  flush : ∀ k, messages (lib.flush k) = messages k
  peeksize_nil : ∀ k, messages k = [] → lib.peeksize k < 0
  peeksize_cons : ∀ k m rest, messages k = m :: rest → lib.peeksize k = m.length
  recv : ∀ k m rest, messages k = m :: rest →
    ∃ k', lib.recv k m.length = ((m.length : ℤ), m, k') ∧ messages k' = rest

/-- A message that is handed over: there is something in it, and it fits into the buffer. -/
def Fits (size : ℕ) (m : List UInt8) : Prop := 1 ≤ m.length ∧ m.length ≤ size

instance (size : ℕ) (m : List UInt8) : Decidable (Fits size m) :=
  inferInstanceAs (Decidable (_ ∧ _))

/-- `n2n_kcp_recv_pending_ctx` on the object of an active context: the object afterwards, what is
returned, and what is in the output buffer. -/
def recvPendingCtx (lib : KcpLibrary κ) (outBufSize : ℕ) (k : κ) : κ × ℤ × List UInt8 :=
  let peeksize := lib.peeksize k
  if peeksize ≤ 0 ∨ (outBufSize : ℤ) < peeksize then (k, 0, [])
  else
    let (recvLen, out, k) := lib.recv k peeksize
    if recvLen < 0 then (k, 0, []) else (k, 1, out)

section Library

variable {lib : KcpLibrary κ} {messages : κ → List (List UInt8)}

/-- The next message fits. -/
theorem recvPendingCtx_fits (hlib : lib.Queues messages) {size : ℕ} {k : κ} {m : List UInt8}
    {rest : List (List UInt8)} (hk : messages k = m :: rest) (hm : Fits size m) :
    ∃ k', recvPendingCtx lib size k = (k', 1, m) ∧ messages k' = rest := by
  obtain ⟨k', hrecv, hrest⟩ := hlib.recv k m rest hk
  refine ⟨k', ?_, hrest⟩
  have hpeek := hlib.peeksize_cons k m rest hk
  obtain ⟨hlow, hhigh⟩ := hm
  unfold recvPendingCtx
  rw [hpeek, if_neg (by omega), hrecv]
  exact if_neg (by simp)

/-- There is none, or the next one does not fit: it stays where it is. -/
theorem recvPendingCtx_stuck (hlib : lib.Queues messages) {size : ℕ} {k : κ}
    (h : ∀ m ∈ (messages k).head?, ¬ Fits size m) : recvPendingCtx lib size k = (k, 0, []) := by
  refine if_pos ?_
  cases hk : messages k with
  | nil => exact Or.inl (le_of_lt (hlib.peeksize_nil k hk))
  | cons m rest =>
    have hm : ¬ Fits size m := h m (by simp [hk])
    rw [hlib.peeksize_cons k m rest hk]
    unfold Fits at hm
    omega

end Library

/-! ### The loop of the callers -/

variable {σ : Type}

/-- The variables of the loop: what it works on, what is in the buffer, and what has been handed
over so far. -/
structure Receiving (σ : Type) where
  s : σ
  out : List UInt8
  handed : List (List UInt8)

/-- One pass of `while(kcp_out_len > 0)`. -/
def receiveStep (processUdp : σ → List UInt8 → σ) (recvPending : σ → σ × ℤ × List UInt8)
    (r : Receiving σ) : Receiving σ ⊕ (σ × List (List UInt8)) :=
  if r.out.length = 0 then .inr (r.s, r.handed)
  else
    let s := processUdp r.s r.out
    let (s, rc, out) := recvPending s
    if rc = 0 then .inr (s, r.handed ++ [r.out]) else .inl ⟨s, out, r.handed ++ [r.out]⟩

/-- The function that takes a message takes those that fit from the queue, and keeps `I`. -/
structure Pending (size : ℕ) (queue : σ → List (List UInt8)) (I : σ → Prop)
    (recvPending : σ → σ × ℤ × List UInt8) : Prop where
  inv : ∀ s, I s → I (recvPending s).1
  fits : ∀ s m rest, I s → queue s = m :: rest → Fits size m →
    (recvPending s).2 = (1, m) ∧ queue (recvPending s).1 = rest
  stuck : ∀ s, I s → (∀ m ∈ (queue s).head?, ¬ Fits size m) →
    (recvPending s).2 = (0, []) ∧ queue (recvPending s).1 = queue s

/-- What is done with a message leaves the queue alone, or ends the session. -/
structure Handled (queue : σ → List (List UInt8)) (I : σ → Prop)
    (processUdp : σ → List UInt8 → σ) : Prop where
  inv : ∀ s m, I s → I (processUdp s m)
  queue : ∀ s m, I s → queue (processUdp s m) = queue s ∨ queue (processUdp s m) = []

/-- What becomes of a queue: those before the first message that does not fit are handed over and
the others stay, or the session has ended. -/
def Drained (size : ℕ) (queue handed queue' : List (List UInt8)) : Prop :=
  (handed = queue.takeWhile (Fits size ·) ∧ queue' = queue.dropWhile (Fits size ·)) ∨
    (handed <+: queue.takeWhile (Fits size ·) ∧ queue' = [])

/-- If all messages fit, they are handed over in their order, and none stays. -/
theorem Drained.all {size : ℕ} {queue handed queue' : List (List UInt8)}
    (h : Drained size queue handed queue') (hall : ∀ m ∈ queue, Fits size m) :
    handed <+: queue ∧ queue' = [] := by
  have hdrop : queue.dropWhile (Fits size ·) = [] :=
    List.dropWhile_eq_nil_iff.mpr fun m hm => decide_eq_true (hall m hm)
  rcases h with ⟨hhanded, hqueue⟩ | ⟨hhanded, hqueue⟩
  · exact ⟨hhanded ▸ List.takeWhile_prefix _, hqueue.trans hdrop⟩
  · exact ⟨hhanded.trans (List.takeWhile_prefix _), hqueue⟩

/-- A message that fits is handed over before what becomes of the rest. -/
theorem Drained.cons {size : ℕ} {m : List UInt8} {rest more queue' : List (List UInt8)}
    (hm : Fits size m) (h : Drained size rest more queue') :
    Drained size (m :: rest) (m :: more) queue' := by
  unfold Drained
  rw [List.takeWhile_cons_of_pos (by simpa using hm),
    List.dropWhile_cons_of_pos (by simpa using hm)]
  rcases h with ⟨hmore, hqueue⟩ | ⟨hmore, hqueue⟩
  · exact Or.inl ⟨by rw [hmore], hqueue⟩
  · exact Or.inr ⟨(List.prefix_cons_inj m).mpr hmore, hqueue⟩

/-- The session has ended before anything was handed over. -/
theorem Drained.of_nil {size : ℕ} {queue more queue' : List (List UInt8)}
    (h : Drained size [] more queue') : Drained size queue more queue' := by
  rcases h with ⟨hmore, hqueue⟩ | ⟨hmore, hqueue⟩
  · exact Or.inr ⟨hmore ▸ List.nil_prefix, hqueue⟩
  · exact Or.inr ⟨hmore.trans List.nil_prefix, hqueue⟩

/-- A message that does not fit stays, with all behind it. -/
theorem Drained.stuck {size : ℕ} {queue : List (List UInt8)}
    (h : ∀ m ∈ queue.head?, ¬ Fits size m) : Drained size queue [] queue := by
  cases queue with
  | nil => exact Or.inl ⟨rfl, rfl⟩
  | cons m rest =>
    have hm : ¬ Fits size m := h m rfl
    unfold Drained
    rw [List.takeWhile_cons_of_neg (by simpa using hm),
      List.dropWhile_cons_of_neg (by simpa using hm)]
    exact Or.inl ⟨rfl, rfl⟩

theorem fits_or_stuck (size : ℕ) (queue : List (List UInt8)) :
    (∃ m rest, queue = m :: rest ∧ Fits size m) ∨ ∀ m ∈ queue.head?, ¬ Fits size m := by
  cases queue with
  | nil => exact Or.inr fun m hm => absurd hm (by simp)
  | cons m rest =>
    by_cases hm : Fits size m
    · exact Or.inl ⟨m, rest, rfl, hm⟩
    · refine Or.inr fun m' hm' => ?_
      rw [List.head?_cons, Option.mem_some_iff] at hm'
      rwa [← hm']

theorem Fits.ne_nil {size : ℕ} {m : List UInt8} (h : Fits size m) : m ≠ [] :=
  List.ne_nil_of_length_pos h.1

section Loop

variable {size : ℕ} {queue : σ → List (List UInt8)} {I : σ → Prop}
  {processUdp : σ → List UInt8 → σ} {recvPending : σ → σ × ℤ × List UInt8}

/-- The pass that hands over `out`. -/
theorem receiveStep_eq {s : σ} {out : List UInt8} (handed : List (List UInt8)) (hout : out ≠ [])
    {rc : ℤ} {next : List UInt8} (h : (recvPending (processUdp s out)).2 = (rc, next)) :
    receiveStep processUdp recvPending ⟨s, out, handed⟩ =
      if rc = 0 then .inr ((recvPending (processUdp s out)).1, handed ++ [out])
      else .inl ⟨(recvPending (processUdp s out)).1, next, handed ++ [out]⟩ := by
  unfold receiveStep
  rw [if_neg (by simpa using hout)]
  simp [h]

/-- The loop with a message in the buffer: the induction is on how many there are behind it. -/
theorem receive_message (hpending : Pending size queue I recvPending)
    (hhandled : Handled queue I processUdp) {s : σ} {out : List UInt8}
    (handed : List (List UInt8)) (hI : I s) (hout : out ≠ []) :
    ∃ s' more, Ends (receiveStep processUdp recvPending) ⟨s, out, handed⟩
        (s', handed ++ out :: more) ∧ I s' ∧ Drained size (queue s) more (queue s') := by
  induction hn : (queue s).length using Nat.strong_induction_on generalizing s out handed with
  | _ n ih =>
    subst hn
    have hI₁ := hhandled.inv s out hI
    have hqueue₁ := hhandled.queue s out hI
    rcases fits_or_stuck size (queue (processUdp s out)) with ⟨m, rest, hm, hfits⟩ | hstuck
    · -- the next message fits, and the loop goes on with it
      have hq : queue s = m :: rest := by
        rcases hqueue₁ with h | h
        · rw [← h, hm]
        · rw [h] at hm
          cases hm
      obtain ⟨hrc, hrest⟩ := hpending.fits _ m rest hI₁ hm hfits
      obtain ⟨s', more, hends, hI', hdrained⟩ :=
        ih _ (by rw [hrest, hq]; simp) (handed ++ [out]) (hpending.inv _ hI₁) hfits.ne_nil rfl
      refine ⟨s', m :: more, (ends_of_next (receiveStep_eq handed hout hrc)).mpr ?_, hI', ?_⟩
      · rw [List.append_assoc, List.singleton_append] at hends
        exact hends
      · rw [hq]
        rw [hrest] at hdrained
        exact hdrained.cons hfits
    · -- it does not, or there is none: the loop ends
      obtain ⟨hrc, hqueue⟩ := hpending.stuck _ hI₁ hstuck
      refine ⟨_, [], (ends_of_done (receiveStep_eq handed hout hrc)).mpr rfl,
        hpending.inv _ hI₁, ?_⟩
      rw [hqueue]
      rcases hqueue₁ with h | h
      · rw [h] at hstuck ⊢
        exact .stuck hstuck
      · rw [h]
        exact Or.inr ⟨List.nil_prefix, rfl⟩

/-- **The loop after a first message has been taken, or none**: it ends, and what becomes of the
queue is `Drained`.  Between the two something may be done that leaves the queue alone or ends the
session. -/
theorem receive_ends (hpending : Pending size queue I recvPending)
    (hhandled : Handled queue I processUdp) (between : σ → σ)
    (hbetween : Handled queue I fun s _ => between s) {s : σ} (hI : I s) :
    ∃ s' handed, Ends (receiveStep processUdp recvPending)
        ⟨between (recvPending s).1, (recvPending s).2.2, []⟩ (s', handed) ∧ I s' ∧
      Drained size (queue s) handed (queue s') := by
  have hI₁ := hpending.inv s hI
  have hI₂ := hbetween.inv _ [] hI₁
  have hqueue₂ := hbetween.queue _ [] hI₁
  rcases fits_or_stuck size (queue s) with ⟨m, rest, hm, hfits⟩ | hstuck
  · obtain ⟨hrc, hrest⟩ := hpending.fits s m rest hI hm hfits
    obtain ⟨s', more, hends, hI', hdrained⟩ :=
      receive_message hpending hhandled [] hI₂ hfits.ne_nil
    refine ⟨s', m :: more, by rw [hrc]; exact hends, hI', ?_⟩
    rw [hm]
    refine Drained.cons hfits ?_
    rcases hqueue₂ with h | h
    · rw [h, hrest] at hdrained
      exact hdrained
    · rw [h] at hdrained
      exact hdrained.of_nil
  · obtain ⟨hrc, hqueue⟩ := hpending.stuck s hI hstuck
    refine ⟨between (recvPending s).1, [], (ends_of_done ?_).mpr rfl, hI₂, ?_⟩
    · rw [hrc]
      exact if_pos rfl
    · rcases hqueue₂ with h | h
      · rw [h, hqueue]
        exact .stuck hstuck
      · rw [h]
        exact Or.inr ⟨List.nil_prefix, rfl⟩

end Loop

end N2n
