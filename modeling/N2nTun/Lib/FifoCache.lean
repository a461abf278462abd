import Mathlib.Data.List.Forall2
import Mathlib.Data.List.Nodup
import Mathlib.Data.List.Pairwise

/-!
# Caches that evict what came in first

A cache of a bounded number of entries is a list of keys with their values.  A key that is there
gets its new value in place; any other goes to the end, and if the cache is full, the entry at the
front goes.  So the keys stand in the order in which they came in.

## Main definitions

* `learn` — a key is learned with its value.
* `Shifts` — what may become of the keys in one step.
* `Arrived` — when a key came in for its present stay, in a history of lists.

## Main results

* `mem_learn` — what is in the cache after a key has been learned.
* `exists_arrivals` — **the keys stand in the order of their arrival.**
* `InOrder.head_lt` — the key at the front arrived before all others.
-/

namespace FifoCache

variable {K V : Type*}

/-! ### The keys -/

/-- What may become of the keys in one step: nothing, or a new key at the end, for which the key at
the front may have to go. -/
inductive Shifts : List K → List K → Prop
  | stays (keys : List K) : Shifts keys keys
  | grows {keys : List K} {k : K} (h : k ∉ keys) : Shifts keys (keys ++ [k])
  | moves {keys : List K} {k : K} (h : k ∉ keys) : Shifts keys (keys.tail ++ [k])

theorem Shifts.nodup {keys keys' : List K} (h : Shifts keys keys') (hnodup : keys.Nodup) :
    keys'.Nodup := by
  have hend : ∀ {l : List K} {k : K}, l.Nodup → k ∉ l → (l ++ [k]).Nodup := fun hl hk =>
    List.nodup_append.mpr ⟨hl, List.nodup_singleton _, fun a ha b hb => by
      rintro rfl
      exact hk (List.mem_singleton.mp hb ▸ ha)⟩
  cases h with
  | stays => exact hnodup
  | grows hk => exact hend hnodup hk
  | moves hk => exact hend hnodup.tail fun htail => hk (List.mem_of_mem_tail htail)

/-! ### Learning -/

section

variable [DecidableEq K]

/-- The entries with the value of a key replaced. -/
def replace (k : K) (v : V) (entries : List (K × V)) : List (K × V) :=
  entries.map fun e => if e.1 = k then (k, v) else e

/-- A key is learned with its value, in a cache of `size` entries. -/
def learn (size : ℕ) (k : K) (v : V) (entries : List (K × V)) : List (K × V) :=
  if k ∈ entries.map Prod.fst then replace k v entries
  else if entries.length < size then entries ++ [(k, v)]
  else entries.tail ++ [(k, v)]

@[simp] theorem map_fst_replace (k : K) (v : V) (entries : List (K × V)) :
    (replace k v entries).map Prod.fst = entries.map Prod.fst := by
  rw [replace, List.map_map]
  refine List.map_congr_left fun e _ => ?_
  by_cases hkey : e.1 = k
  · simp [hkey]
  · simp [hkey]

@[simp] theorem length_replace (k : K) (v : V) (entries : List (K × V)) :
    (replace k v entries).length = entries.length := List.length_map _

theorem mem_replace {k k' : K} {v v' : V} {entries : List (K × V)}
    (h : (k', v') ∈ replace k v entries) :
    k' = k ∧ v' = v ∨ k' ≠ k ∧ (k', v') ∈ entries := by
  obtain ⟨e, hmem, heq⟩ := List.mem_map.mp h
  split_ifs at heq with hkey
  · obtain ⟨rfl, rfl⟩ := Prod.mk.inj heq
    exact .inl ⟨rfl, rfl⟩
  · obtain rfl := heq
    exact .inr ⟨hkey, hmem⟩

/-- What is in the cache afterwards: what has been learned, and what was there with other keys. -/
theorem mem_learn {size : ℕ} {k k' : K} {v v' : V} {entries : List (K × V)}
    (h : (k', v') ∈ learn size k v entries) :
    k' = k ∧ v' = v ∨ k' ≠ k ∧ (k', v') ∈ entries := by
  have hnew : ∀ l : List (K × V), (∀ e ∈ l, e ∈ entries) → k ∉ entries.map Prod.fst →
      (k', v') ∈ l ++ [(k, v)] → k' = k ∧ v' = v ∨ k' ≠ k ∧ (k', v') ∈ entries := by
    intro l hl hk hmem
    rcases List.mem_append.mp hmem with hold | hlast
    · refine .inr ⟨?_, hl _ hold⟩
      rintro rfl
      exact hk (List.mem_map.mpr ⟨_, hl _ hold, rfl⟩)
    · exact .inl (Prod.mk.inj (List.mem_singleton.mp hlast))
  unfold learn at h
  split_ifs at h with hk hroom
  · exact mem_replace h
  · exact hnew entries (fun _ he => he) hk h
  · exact hnew entries.tail (fun _ he => List.mem_of_mem_tail he) hk h

theorem shifts_learn (size : ℕ) (k : K) (v : V) (entries : List (K × V)) :
    Shifts (entries.map Prod.fst) ((learn size k v entries).map Prod.fst) := by
  unfold learn
  split_ifs with hk hroom
  · rw [map_fst_replace]
    exact .stays _
  · rw [List.map_append]
    exact .grows hk
  · rw [List.map_append, List.map_tail]
    exact .moves hk

end

/-! ### Arrival -/

variable {keysAt : ℕ → List K} {n : ℕ}

/-- In the history up to `n`, the key came in with the step from `t` on and has been there since. -/
def Arrived (keysAt : ℕ → List K) (n : ℕ) (k : K) (t : ℕ) : Prop :=
  t < n ∧ k ∉ keysAt t ∧ ∀ j, t < j → j ≤ n → k ∈ keysAt j

/-- A key came in once for its present stay. -/
theorem Arrived.unique {k : K} {t t' : ℕ} (h : Arrived keysAt n k t)
    (h' : Arrived keysAt n k t') : t = t' := by
  obtain ⟨hlt, hnew, hsince⟩ := h
  obtain ⟨hlt', hnew', hsince'⟩ := h'
  by_contra hne
  rcases Nat.lt_or_gt_of_ne hne with hbefore | hbefore
  · exact hnew' (hsince t' hbefore (Nat.le_of_lt hlt'))
  · exact hnew (hsince' t hbefore (Nat.le_of_lt hlt))

theorem Arrived.succ {k : K} {t : ℕ} (h : Arrived keysAt n k t) (hk : k ∈ keysAt (n + 1)) :
    Arrived keysAt (n + 1) k t := by
  obtain ⟨hlt, hnew, hsince⟩ := h
  refine ⟨Nat.lt_succ_of_lt hlt, hnew, fun j hj hle => ?_⟩
  rcases Nat.le_succ_iff.mp hle with hle | rfl
  · exact hsince j hj hle
  · exact hk

/-- The keys of the list have arrived, each before those behind it. -/
def InOrder (keysAt : ℕ → List K) (n : ℕ) (keys : List K) : Prop :=
  (∀ k ∈ keys, ∃ t, Arrived keysAt n k t) ∧
    keys.Pairwise fun k k' => ∀ t t', Arrived keysAt n k t → Arrived keysAt n k' t' → t < t'

theorem InOrder.succ {keys : List K} (h : InOrder keysAt n keys)
    (hmem : ∀ k ∈ keys, k ∈ keysAt (n + 1)) : InOrder keysAt (n + 1) keys := by
  obtain ⟨harrived, hsorted⟩ := h
  refine ⟨fun k hk => (harrived k hk).imp fun t ht => ht.succ (hmem k hk), ?_⟩
  refine hsorted.imp_of_mem fun {k k'} hk hk' hlt t t' ht ht' => ?_
  obtain ⟨s, hs⟩ := harrived k hk
  obtain ⟨s', hs'⟩ := harrived k' hk'
  rw [ht.unique (hs.succ (hmem k hk)), ht'.unique (hs'.succ (hmem k' hk'))]
  exact hlt s s' hs hs'

theorem InOrder.tail {keys : List K} (h : InOrder keysAt n keys) : InOrder keysAt n keys.tail :=
  ⟨fun k hk => h.1 k (List.mem_of_mem_tail hk), h.2.tail⟩

/-- A key that comes in goes behind those that were there. -/
theorem InOrder.concat {keys : List K} {k : K} (h : InOrder keysAt n keys)
    (hmem : ∀ k ∈ keys, k ∈ keysAt (n + 1)) (hnew : k ∉ keysAt n) (hlast : k ∈ keysAt (n + 1)) :
    InOrder keysAt (n + 1) (keys ++ [k]) := by
  have hk : Arrived keysAt (n + 1) k n := by
    refine ⟨Nat.lt_succ_self n, hnew, fun j hj hle => ?_⟩
    obtain rfl : j = n + 1 := Nat.le_antisymm hle hj
    exact hlast
  obtain ⟨harrived, hsorted⟩ := h.succ hmem
  constructor
  · intro k' hk'
    rcases List.mem_append.mp hk' with hold | hend
    · exact harrived k' hold
    · obtain rfl := List.mem_singleton.mp hend
      exact ⟨n, hk⟩
  · refine List.pairwise_append.mpr ⟨hsorted, List.pairwise_singleton _ _, ?_⟩
    intro k' hk' k'' hk'' t t' ht ht'
    obtain rfl := List.mem_singleton.mp hk''
    obtain ⟨s, hs⟩ := h.1 k' hk'
    rw [ht'.unique hk, ht.unique (hs.succ (hmem k' hk'))]
    exact hs.1

/-- **The keys stand in the order of their arrival**, whatever the steps. -/
theorem exists_arrivals (hzero : keysAt 0 = [])
    (hstep : ∀ j, j < n → Shifts (keysAt j) (keysAt (j + 1))) : InOrder keysAt n (keysAt n) := by
  induction n with
  | zero =>
    rw [hzero]
    exact ⟨fun _ hk => absurd hk List.not_mem_nil, .nil⟩
  | succ n ih =>
    have h := ih fun j hj => hstep j (Nat.lt_succ_of_lt hj)
    have hlast := hstep n (Nat.lt_succ_self n)
    generalize hkeys : keysAt n = keys at h hlast
    generalize hkeys' : keysAt (n + 1) = keys' at hlast
    cases hlast with
    | stays => exact h.succ fun k hk => hkeys'.symm ▸ hk
    | grows hnew =>
      refine h.concat (fun k hk => ?_) (hkeys.symm ▸ hnew) ?_
      · exact hkeys'.symm ▸ List.mem_append_left _ hk
      · exact hkeys'.symm ▸ List.mem_append_right _ List.mem_cons_self
    | moves hnew =>
      refine h.tail.concat (fun k hk => ?_) (hkeys.symm ▸ hnew) ?_
      · exact hkeys'.symm ▸ List.mem_append_left _ hk
      · exact hkeys'.symm ▸ List.mem_append_right _ List.mem_cons_self

/-- The key at the front arrived before all others. -/
theorem InOrder.head_lt {k : K} {keys : List K} (h : InOrder keysAt n (k :: keys)) {k' : K}
    (hk' : k' ∈ keys) {t t' : ℕ} (ht : Arrived keysAt n k t) (ht' : Arrived keysAt n k' t') :
    t < t' :=
  List.rel_of_pairwise_cons h.2 hk' t t' ht ht'

end FifoCache
