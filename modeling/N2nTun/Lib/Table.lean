import Mathlib.Data.List.Nodup

/-!
# Intrusive hash tables

Tables of structures that are linked into the table themselves and are referred to
by their address, as the macros of `uthash` keep them: an entry is found through its
key, iterated over in the order of addition, changed in place through a pointer, and
may move to the end when its key changes.

A table is the list of its entries in that order, each with its address.  No two
entries have the same address, and a new entry gets an address that was never in use,
so that a pointer means one entry as long as the entry exists.

## Main definitions

* `Table` — the table.
* `Table.find?`, `Table.first?`, `Table.get?` — by key, by a scan, through a pointer.
* `Table.add`, `Table.modify`, `Table.del`, `Table.rekey`, `Table.sort` — the updates.

## Main results

* `mem_add`, `mem_modify`, `mem_del`, `mem_rekey`, `mem_sort` — the entries after each.
* `DistinctOn.of_kept`, `DistinctOn.add`, `DistinctOn.rekey` — keys stay distinct if a new one
  is looked up first; nothing else in the table sees to that.
-/

/-- The entries in the order of iteration, each with its address. -/
structure Table (α : Type) where
  entries : List (ℕ × α)
  next : ℕ
  fresh : ∀ e ∈ entries, e.1 < next
  nodup : (entries.map Prod.fst).Nodup

namespace Table

variable {α : Type}

theorem ext' {t u : Table α} (h : t.entries = u.entries) (hn : t.next = u.next) : t = u := by
  cases t
  cases u
  cases h
  cases hn
  rfl

instance [DecidableEq α] : DecidableEq (Table α) := fun t u =>
  decidable_of_iff (t.entries = u.entries ∧ t.next = u.next)
    ⟨fun h => ext' h.1 h.2, fun h => h ▸ ⟨rfl, rfl⟩⟩

/-- A table without entries. -/
def empty : Table α := ⟨[], 0, by simp, by simp⟩

instance : Inhabited (Table α) := ⟨empty⟩

/-- The structures in the table. -/
def values (t : Table α) : List α := t.entries.map Prod.snd

/-- The structure `a` is in the table. -/
instance : Membership α (Table α) := ⟨fun t a => a ∈ t.values⟩

theorem mem_def {t : Table α} {a : α} : a ∈ t ↔ ∃ p, (p, a) ∈ t.entries := by
  change a ∈ t.entries.map Prod.snd ↔ _
  simp

/-- The structure at an address. -/
def get? (t : Table α) (p : ℕ) : Option α := (t.entries.find? (·.1 == p)).map Prod.snd

/-- `HASH_FIND`: the entry with a key; of several the one that was added last. -/
def find? (t : Table α) (key : α → Bool) : Option (ℕ × α) := t.entries.reverse.find? (key ·.2)

/-- The first entry in the order of iteration that a scan stops at. -/
def first? (t : Table α) (stop : α → Bool) : Option (ℕ × α) := t.entries.find? (stop ·.2)

/-- `HASH_ADD`. -/
def add (t : Table α) (a : α) : Table α where
  entries := t.entries ++ [(t.next, a)]
  next := t.next + 1
  fresh := by
    intro e he
    rcases List.mem_append.mp he with h | h
    · exact Nat.lt_succ_of_lt (t.fresh e h)
    · rw [List.mem_singleton.mp h]
      exact Nat.lt_succ_self _
  nodup := by
    rw [List.map_append, List.nodup_append]
    refine ⟨t.nodup, by simp, ?_⟩
    rintro p hp q hq rfl
    obtain ⟨e, he, rfl⟩ := List.mem_map.mp hp
    have hlt := t.fresh e he
    simp at hq
    omega

/-- An update of one pair, if it is the one at the address. -/
def updateAt (p : ℕ) (f : α → α) (e : ℕ × α) : ℕ × α := if e.1 = p then (e.1, f e.2) else e

@[simp] theorem updateAt_fst (p : ℕ) (f : α → α) (e : ℕ × α) : (updateAt p f e).1 = e.1 := by
  unfold updateAt
  split_ifs <;> rfl

/-- A write through a pointer. -/
def modify (t : Table α) (p : ℕ) (f : α → α) : Table α where
  entries := t.entries.map (updateAt p f)
  next := t.next
  fresh := by
    intro e he
    obtain ⟨e', he', rfl⟩ := List.mem_map.mp he
    rw [updateAt_fst]
    exact t.fresh e' he'
  nodup := by
    have h : (t.entries.map (updateAt p f)).map Prod.fst = t.entries.map Prod.fst := by
      rw [List.map_map]
      exact List.map_congr_left fun e _ => updateAt_fst p f e
    rw [h]
    exact t.nodup

/-- `HASH_DEL`. -/
def del (t : Table α) (p : ℕ) : Table α where
  entries := t.entries.filter (·.1 != p)
  next := t.next
  fresh := fun e he => t.fresh e (List.mem_of_mem_filter he)
  nodup := (List.filter_sublist.map Prod.fst).nodup t.nodup

/-- `HASH_DEL`, a write to the structure, and `HASH_ADD` of the same structure. -/
def rekey (t : Table α) (p : ℕ) (f : α → α) : Table α where
  entries := (t.del p).entries ++ (t.entries.filter (·.1 == p)).map (updateAt p f)
  next := t.next
  fresh := by
    intro e he
    rcases List.mem_append.mp he with h | h
    · exact t.fresh e (List.mem_of_mem_filter h)
    · obtain ⟨e', he', rfl⟩ := List.mem_map.mp h
      rw [updateAt_fst]
      exact t.fresh e' (List.mem_of_mem_filter he')
  nodup := by
    have hfst : (Prod.fst ∘ updateAt p f : ℕ × α → ℕ) = Prod.fst :=
      funext fun e => updateAt_fst p f e
    rw [List.map_append, List.map_map, hfst, List.nodup_append]
    refine ⟨(t.del p).nodup, (List.filter_sublist.map Prod.fst).nodup t.nodup, ?_⟩
    rintro a ha b hb rfl
    obtain ⟨e, he, rfl⟩ := List.mem_map.mp ha
    obtain ⟨e', he', heq⟩ := List.mem_map.mp hb
    have h₁ := (List.mem_filter.mp he).2
    have h₂ := (List.mem_filter.mp he').2
    simp at h₁ h₂
    exact h₁ (heq ▸ h₂)

/-- `HASH_SORT`, a stable merge sort; `le a b` is `cmp(a, b) <= 0`. -/
def sort (t : Table α) (le : α → α → Bool) : Table α where
  entries := t.entries.mergeSort fun e e' => le e.2 e'.2
  next := t.next
  fresh := fun e he => t.fresh e ((List.mergeSort_perm _ _).mem_iff.mp he)
  nodup := (((List.mergeSort_perm _ _).map Prod.fst).nodup_iff).mpr t.nodup

/-- `HASH_SORT` by a number for each entry, given by address. -/
def sortOn (t : Table α) (rank : ℕ → ℕ) : Table α where
  entries := t.entries.mergeSort fun e e' => rank e.1 ≤ rank e'.1
  next := t.next
  fresh := fun e he => t.fresh e ((List.mergeSort_perm _ _).mem_iff.mp he)
  nodup := (((List.mergeSort_perm _ _).map Prod.fst).nodup_iff).mpr t.nodup

/-- The entries that a scan keeps. -/
def keep (t : Table α) (q : α → Bool) : Table α where
  entries := t.entries.filter (q ·.2)
  next := t.next
  fresh := fun e he => t.fresh e (List.mem_of_mem_filter he)
  nodup := (List.filter_sublist.map Prod.fst).nodup t.nodup

/-- A write to every structure of the table. -/
def mapValues (t : Table α) (f : α → α) : Table α where
  entries := t.entries.map fun e => (e.1, f e.2)
  next := t.next
  fresh := by
    intro e he
    obtain ⟨e', he', rfl⟩ := List.mem_map.mp he
    exact t.fresh e' he'
  nodup := by
    rw [List.map_map]
    exact t.nodup

/-! ### Finding entries -/

theorem get?_eq_some {t : Table α} {p : ℕ} {a : α} : t.get? p = some a ↔ (p, a) ∈ t.entries := by
  constructor
  · intro h
    obtain ⟨e, he, rfl⟩ := Option.map_eq_some_iff.mp h
    have hp : e.1 = p := by simpa using List.find?_some he
    rw [← hp]
    exact List.mem_of_find?_eq_some he
  · intro h
    -- the addresses are distinct, so that the first pair with this address is the one
    have hfind : ∃ e, t.entries.find? (·.1 == p) = some e := by
      rw [← Option.isSome_iff_exists, List.find?_isSome]
      exact ⟨(p, a), h, by simp⟩
    obtain ⟨e, he⟩ := hfind
    have hp : e.1 = p := by simpa using List.find?_some he
    have hea : e = (p, a) :=
      List.inj_on_of_nodup_map t.nodup (List.mem_of_find?_eq_some he) h hp
    rw [get?, he, hea]
    rfl

theorem mem_of_get? {t : Table α} {p : ℕ} {a : α} (h : t.get? p = some a) : a ∈ t :=
  mem_def.mpr ⟨p, get?_eq_some.mp h⟩

/-- What is found by its key is in the table and has the key. -/
theorem find?_eq_some {t : Table α} {key : α → Bool} {e : ℕ × α} (h : t.find? key = some e) :
    t.get? e.1 = some e.2 ∧ key e.2 = true :=
  ⟨get?_eq_some.mpr (List.mem_reverse.mp (List.mem_of_find?_eq_some h)),
    List.find?_some (p := fun e : ℕ × α => key e.2) h⟩

theorem find?_eq_none {t : Table α} {key : α → Bool} :
    t.find? key = none ↔ ∀ a ∈ t, key a = false := by
  unfold find?
  rw [List.find?_eq_none]
  constructor
  · intro h a ha
    obtain ⟨p, hp⟩ := mem_def.mp ha
    simpa using h (p, a) (List.mem_reverse.mpr hp)
  · intro h e he
    simp [h e.2 (mem_def.mpr ⟨e.1, List.mem_reverse.mp he⟩)]

theorem first?_eq_some {t : Table α} {stop : α → Bool} {e : ℕ × α} (h : t.first? stop = some e) :
    t.get? e.1 = some e.2 ∧ stop e.2 = true :=
  ⟨get?_eq_some.mpr (List.mem_of_find?_eq_some h),
    List.find?_some (p := fun e : ℕ × α => stop e.2) h⟩

theorem first?_eq_none {t : Table α} {stop : α → Bool} :
    t.first? stop = none ↔ ∀ a ∈ t, stop a = false := by
  unfold first?
  rw [List.find?_eq_none]
  constructor
  · intro h a ha
    obtain ⟨p, hp⟩ := mem_def.mp ha
    simpa using h (p, a) hp
  · intro h e he
    simp [h e.2 (mem_def.mpr ⟨e.1, he⟩)]

/-! ### Pointers after an update -/

@[simp] theorem get?_empty (q : ℕ) : (empty : Table α).get? q = none := rfl

theorem get?_add (t : Table α) (a : α) (q : ℕ) :
    (t.add a).get? q = if q = t.next then some a else t.get? q := by
  apply Option.ext
  intro b
  rw [get?_eq_some]
  simp only [add, List.mem_append, List.mem_singleton, Prod.mk.injEq]
  split_ifs with hq
  · -- the address is fresh, so that no old entry has it
    subst hq
    constructor
    · rintro (h | ⟨-, rfl⟩)
      · exact absurd (t.fresh _ h) (Nat.lt_irrefl _)
      · rfl
    · intro h
      exact Or.inr ⟨rfl, (Option.some.inj h).symm⟩
  · rw [get?_eq_some]
    simp [hq]

theorem get?_modify (t : Table α) (p : ℕ) (f : α → α) (q : ℕ) :
    (t.modify p f).get? q = if q = p then (t.get? q).map f else t.get? q := by
  apply Option.ext
  intro b
  rw [get?_eq_some]
  simp only [modify, List.mem_map, updateAt]
  split_ifs with hq
  · simp only [Option.map_eq_some_iff, get?_eq_some]
    constructor
    · rintro ⟨e, he, heq⟩
      split_ifs at heq with hp
      · exact ⟨e.2, by rw [hq, ← hp]; exact he, (Prod.mk.inj heq).2⟩
      · exact absurd (by rw [heq, hq]) hp
    · rintro ⟨a, ha, rfl⟩
      exact ⟨(q, a), ha, by rw [if_pos hq]⟩
  · rw [get?_eq_some]
    constructor
    · rintro ⟨e, he, heq⟩
      split_ifs at heq with hp
      · exact absurd ((Prod.mk.inj heq).1 ▸ hp) hq
      · exact heq ▸ he
    · intro h
      exact ⟨(q, b), h, by rw [if_neg hq]⟩

theorem get?_del (t : Table α) (p q : ℕ) :
    (t.del p).get? q = if q = p then none else t.get? q := by
  apply Option.ext
  intro b
  rw [get?_eq_some]
  simp only [del, List.mem_filter]
  split_ifs with hq
  · simp [hq]
  · rw [get?_eq_some]
    simp [hq]

theorem get?_rekey (t : Table α) (p : ℕ) (f : α → α) (q : ℕ) :
    (t.rekey p f).get? q = if q = p then (t.get? q).map f else t.get? q := by
  rw [← get?_modify]
  apply Option.ext
  intro b
  rw [get?_eq_some, get?_eq_some]
  simp only [rekey, modify, del, List.mem_append, List.mem_map, List.mem_filter]
  constructor
  · rintro (⟨h, hq⟩ | ⟨e, ⟨he, -⟩, heq⟩)
    · exact ⟨(q, b), h, by rw [updateAt, if_neg (by simpa using hq)]⟩
    · exact ⟨e, he, heq⟩
  · rintro ⟨e, he, heq⟩
    by_cases hp : e.1 = p
    · exact Or.inr ⟨e, ⟨he, by simpa using hp⟩, heq⟩
    · rw [updateAt, if_neg hp] at heq
      subst heq
      exact Or.inl ⟨he, by simpa using hp⟩

/-- Two writes through one pointer. -/
theorem modify_modify (t : Table α) (p : ℕ) (f g : α → α) :
    (t.modify p f).modify p g = t.modify p (g ∘ f) := by
  refine ext' ?_ rfl
  simp only [modify, List.map_map]
  refine List.map_congr_left ?_
  intro e _
  simp only [Function.comp_apply, updateAt]
  split_ifs <;> rfl

@[simp] theorem get?_sort (t : Table α) (le : α → α → Bool) (q : ℕ) :
    (t.sort le).get? q = t.get? q := by
  apply Option.ext
  intro b
  rw [get?_eq_some, get?_eq_some]
  exact (List.mergeSort_perm _ _).mem_iff

theorem get?_mapValues (t : Table α) (f : α → α) (q : ℕ) :
    (t.mapValues f).get? q = (t.get? q).map f := by
  apply Option.ext
  intro b
  rw [get?_eq_some, Option.map_eq_some_iff]
  simp only [mapValues, List.mem_map, Prod.mk.injEq, get?_eq_some]
  constructor
  · rintro ⟨e, he, rfl, rfl⟩
    exact ⟨e.2, he, rfl⟩
  · rintro ⟨a, ha, rfl⟩
    exact ⟨(q, a), ha, rfl, rfl⟩

theorem mem_iff_get? {t : Table α} {a : α} : a ∈ t ↔ ∃ p, t.get? p = some a := by
  simp only [mem_def, get?_eq_some]

theorem get?_next (t : Table α) : t.get? t.next = none := by
  rw [Option.eq_none_iff_forall_ne_some]
  intro a h
  exact absurd (t.fresh _ (get?_eq_some.mp h)) (Nat.lt_irrefl _)

theorem get?_modify_self {t : Table α} {p : ℕ} {f : α → α} {a : α} (h : t.get? p = some a) :
    (t.modify p f).get? p = some (f a) := by
  rw [get?_modify, if_pos rfl, h]
  rfl

theorem get?_modify_other {t : Table α} {p q : ℕ} (h : q ≠ p) (f : α → α) :
    (t.modify p f).get? q = t.get? q := by
  rw [get?_modify, if_neg h]

theorem get?_rekey_self {t : Table α} {p : ℕ} {f : α → α} {a : α} (h : t.get? p = some a) :
    (t.rekey p f).get? p = some (f a) := by
  rw [get?_rekey, if_pos rfl, h]
  rfl

/-- One entry has the address. -/
theorem filter_address {t : Table α} {p : ℕ} {a : α} (h : t.get? p = some a) :
    t.entries.filter (·.1 == p) = [(p, a)] := by
  have hmem := get?_eq_some.mp h
  have hnodup := t.nodup
  generalize t.entries = es at hmem hnodup
  induction es with
  | nil => cases hmem
  | cons e es ih =>
    rw [List.map_cons, List.nodup_cons] at hnodup
    rcases List.mem_cons.mp hmem with rfl | htail
    · have hrest : es.filter (·.1 == p) = [] := by
        rw [List.filter_eq_nil_iff]
        intro e he
        have hin : e.1 ∈ es.map Prod.fst := List.mem_map_of_mem he
        have hne : e.1 ≠ p := fun hp => hnodup.1 (hp ▸ hin)
        simpa using hne
      simp [hrest]
    · have hin : p ∈ es.map Prod.fst := List.mem_map_of_mem htail
      have hne : e.1 ≠ p := fun hp => hnodup.1 (hp ▸ hin)
      simpa [hne] using ih htail hnodup.2

/-- A structure that is hashed again is added last, where `HASH_FIND` looks first. -/
theorem find?_rekey_self {t : Table α} {p : ℕ} {f : α → α} {a : α} {key : α → Bool}
    (h : t.get? p = some a) (hkey : key (f a) = true) :
    (t.rekey p f).find? key = some (p, f a) := by
  have hentries : (t.rekey p f).entries = (t.del p).entries ++ [(p, f a)] := by
    show (t.del p).entries ++ (t.entries.filter (·.1 == p)).map (updateAt p f) = _
    rw [filter_address h]
    simp [updateAt]
  unfold find?
  rw [hentries, List.reverse_append, List.reverse_singleton, List.singleton_append]
  exact List.find?_cons_of_pos hkey

/-- `HASH_FIND` after `HASH_ADD`. -/
theorem find?_add (t : Table α) (a : α) (key : α → Bool) :
    (t.add a).find? key = if key a then some (t.next, a) else t.find? key := by
  unfold find? add
  rw [List.reverse_append, List.reverse_singleton, List.singleton_append, List.find?_cons]
  cases key a <;> rfl

/-- Only what is written to the structure at the address counts. -/
theorem modify_congr {t : Table α} {p : ℕ} {f g : α → α} {a : α} (h : t.get? p = some a)
    (hfg : f a = g a) : t.modify p f = t.modify p g := by
  refine ext' (List.map_congr_left fun e he => ?_) rfl
  unfold updateAt
  split_ifs with hp
  · have hea : some e.2 = some a := (get?_eq_some.mpr he).symm.trans (hp ▸ h)
    rw [Option.some.inj hea, hfg]
  · rfl

theorem modify_id (t : Table α) (p : ℕ) : t.modify p id = t := by
  have hid : updateAt p (id : α → α) = id := by
    funext e
    unfold updateAt
    split_ifs <;> rfl
  exact ext' (show t.entries.map (updateAt p id) = t.entries by rw [hid, List.map_id]) rfl

/-- A write changes nothing exactly if it writes what was there. -/
theorem modify_eq_self_iff {t : Table α} {p : ℕ} {f : α → α} {a : α} (h : t.get? p = some a) :
    t.modify p f = t ↔ f a = a := by
  constructor
  · intro heq
    have hself := get?_modify_self (f := f) h
    rw [heq, h] at hself
    exact (Option.some.inj hself).symm
  · intro hfa
    rw [modify_congr h (g := id) hfa, modify_id]

/-- A write that does not touch what a scan looks at does not change where the scan stops. -/
theorem updateAt_comp {p : ℕ} {f : α → α} {key : α → Bool} (h : ∀ a, key (f a) = key a) :
    (fun e : ℕ × α => key e.2) ∘ updateAt p f = fun e => key e.2 := by
  funext e
  rw [Function.comp_apply, updateAt]
  split_ifs
  · exact h e.2
  · rfl

theorem find?_modify (t : Table α) (p : ℕ) {f : α → α} {key : α → Bool}
    (h : ∀ a, key (f a) = key a) :
    (t.modify p f).find? key = (t.find? key).map (updateAt p f) := by
  unfold find? modify
  dsimp only
  rw [← List.map_reverse, List.find?_map, updateAt_comp h]

theorem first?_modify (t : Table α) (p : ℕ) {f : α → α} {stop : α → Bool}
    (h : ∀ a, stop (f a) = stop a) :
    (t.modify p f).first? stop = (t.first? stop).map (updateAt p f) := by
  unfold first? modify
  dsimp only
  rw [List.find?_map, updateAt_comp h]

/-! ### The entries after an update -/

theorem mem_add {t : Table α} {a b : α} : b ∈ t.add a ↔ b ∈ t ∨ b = a := by
  simp only [mem_def, add, List.mem_append, List.mem_singleton, Prod.mk.injEq]
  constructor
  · rintro ⟨p, h | ⟨-, rfl⟩⟩
    · exact Or.inl ⟨p, h⟩
    · exact Or.inr rfl
  · rintro (⟨p, h⟩ | rfl)
    · exact ⟨p, Or.inl h⟩
    · exact ⟨_, Or.inr ⟨rfl, rfl⟩⟩

/-- An entry after a write is an entry from before, or what the write made of the one
at the address. -/
theorem mem_modify {t : Table α} {p : ℕ} {f : α → α} {b : α} (h : b ∈ t.modify p f) :
    b ∈ t ∨ ∃ a, t.get? p = some a ∧ b = f a := by
  obtain ⟨q, hq⟩ := mem_def.mp h
  obtain ⟨e, he, heq⟩ := List.mem_map.mp hq
  unfold updateAt at heq
  split_ifs at heq with hp
  · refine Or.inr ⟨e.2, get?_eq_some.mpr (hp ▸ he), ?_⟩
    exact (Prod.mk.inj heq).2.symm
  · exact Or.inl (mem_def.mpr ⟨q, heq ▸ he⟩)

theorem mem_del {t : Table α} {p : ℕ} {b : α} (h : b ∈ t.del p) : b ∈ t := by
  obtain ⟨q, hq⟩ := mem_def.mp h
  exact mem_def.mpr ⟨q, List.mem_of_mem_filter hq⟩

theorem mem_rekey {t : Table α} {p : ℕ} {f : α → α} {b : α} (h : b ∈ t.rekey p f) :
    b ∈ t ∨ ∃ a, t.get? p = some a ∧ b = f a := by
  obtain ⟨q, hq⟩ := mem_def.mp h
  rcases List.mem_append.mp hq with h | h
  · exact Or.inl (mem_del (mem_def.mpr ⟨q, h⟩))
  · obtain ⟨e, he, heq⟩ := List.mem_map.mp h
    obtain ⟨hmem, hp⟩ := List.mem_filter.mp he
    have hp : e.1 = p := by simpa using hp
    rw [updateAt, if_pos hp] at heq
    exact Or.inr ⟨e.2, get?_eq_some.mpr (hp ▸ hmem), (Prod.mk.inj heq).2.symm⟩

/-- What is kept stays at its address. -/
theorem get?_of_keep {t : Table α} {q : α → Bool} {p : ℕ} {a : α}
    (h : (t.keep q).get? p = some a) : t.get? p = some a :=
  get?_eq_some.mpr (List.mem_of_mem_filter (get?_eq_some.mp h))

theorem mem_mapValues {t : Table α} {f : α → α} {b : α} :
    b ∈ t.mapValues f ↔ ∃ a ∈ t, f a = b := by
  simp only [mem_def, mapValues, List.mem_map, Prod.mk.injEq]
  constructor
  · rintro ⟨p, e, he, -, rfl⟩
    exact ⟨e.2, ⟨e.1, he⟩, rfl⟩
  · rintro ⟨a, ⟨p, hp⟩, rfl⟩
    exact ⟨p, (p, a), hp, rfl, rfl⟩

/-! ### What holds of every entry -/

section All

variable {P : α → Prop} {t : Table α}

/-- `P` holds of every entry. -/
def All (P : α → Prop) (t : Table α) : Prop := ∀ p a, t.get? p = some a → P a

theorem All.add (h : t.All P) {a : α} (ha : P a) : (t.add a).All P := by
  intro q b hget
  rw [get?_add] at hget
  split_ifs at hget
  · exact Option.some.inj hget ▸ ha
  · exact h q b hget

theorem All.del (h : t.All P) (p : ℕ) : (t.del p).All P := by
  intro q b hget
  rw [get?_del] at hget
  split_ifs at hget
  exact h q b hget

theorem All.sort (h : t.All P) (le : α → α → Bool) : (t.sort le).All P := by
  intro q b hget
  rw [get?_sort] at hget
  exact h q b hget

theorem All.modify (h : t.All P) (p : ℕ) {f : α → α} (hf : ∀ a, t.get? p = some a → P (f a)) :
    (t.modify p f).All P := by
  intro q b hget
  rw [get?_modify] at hget
  split_ifs at hget with hq
  · obtain ⟨a, ha, rfl⟩ := Option.map_eq_some_iff.mp hget
    exact hf a (hq ▸ ha)
  · exact h q b hget

theorem All.mapValues (h : t.All P) {f : α → α} (hf : ∀ a, P a → P (f a)) :
    (t.mapValues f).All P := by
  intro q b hget
  rw [get?_mapValues] at hget
  obtain ⟨a, ha, rfl⟩ := Option.map_eq_some_iff.mp hget
  exact hf a (h q a ha)

end All

/-! ### Distinct keys -/

section Distinct

variable {κ : Type} {key : α → κ} {P : κ → Prop}

/-- No two entries have the same key, of those keys that count. -/
def DistinctOn (t : Table α) (key : α → κ) (P : κ → Prop) : Prop :=
  ∀ q e q' e', t.get? q = some e → t.get? q' = some e' → key e = key e' → P (key e) → q = q'

theorem DistinctOn.empty : (Table.empty : Table α).DistinctOn key P := by
  intro q e q' e' h
  cases h

theorem DistinctOn.imp {Q : κ → Prop} {t : Table α} (h : t.DistinctOn key P)
    (hQ : ∀ k, Q k → P k) : t.DistinctOn key Q :=
  fun q e q' e' he he' heq hk => h q e q' e' he he' heq (hQ _ hk)

/-- Entries may go, and those that stay keep their keys. -/
theorem DistinctOn.of_kept {t t' : Table α} (h : t.DistinctOn key P)
    (hkept : ∀ q e', t'.get? q = some e' → ∃ e, t.get? q = some e ∧ key e' = key e) :
    t'.DistinctOn key P := by
  intro q e' q₂ e₂' he' he₂' heq hk
  obtain ⟨e, he, hkey⟩ := hkept q e' he'
  obtain ⟨e₂, he₂, hkey₂⟩ := hkept q₂ e₂' he₂'
  exact h q e q₂ e₂ he he₂ (by rw [← hkey, ← hkey₂, heq]) (hkey ▸ hk)

theorem DistinctOn.del {t : Table α} (h : t.DistinctOn key P) (p : ℕ) :
    (t.del p).DistinctOn key P := by
  refine h.of_kept fun q e' he' => ?_
  rw [get?_del] at he'
  split_ifs at he'
  exact ⟨e', he', rfl⟩

theorem DistinctOn.sort {t : Table α} (h : t.DistinctOn key P) (le : α → α → Bool) :
    (t.sort le).DistinctOn key P := by
  refine h.of_kept fun q e' he' => ?_
  rw [get?_sort] at he'
  exact ⟨e', he', rfl⟩

theorem DistinctOn.modify {t : Table α} (h : t.DistinctOn key P) (p : ℕ) {f : α → α}
    (hf : ∀ e, key (f e) = key e) : (t.modify p f).DistinctOn key P := by
  refine h.of_kept fun q e' he' => ?_
  rw [get?_modify] at he'
  split_ifs at he'
  · obtain ⟨e, he, rfl⟩ := Option.map_eq_some_iff.mp he'
    exact ⟨e, he, hf e⟩
  · exact ⟨e', he', rfl⟩

/-- One entry is new or has a new key, which no other entry has. -/
theorem DistinctOn.of_new {t t' : Table α} (h : t.DistinctOn key P) (q₀ : ℕ) (k : κ)
    (hold : ∀ q, q ≠ q₀ → t'.get? q = t.get? q)
    (hkey : ∀ e, t'.get? q₀ = some e → key e = k)
    (hnew : P k → ∀ q e, q ≠ q₀ → t.get? q = some e → key e ≠ k) : t'.DistinctOn key P := by
  intro q e q' e' he he' heq hk
  by_cases hq : q = q₀ <;> by_cases hq' : q' = q₀
  · rw [hq, hq']
  · subst hq
    rw [hold q' hq'] at he'
    have hkq := hkey e he
    exact absurd (heq.symm.trans hkq) (hnew (hkq ▸ hk) q' e' hq' he')
  · subst hq'
    rw [hold q hq] at he
    have hkq := hkey e' he'
    exact absurd (heq.trans hkq) (hnew (hkq ▸ heq ▸ hk) q e hq he)
  · rw [hold q hq] at he
    rw [hold q' hq'] at he'
    exact h q e q' e' he he' heq hk

theorem DistinctOn.add {t : Table α} (h : t.DistinctOn key P) {a : α}
    (hnew : P (key a) → ∀ e ∈ t, key e ≠ key a) : (t.add a).DistinctOn key P := by
  refine h.of_new t.next (key a) ?_ ?_ fun hk q e _ he => hnew hk e (mem_of_get? he)
  · intro q hq
    rw [get?_add, if_neg hq]
  · intro e he
    rw [get?_add, if_pos rfl] at he
    rw [Option.some.inj he]

theorem DistinctOn.rekey {t : Table α} (h : t.DistinctOn key P) (p : ℕ) {f : α → α} {k : κ}
    (hf : ∀ e, key (f e) = k) (hnew : P k → ∀ e ∈ t, key e ≠ k) :
    (t.rekey p f).DistinctOn key P := by
  refine h.of_new p k ?_ ?_ fun hk q e _ he => hnew hk e (mem_of_get? he)
  · intro q hq
    rw [get?_rekey, if_neg hq]
  · intro e he
    rw [get?_rekey, if_pos rfl] at he
    obtain ⟨e₀, -, rfl⟩ := Option.map_eq_some_iff.mp he
    exact hf e₀

end Distinct

end Table
