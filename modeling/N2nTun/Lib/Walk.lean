import N2nTun.Lib.Table

/-!
# Walks along the links of a table

`HASH_ITER` follows the links that the structures carry.  The successor of a structure is read
before the body of the loop, so that the body may remove the structure it was given; if it freed
another one, the walk could come to an address where nothing is left.

A walk is a function of the address it has come to.  It gives `none` where a structure is read
that is not in the table, and the body gives `none` where it does so itself.

## Main definitions

* `Table.succ` — the link to the next structure.
* `Table.iter` — the walk.
* `Table.Touches` — an update that leaves all structures but one alone.

## Main results

* `Table.iter_eq_foldl` — **a walk whose body only touches the structure it was given reads no
  structure that has been freed**, and goes through the entries there were at first.
* `Table.get?_foldl_own` — what becomes of an entry if each is dealt with by itself.
-/

namespace Table

variable {α σ : Type}

/-- The link of the structure at `p`. -/
def succ (t : Table α) (p : ℕ) : Option ℕ :=
  ((t.entries.dropWhile (·.1 != p)).tail.head?).map Prod.fst

/-- The first structure. -/
def head? (t : Table α) : Option (ℕ × α) := t.entries.head?

/-- `HASH_ITER` from an address on, over the table that `read` finds in the state. -/
def iterFrom (read : σ → Table α) (body : σ → ℕ → α → Option σ) : ℕ → Option ℕ → σ → Option σ
  | _, none, s => some s
  | 0, some _, _ => none
  | fuel + 1, some p, s =>
    ((read s).get? p).bind fun a =>
      (body s p a).bind fun s' => iterFrom read body fuel ((read s).succ p) s'

/-- `HASH_ITER`. -/
def iter (read : σ → Table α) (body : σ → ℕ → α → Option σ) (s : σ) : Option σ :=
  iterFrom read body (read s).entries.length ((read s).head?.map Prod.fst) s

/-- All structures but the one at `p` are what and where they were, and this one is still where it
was, or has been removed. -/
def Touches (t t' : Table α) (p : ℕ) : Prop :=
  (∃ f, t'.entries = (t.modify p f).entries) ∨ t'.entries = (t.del p).entries

/-- A structure is written to, and then removed. -/
theorem del_modify (t : Table α) (p : ℕ) (f : α → α) : (t.modify p f).del p = t.del p := by
  refine ext' ?_ rfl
  show (t.entries.map (updateAt p f)).filter (·.1 != p) = t.entries.filter (·.1 != p)
  rw [List.filter_map]
  have hcomp : (fun e : ℕ × α => e.1 != p) ∘ updateAt p f = fun e => e.1 != p := by
    funext e
    rw [Function.comp_apply, updateAt_fst]
  rw [hcomp]
  conv_rhs => rw [← List.map_id (t.entries.filter (·.1 != p))]
  refine List.map_congr_left fun e he => ?_
  have hne : e.1 ≠ p := by simpa using (List.mem_filter.mp he).2
  rw [updateAt, if_neg hne]
  rfl

theorem Touches.refl (t : Table α) (p : ℕ) : t.Touches t p :=
  Or.inl ⟨id, by rw [modify_id]⟩

/-- The address `p` in the middle of a list of entries. -/
theorem ne_of_split {t : Table α} {pre rest : List (ℕ × α)} {e : ℕ × α}
    (h : t.entries = pre ++ e :: rest) : (∀ e' ∈ pre, e'.1 ≠ e.1) ∧ ∀ e' ∈ rest, e'.1 ≠ e.1 := by
  have hnodup := t.nodup
  rw [h, List.map_append, List.map_cons, List.nodup_append] at hnodup
  obtain ⟨-, hrest, hdisj⟩ := hnodup
  rw [List.nodup_cons] at hrest
  refine ⟨fun e' he' => ?_, fun e' he' heq => ?_⟩
  · exact hdisj _ (List.mem_map_of_mem he') _ List.mem_cons_self
  · exact hrest.1 (heq ▸ List.mem_map_of_mem he')

/-- The link of a structure leads to the one behind it. -/
theorem succ_of_split {t : Table α} {pre rest : List (ℕ × α)} {e : ℕ × α}
    (h : t.entries = pre ++ e :: rest) : t.succ e.1 = rest.head?.map Prod.fst := by
  have hpre : ∀ e' ∈ pre, (e'.1 != e.1) = true := by
    intro e' he'
    simpa using (ne_of_split h).1 e' he'
  unfold succ
  rw [h, List.dropWhile_append_of_pos hpre]
  simp

/-- The structures behind the one that is touched stay behind it, or behind those before it. -/
theorem Touches.split {t t' : Table α} {pre rest : List (ℕ × α)} {e : ℕ × α}
    (h : t.entries = pre ++ e :: rest) (ht : t.Touches t' e.1) :
    ∃ pre', t'.entries = pre' ++ rest := by
  obtain ⟨-, hrest⟩ := ne_of_split h
  rcases ht with ⟨f, hf⟩ | hdel
  · have hmap : rest.map (updateAt e.1 f) = rest := by
      conv_rhs => rw [← List.map_id rest]
      refine List.map_congr_left fun e' he' => ?_
      rw [updateAt, if_neg (hrest e' he')]
      rfl
    refine ⟨(pre ++ [e]).map (updateAt e.1 f), ?_⟩
    rw [hf]
    show t.entries.map (updateAt e.1 f) = _
    rw [h]
    simp [hmap]
  · have hfilter : rest.filter (·.1 != e.1) = rest := by
      rw [List.filter_eq_self]
      intro e' he'
      simpa using hrest e' he'
    refine ⟨pre.filter (·.1 != e.1), ?_⟩
    rw [hdel]
    show t.entries.filter (·.1 != e.1) = _
    rw [h, List.filter_append, List.filter_cons, hfilter]
    simp

/-- **A walk whose body only touches the structure it was given reads no structure that has been
freed.**  The invariant is that the entries not visited yet are at the end of the table. -/
theorem iterFrom_eq_foldl {read : σ → Table α} {body : σ → ℕ → α → Option σ}
    {step : σ → ℕ × α → σ} {I : σ → Prop}
    (hbody : ∀ s e, I s → (read s).get? e.1 = some e.2 → body s e.1 e.2 = some (step s e) ∧
      (read s).Touches (read (step s e)) e.1 ∧ I (step s e))
    (rest : List (ℕ × α)) (fuel : ℕ) (hfuel : rest.length ≤ fuel) (s : σ) (hs : I s)
    (pre : List (ℕ × α)) (h : (read s).entries = pre ++ rest) :
    iterFrom read body fuel (rest.head?.map Prod.fst) s = some (rest.foldl step s) := by
  induction rest generalizing fuel s pre with
  | nil => cases fuel <;> rfl
  | cons e rest ih =>
    obtain ⟨fuel, rfl⟩ : ∃ n, fuel = n + 1 := ⟨fuel - 1, by simp at hfuel; omega⟩
    have hget : (read s).get? e.1 = some e.2 := get?_eq_some.mpr (by rw [h]; simp)
    obtain ⟨hstep, htouch, hI⟩ := hbody s e hs hget
    obtain ⟨pre', hpre'⟩ := htouch.split h
    have hnext := ih fuel (by simpa using hfuel) (step s e) hI pre' hpre'
    show ((read s).get? e.1).bind _ = _
    rw [hget, Option.bind_some, hstep, Option.bind_some, succ_of_split h, hnext]
    rfl

theorem iter_eq_foldl {read : σ → Table α} {body : σ → ℕ → α → Option σ}
    {step : σ → ℕ × α → σ} {I : σ → Prop}
    (hbody : ∀ s e, I s → (read s).get? e.1 = some e.2 → body s e.1 e.2 = some (step s e) ∧
      (read s).Touches (read (step s e)) e.1 ∧ I (step s e)) (s : σ) (hs : I s) :
    iter read body s = some ((read s).entries.foldl step s) :=
  iterFrom_eq_foldl hbody (read s).entries _ (Nat.le_refl _) s hs [] rfl

/-! ### What a walk leaves behind -/

/-- Removing the structures of a list from a table, one by one, if they are not to stay. -/
theorem foldl_del (stays : α → Bool) (es : List (ℕ × α)) (t : Table α) :
    (es.foldl (fun t e => if stays e.2 then t else t.del e.1) t).entries =
      t.entries.filter fun e => !(es.any fun e' => e'.1 == e.1 && !stays e'.2) := by
  induction es generalizing t with
  | nil => simp
  | cons e es ih =>
    rw [List.foldl_cons, ih]
    cases hstays : stays e.2 with
    | true =>
      refine List.filter_congr fun e' _ => ?_
      simp [hstays]
    | false =>
      show ((t.del e.1).entries).filter _ = _
      unfold del
      rw [List.filter_filter]
      refine List.filter_congr fun e' _ => ?_
      by_cases hp : e.1 = e'.1
      · simp [hp, hstays]
      · have hp' : (e.1 == e'.1) = false := by simpa using hp
        simp [hp', Ne.symm hp]

theorem foldl_del_next (stays : α → Bool) (es : List (ℕ × α)) (t : Table α) :
    (es.foldl (fun t e => if stays e.2 then t else t.del e.1) t).next = t.next := by
  induction es generalizing t with
  | nil => rfl
  | cons e es ih =>
    rw [List.foldl_cons, ih]
    split_ifs <;> rfl

/-- **A walk that removes what is not to stay leaves what is to stay.** -/
theorem foldl_del_eq_keep (stays : α → Bool) (t : Table α) :
    t.entries.foldl (fun t e => if stays e.2 then t else t.del e.1) t = t.keep stays := by
  refine ext' ?_ (foldl_del_next stays _ t)
  rw [foldl_del]
  refine List.filter_congr fun e he => ?_
  have hany : (t.entries.any fun e' => e'.1 == e.1 && !stays e'.2) = !stays e.2 := by
    rw [Bool.eq_iff_iff, List.any_eq_true]
    constructor
    · rintro ⟨e', he', hcond⟩
      rw [Bool.and_eq_true, beq_iff_eq] at hcond
      rw [← List.inj_on_of_nodup_map t.nodup he' he hcond.1]
      exact hcond.2
    · intro hno
      exact ⟨e, he, by simpa using hno⟩
  rw [hany, Bool.not_not]

/-- **A walk in which every entry is dealt with by itself**: what becomes of an entry only depends
on it. -/
theorem get?_foldl_own {body : Table α → ℕ → α → Table α} {g : α → Option α}
    (hown : ∀ t p a, t.get? p = some a → (body t p a).get? p = g a)
    (hother : ∀ t p a q, q ≠ p → (body t p a).get? q = t.get? q) (t : Table α) (q : ℕ) :
    (t.entries.foldl (fun t e => body t e.1 e.2) t).get? q = (t.get? q).bind g := by
  -- the entries still to come are as they were, and those behind have been dealt with
  suffices hloop : ∀ (es : List (ℕ × α)) (t : Table α), (es.map Prod.fst).Nodup →
      (∀ e ∈ es, t.get? e.1 = some e.2) →
      (es.foldl (fun t e => body t e.1 e.2) t).get? q =
        if q ∈ es.map Prod.fst then (t.get? q).bind g else t.get? q by
    rw [hloop t.entries t t.nodup fun e he => get?_eq_some.mpr he]
    split_ifs with hq
    · rfl
    · cases hget : t.get? q with
      | none => rfl
      | some a => exact absurd (List.mem_map_of_mem (get?_eq_some.mp hget)) hq
  intro es
  induction es with
  | nil => intro t _ _; simp
  | cons e es ih =>
    intro t hnodup hes
    rw [List.map_cons, List.nodup_cons] at hnodup
    have hrest : ∀ e' ∈ es, (body t e.1 e.2).get? e'.1 = some e'.2 := by
      intro e' he'
      have hne : e'.1 ≠ e.1 := fun heq => hnodup.1 (heq ▸ List.mem_map_of_mem he')
      rw [hother t e.1 e.2 _ hne]
      exact hes e' (List.mem_cons_of_mem _ he')
    rw [List.foldl_cons, ih _ hnodup.2 hrest]
    by_cases hq : q = e.1
    · subst hq
      rw [if_neg hnodup.1, if_pos (by simp), hown t _ _ (hes e List.mem_cons_self),
        hes e List.mem_cons_self]
      rfl
    · simp only [List.map_cons, List.mem_cons, hq, false_or, hother t e.1 e.2 q hq]

/-- The entry at the front is removed. -/
theorem del_head {t : Table α} {e : ℕ × α} {rest : List (ℕ × α)} (h : t.entries = e :: rest) :
    (t.del e.1).entries = rest := by
  have hrest : rest.filter (·.1 != e.1) = rest := by
    rw [List.filter_eq_self]
    intro e' he'
    have hne := (ne_of_split (show t.entries = [] ++ e :: rest from h)).2 e' he'
    simpa using hne
  show t.entries.filter (·.1 != e.1) = rest
  rw [h, List.filter_cons_of_neg (by simp), hrest]

/-- A walk that looks at the first structure instead of its own: **it stops to remove anything at
the first one that is to stay.** -/
theorem foldl_del_head (stays : α → Bool) (t : Table α) :
    (t.entries.foldl (fun t e =>
      match t.head? with
      | some head => if stays head.2 then t else t.del e.1
      | none => t) t).entries = t.entries.dropWhile (!stays ·.2) := by
  suffices hloop : ∀ (es : List (ℕ × α)) (t : Table α),
      (∀ head, t.head? = some head → stays head.2 = true) ∨ t.entries = es →
      (es.foldl (fun t e =>
        match t.head? with
        | some head => if stays head.2 then t else t.del e.1
        | none => t) t).entries = t.entries.dropWhile (!stays ·.2) from
    hloop t.entries t (Or.inr rfl)
  -- the first structure is to stay
  have hstay : ∀ (es : List (ℕ × α)) (t : Table α),
      (∀ head, t.head? = some head → stays head.2 = true) →
      es.foldl (fun t e =>
        match t.head? with
        | some head => if stays head.2 then t else t.del e.1
        | none => t) t = t := by
    intro es t hhead
    induction es with
    | nil => rfl
    | cons e es ih =>
      rw [List.foldl_cons]
      cases h : t.head? with
      | none => exact ih
      | some head =>
        simp only [hhead head h, if_true]
        exact ih
  intro es
  induction es with
  | nil =>
    rintro t (hhead | hnil)
    · rw [List.foldl_nil]
      cases hent : t.entries with
      | nil => rfl
      | cons e rest =>
        have hfirst : stays e.2 = true := hhead e (by rw [head?, hent]; rfl)
        rw [List.dropWhile_cons_of_neg (by simp [hfirst])]
    · simp [hnil]
  | cons e es ih =>
    rintro t (hhead | hent)
    · rw [hstay _ t hhead]
      cases hent : t.entries with
      | nil => rfl
      | cons e rest =>
        have hfirst : stays e.2 = true := hhead e (by rw [head?, hent]; rfl)
        rw [List.dropWhile_cons_of_neg (by simp [hfirst])]
    · have hhead : t.head? = some e := by rw [head?, hent]; rfl
      rw [List.foldl_cons, hhead, hent]
      dsimp only
      cases hfirst : stays e.2 with
      | true =>
        rw [if_pos rfl, hstay es t, hent, List.dropWhile_cons_of_neg (by simp [hfirst])]
        intro head h
        obtain rfl := Option.some.inj (hhead.symm.trans h)
        exact hfirst
      | false =>
        rw [if_neg Bool.false_ne_true, List.dropWhile_cons_of_pos (by simp [hfirst]),
          ih (t.del e.1) (Or.inr (del_head hent)), del_head hent]

end Table
