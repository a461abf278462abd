import N2nTun.Lib.Token

/-!
# Tokens in memory

`strtok` on the memory that a string lies in: it puts a zero behind the token it finds, and
remembers in a static variable where the next call goes on.  Calls that share the memory and the
variable come to the same as `Tokens.strtok` on the bytes of the strings.

## Main definitions

* `strAt` — the string at a place of the memory.
* `Scan` — the memory, and the place to go on at.
* `Scan.strtok` — `strtok`, where `none` stands for `NULL`.

## Main results

* `Scan.strtok_none`, `Scan.strtok_some` — **`strtok` in memory finds the tokens of the string**.
* `Found.keeps_before`, `Found.keeps_after` — strings outside of the one it works on are kept.
-/

namespace Tokens

/-! ### Strings in memory -/

/-- The string at a place of the memory. -/
def strAt (mem : List UInt8) (p : ℕ) : List UInt8 := (mem.drop p).takeWhile (· != 0)

theorem drop_takeWhile {P : UInt8 → Bool} (l : List UInt8) {i : ℕ}
    (h : i ≤ (l.takeWhile P).length) : (l.drop i).takeWhile P = (l.takeWhile P).drop i := by
  induction l generalizing i with
  | nil => simp
  | cons a l ih =>
    cases i with
    | zero => rfl
    | succ i =>
      by_cases ha : P a
      · rw [List.takeWhile_cons_of_pos ha] at h ⊢
        exact ih (Nat.le_of_succ_le_succ h)
      · rw [List.takeWhile_cons_of_neg ha] at h
        exact absurd h (Nat.not_succ_le_zero i)

theorem takeWhile_set_zero (l : List UInt8) (n : ℕ) :
    (l.set n 0).takeWhile (· != 0) = (l.takeWhile (· != 0)).take n := by
  induction l generalizing n with
  | nil => simp
  | cons a l ih =>
    cases n with
    | zero => simp
    | succ n =>
      rw [List.set_cons_succ]
      by_cases ha : a = 0
      · simp [ha]
      · simp [ha, ih]

section

variable {mem : List UInt8} {p e : ℕ}

theorem strAt_add {i : ℕ} (h : i ≤ (strAt mem p).length) :
    strAt mem (p + i) = (strAt mem p).drop i := by
  unfold strAt at h ⊢
  rw [← List.drop_drop, drop_takeWhile _ h]

theorem getD_eq_zero_iff : mem.getD p 0 = 0 ↔ strAt mem p = [] := by
  have hhead : mem.getD p 0 = (mem.drop p).headD 0 := by
    simp [List.getD_eq_getElem?_getD]
  rw [hhead]
  unfold strAt
  cases mem.drop p with
  | nil => simp
  | cons a l => by_cases ha : a = 0 <;> simp [ha]

/-- A zero in front of a string does not change it. -/
theorem strAt_set_of_lt (h : e < p) : strAt (mem.set e 0) p = strAt mem p := by
  unfold strAt
  rw [List.drop_set, if_pos h]

/-- A zero behind the start of a string ends it. -/
theorem strAt_set_of_le (h : p ≤ e) : strAt (mem.set e 0) p = (strAt mem p).take (e - p) := by
  unfold strAt
  rw [List.drop_set, if_neg (Nat.not_lt.mpr h), takeWhile_set_zero]

/-- A zero that is there already. -/
theorem set_zero_eq (h : mem.getD e 0 = 0) : mem.set e 0 = mem := by
  by_cases he : e < mem.length
  · have hget : mem[e] = 0 := by simpa [he] using h
    rw [← hget, List.set_getElem_self]
  · exact List.set_eq_of_length_le (Nat.not_lt.mp he)

end

/-! ### The calls -/

/-- The memory, and the static variable of `strtok`. -/
structure Scan where
  mem : List UInt8
  cursor : ℕ

namespace Scan

/-- `strtok`: the place of the first token of the string, which is the rest of the last one if none
is given; `none` for `NULL`. -/
def strtok (s : Scan) (str : Option ℕ) (delims : List UInt8) : Scan × Option ℕ :=
  let start := str.getD s.cursor
  let p := start + ((strAt s.mem start).takeWhile (delims.contains ·)).length
  if s.mem.getD p 0 = 0 then ({ s with cursor := p }, none)
  else
    let e := p + ((strAt s.mem p).takeWhile (!delims.contains ·)).length
    if s.mem.getD e 0 = 0 then ({ s with cursor := e }, some p)
    else (⟨s.mem.set e 0, e + 1⟩, some p)

/-- What a call leaves that finds `token` at `p`, in the string `str` that starts at `start`. -/
structure Found (s s' : Scan) (start : ℕ) (str token rest : List UInt8) (p : ℕ) : Prop where
  token_eq : strAt s'.mem p = token
  rest_eq : strAt s'.mem s'.cursor = rest
  start_le : start ≤ p
  le_cursor : p + token.length ≤ s'.cursor
  lt_cursor : rest ≠ [] → p + token.length < s'.cursor
  cursor_add : s'.cursor + rest.length = start + str.length
  mem_eq : s'.mem = s.mem.set (p + token.length) 0

/-- The string is kept that ends where the call begins. -/
theorem Found.keeps_before {s s' : Scan} {start p q : ℕ} {str token rest : List UInt8}
    (h : Found s s' start str token rest p) (hq : q + (strAt s.mem q).length ≤ start) :
    strAt s'.mem q = strAt s.mem q := by
  have hstart := h.start_le
  rw [h.mem_eq, strAt_set_of_le (by omega), List.take_of_length_le (by omega)]

/-- The string is kept that begins behind the one that is taken apart. -/
theorem Found.keeps_after {s s' : Scan} {start p q : ℕ} {str token rest : List UInt8}
    (h : Found s s' start str token rest p) (hq : start + str.length < q) :
    strAt s'.mem q = strAt s.mem q := by
  have hle := h.le_cursor
  have hadd := h.cursor_add
  rw [h.mem_eq, strAt_set_of_lt (by omega)]

section

variable (s : Scan) {str : Option ℕ} {delims : List UInt8}

theorem strAt_skip (P : UInt8 → Bool) (p : ℕ) :
    strAt s.mem (p + ((strAt s.mem p).takeWhile P).length) = (strAt s.mem p).dropWhile P := by
  have hle : ((strAt s.mem p).takeWhile P).length ≤ (strAt s.mem p).length :=
    (List.takeWhile_prefix P).length_le
  have hsplit : (strAt s.mem p).takeWhile P ++ (strAt s.mem p).dropWhile P = strAt s.mem p :=
    List.takeWhile_append_dropWhile
  rw [strAt_add hle]
  exact (congrArg (List.drop _) hsplit.symm).trans List.drop_left

/-- **A string of delimiters has no token.** -/
theorem strtok_none (h : Tokens.strtok delims (strAt s.mem (str.getD s.cursor)) = none) :
    (s.strtok str delims).2 = none ∧ (s.strtok str delims).1.mem = s.mem := by
  have hend : (strAt s.mem (str.getD s.cursor)).dropWhile (delims.contains ·) = [] := by
    unfold Tokens.strtok at h
    split at h
    · assumption
    · cases h
  unfold strtok
  dsimp only
  rw [if_pos (getD_eq_zero_iff.mpr ((s.strAt_skip _ _).trans hend))]
  exact ⟨rfl, rfl⟩

/-- **The token is found in memory**, and the rest of the string is where the next call goes on. -/
theorem strtok_some {token rest : List UInt8}
    (h : Tokens.strtok delims (strAt s.mem (str.getD s.cursor)) = some (token, rest)) :
    ∃ p, (s.strtok str delims).2 = some p ∧
      Found s (s.strtok str delims).1 (str.getD s.cursor) (strAt s.mem (str.getD s.cursor))
        token rest p := by
  generalize hstart : str.getD s.cursor = start at h ⊢
  obtain ⟨hne, htoken, hrest⟩ := Tokens.strtok_eq_some h
  -- the token begins at `p`
  have hp := s.strAt_skip (delims.contains ·) start
  have hlen := congrArg List.length (List.takeWhile_append_dropWhile
    (p := (delims.contains ·)) (l := strAt s.mem start))
  rw [List.length_append] at hlen
  rw [← hp] at hne htoken hrest hlen
  unfold strtok
  dsimp only
  rw [hstart]
  generalize hq : start + ((strAt s.mem start).takeWhile (delims.contains ·)).length = p
    at hne htoken hrest hlen ⊢
  rw [if_neg (mt getD_eq_zero_iff.mp hne), ← htoken]
  -- and what comes behind it begins at `p + token.length`
  have he := s.strAt_skip (!delims.contains ·) p
  have hcut : token ++ strAt s.mem (p + token.length) = strAt s.mem p := by
    rw [htoken, he]
    exact List.takeWhile_append_dropWhile
  have hlen' := congrArg List.length hcut
  rw [List.length_append] at hlen'
  rw [← htoken] at he
  rw [← he] at hrest
  have htok : strAt (s.mem.set (p + token.length) 0) p = token := by
    rw [strAt_set_of_le (Nat.le_add_right _ _), Nat.add_sub_cancel_left, ← hcut, List.take_left]
  refine ⟨p, ?_⟩
  split_ifs with hend
  · have hnil := getD_eq_zero_iff.mp hend
    rw [hnil] at hrest hlen'
    rw [set_zero_eq hend] at htok
    subst hrest
    refine ⟨rfl, htok, hnil, by omega, Nat.le_refl _, fun h => absurd rfl h, ?_,
      (set_zero_eq hend).symm⟩
    simp only [List.drop_nil, List.length_nil] at hlen' ⊢
    omega
  · have hpos : 1 ≤ (strAt s.mem (p + token.length)).length :=
      List.length_pos_iff.mpr (mt getD_eq_zero_iff.mpr hend)
    refine ⟨rfl, htok, ?_, by omega, Nat.le_succ _, fun _ => Nat.lt_succ_self _, ?_, rfl⟩
    · rw [strAt_set_of_lt (Nat.lt_succ_self _), hrest]
      exact strAt_add hpos
    · rw [hrest, List.length_drop]
      dsimp only
      omega

end

end Scan

end Tokens
