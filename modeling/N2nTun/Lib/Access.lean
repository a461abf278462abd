import N2nTun.Lib.Bytes

/-!
# Memory accesses

A memory that keeps a record of what is read and written in it, for functions whose accesses are
to stay inside a buffer.  The memory itself has no end: an access behind the buffer is recorded
like any other.

## Main definitions

* `Memory`, `Memory.read`, `Memory.write` — the memory and its operations.
* `Memory.Within` — all accesses were to the first bytes.
* `Memory.Holds` — the memory begins with the bytes of a list.

## Main results

* `Memory.slice_write_before`, `Memory.slice_write_inside`, `Memory.slice_write_after` — what a
  write leaves and what it brings.
* `Memory.Within.read`, `Memory.Within.write` — accesses to the first bytes keep it so.
* `Memory.Holds.slice`, `Memory.Holds.write` — inside the list, the operations are those of lists.
-/

/-- Bytes, and the ranges that have been read or written, by offset and length. -/
structure Memory where
  bytes : ℕ → UInt8
  touched : List (ℕ × ℕ)

namespace Memory

/-- A memory that has not been accessed yet. -/
def of (bytes : ℕ → UInt8) : Memory := ⟨bytes, []⟩

/-- The bytes of a range. -/
def slice (m : Memory) (i n : ℕ) : List UInt8 := (List.range n).map fun k => m.bytes (i + k)

/-- A range is read. -/
def read (m : Memory) (i n : ℕ) : List UInt8 × Memory :=
  (m.slice i n, { m with touched := m.touched ++ [(i, n)] })

/-- Bytes are written. -/
def write (m : Memory) (i : ℕ) (p : List UInt8) : Memory where
  bytes k := if i ≤ k ∧ k < i + p.length then p.getD (k - i) 0 else m.bytes k
  touched := m.touched ++ [(i, p.length)]

/-- The memory after more of it has been read. -/
def after (m : Memory) (rs : List (ℕ × ℕ)) : Memory := { m with touched := m.touched ++ rs }

/-- Only the first `len` bytes have been read or written. -/
def Within (m : Memory) (len : ℕ) : Prop := ∀ r ∈ m.touched, r.2 = 0 ∨ r.1 + r.2 ≤ len

/-- The memory begins with the bytes of `p`. -/
def Holds (m : Memory) (p : List UInt8) : Prop := ∀ i < p.length, m.bytes i = p.getD i 0

@[simp] theorem length_slice (m : Memory) (i n : ℕ) : (m.slice i n).length = n := by
  simp [slice]

@[simp] theorem read_fst (m : Memory) (i n : ℕ) : (m.read i n).1 = m.slice i n := rfl

@[simp] theorem read_touched (m : Memory) (i n : ℕ) :
    (m.read i n).2.touched = m.touched ++ [(i, n)] := rfl

@[simp] theorem read_slice (m : Memory) (i n j k : ℕ) :
    (m.read i n).2.slice j k = m.slice j k := rfl

@[simp] theorem after_bytes (m : Memory) (rs : List (ℕ × ℕ)) : (m.after rs).bytes = m.bytes := rfl

@[simp] theorem after_touched (m : Memory) (rs : List (ℕ × ℕ)) :
    (m.after rs).touched = m.touched ++ rs := rfl

@[simp] theorem after_after (m : Memory) (rs rs' : List (ℕ × ℕ)) :
    (m.after rs).after rs' = m.after (rs ++ rs') := by
  simp [after]

@[simp] theorem write_touched (m : Memory) (i : ℕ) (p : List UInt8) :
    (m.write i p).touched = m.touched ++ [(i, p.length)] := rfl

theorem slice_add (m : Memory) (i a b : ℕ) :
    m.slice i (a + b) = m.slice i a ++ m.slice (i + a) b := by
  simp [slice, List.range_add, Function.comp_def, Nat.add_assoc]

/-- A slice depends on the bytes it covers. -/
theorem slice_congr {m m' : Memory} {i n : ℕ}
    (h : ∀ k, i ≤ k → k < i + n → m.bytes k = m'.bytes k) : m.slice i n = m'.slice i n := by
  apply List.map_congr_left
  intro k hk
  exact h (i + k) (by omega) (by have := List.mem_range.mp hk; omega)

/-- What is before a write stays. -/
theorem slice_write_before (m : Memory) {i j n : ℕ} (p : List UInt8) (h : j + n ≤ i) :
    (m.write i p).slice j n = m.slice j n :=
  slice_congr fun k _ hk => if_neg (by omega)

/-- What is behind a write stays. -/
theorem slice_write_after (m : Memory) {i j n : ℕ} (p : List UInt8) (h : i + p.length ≤ j) :
    (m.write i p).slice j n = m.slice j n :=
  slice_congr fun k _ _ => if_neg (by omega)

/-- What is inside a write comes from it. -/
theorem slice_write_inside (m : Memory) {i a n : ℕ} (p : List UInt8) (h : a + n ≤ p.length) :
    (m.write i p).slice (i + a) n = (p.drop a).take n := by
  rw [← Bytes.slice_eq_take_drop h]
  apply List.map_congr_left
  intro k hk
  have hlt := List.mem_range.mp hk
  show (if i ≤ i + a + k ∧ i + a + k < i + p.length then p.getD (i + a + k - i) 0
    else m.bytes (i + a + k)) = _
  rw [if_pos ⟨by omega, by omega⟩, show i + a + k - i = a + k by omega]

/-- What has been written is there. -/
@[simp] theorem slice_write_self (m : Memory) (i : ℕ) (p : List UInt8) :
    (m.write i p).slice i p.length = p := by
  have h := m.slice_write_inside (i := i) (a := 0) (n := p.length) p (by omega)
  rwa [Nat.add_zero, List.drop_zero, List.take_length] at h

section

variable {m : Memory} {len : ℕ}

theorem within_of (bytes : ℕ → UInt8) (len : ℕ) : (of bytes).Within len := by
  intro r hr
  cases hr

theorem Within.read (h : m.Within len) {i n : ℕ} (hin : i + n ≤ len) :
    (m.read i n).2.Within len := by
  intro r hr
  rw [read_touched] at hr
  rcases List.mem_append.mp hr with hold | hnew
  · exact h r hold
  · rw [List.mem_singleton.mp hnew]
    exact .inr hin

theorem Within.write (h : m.Within len) {i : ℕ} {p : List UInt8} (hin : i + p.length ≤ len) :
    (m.write i p).Within len := by
  intro r hr
  rw [write_touched] at hr
  rcases List.mem_append.mp hr with hold | hnew
  · exact h r hold
  · rw [List.mem_singleton.mp hnew]
    exact .inr hin

end

section

variable {m : Memory} {p : List UInt8}

theorem Holds.read (h : m.Holds p) (i n : ℕ) : (m.read i n).2.Holds p := h

/-- Reading inside the list. -/
theorem Holds.slice (h : m.Holds p) {i n : ℕ} (hin : i + n ≤ p.length) :
    m.slice i n = Bytes.slice p i n := by
  unfold Memory.slice Bytes.slice
  apply List.map_congr_left
  intro k hk
  exact h (i + k) (by have := List.mem_range.mp hk; omega)

/-- Writing inside the list. -/
theorem Holds.write (h : m.Holds p) {i : ℕ} {q : List UInt8} (hin : i + q.length ≤ p.length) :
    (m.write i q).Holds (Bytes.overwrite p i q) := by
  intro k hk
  rw [Bytes.length_overwrite hin] at hk
  have hi : i ≤ p.length := by omega
  show (if i ≤ k ∧ k < i + q.length then q.getD (k - i) 0 else m.bytes k) = _
  unfold Bytes.overwrite
  by_cases hbefore : k < i
  · rw [if_neg (by omega), h k hk, List.append_assoc, List.getD_append _ _ _ _ (by simp; omega)]
    simp [List.getD_eq_getElem?_getD, hbefore]
  · have htake : (p.take i).length = i := by rw [List.length_take, Nat.min_eq_left hi]
    by_cases hinside : k < i + q.length
    · rw [if_pos ⟨by omega, hinside⟩, List.append_assoc,
        List.getD_append_right _ _ _ _ (by omega), htake,
        List.getD_append _ _ _ _ (by omega)]
    · rw [if_neg (by omega), h k hk, List.append_assoc,
        List.getD_append_right _ _ _ _ (by omega), htake,
        List.getD_append_right _ _ _ _ (by omega)]
      rw [List.getD_eq_getElem?_getD, List.getD_eq_getElem?_getD, List.getElem?_drop]
      congr 2
      omega

end

end Memory
