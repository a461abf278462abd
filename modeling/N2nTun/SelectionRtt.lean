import N2nTun.SnSelection
import N2nTun.StampOrder
import N2nTun.TransportState

/-!
# Selection by round-trip time

An edge keeps the ten highest bits of the low half of a time stamp when it sends its PINGs, and
subtracts them from those of a later stamp when a PONG arrives.  These bits are the microseconds
inside the second, in units of `2 ^ 10`: they start over with every second.  Once the stamps have
given up the microseconds, they count the stamps of the second, in units of `2 ^ 18`.

## Main definitions

* `RttEdge`, `RttPing` — an edge at a stamp; the edge at its PINGs and at two PONGs.
* `RttPing.Measures` — the criteria are the times that have gone by.
* `RttPing.KeepsTime` — when the bits of the stamps follow the clock.

## Main results

* `toNat_ticks` — what the bits show.
* `RttPing.measures_iff_of_accurate` — with the microseconds, in the same second only.
* `RttPing.measures_iff` — **when the criterion is the round-trip time.**
-/

namespace N2n

/-! ### What a stamp shows -/

/-- The ten bits that `sn_selection_criterion_calculate` keeps of a stamp. -/
def ticks (stamp : UInt64) : ℕ := (stamp.toUInt32 >>> 22).toNat

theorem ticks_eq (stamp : UInt64) : ticks stamp = stamp.toNat % 2 ^ 32 / 2 ^ 22 := by
  rw [ticks, UInt32.toNat_shiftRight, UInt64.toNat_toUInt32,
    show (22 : UInt32).toNat % 32 = 22 from rfl, Nat.shiftRight_eq_div_pow]

/-- The next stamp keeps the microseconds. -/
def Accurate (previous : UInt64) (tod : Tod) : Prop :=
  previous.toNat % 2 = 0 ∧ ¬ CounterFull previous tod

/-- The counter of the next stamp, if that has no microseconds. -/
def secondCounter (previous : UInt64) (tod : Tod) : ℕ :=
  if previous.toNat % 2 = 1 ∧ previous.toNat / 2 ^ 32 = tod.second then
    (previous.toNat % 2 ^ 32 / 16 + 1) % 2 ^ 28
  else 0

/-- A stamp that has been issued. -/
def WasIssued (stamp : UInt64) : Prop := ∃ tods : List Tod, stamp = tods.foldl timeStamp 0

/-- The low half of a stamp whose predecessor has no microseconds. -/
theorem timeStamp_low_of_odd {previous : UInt64} (hodd : previous.toNat % 2 = 1) (tod : Tod) :
    (timeStamp previous tod).toNat % 2 ^ 32 = secondCounter previous tod * 16 + 1 := by
  have hco : (previous <<< 63) >>> 63 = 1 := flag_eq_one hodd
  have hsame : previous &&& ~~~ 0xFFFFFFFF = tod.microSeconds &&& ~~~ 0xFFFFFFFF ↔
      previous.toNat / 2 ^ 32 = tod.second := by
    rw [← UInt64.toNat_inj, toNat_and_notCoarse, toNat_and_notCoarse, Tod.second]
    omega
  have hflag : ∀ p : Prop, [Decidable p] → ∀ q : Prop, [Decidable q] →
      (((if p then 1 else 0) &&& (if q then 1 else 0)) ||| 1 : UInt64) = 1 := by
    intro p _ q _
    split_ifs <;> decide
  -- bits are set in each half on its own
  have hlow : ∀ x y : UInt64, (x ||| y).toNat % 2 ^ 32 =
      x.toNat % 2 ^ 32 ||| y.toNat % 2 ^ 32 := by
    intro x y
    rw [UInt64.toNat_or, Nat.or_mod_two_pow]
  have hhigh : (tod.microSeconds &&& ~~~ 0xFFFFFFFF).toNat % 2 ^ 32 = 0 := by
    rw [toNat_and_notCoarse]
    omega
  have hone : (1 : UInt64).toNat % 2 ^ 32 = 1 := rfl
  unfold timeStamp
  dsimp only
  rw [hco, maskLo_one, ← Tod.microSeconds]
  simp only [hsame, and_neg_flag, hflag, maskLo_one]
  rw [hlow, hlow, hhigh, hone, Nat.zero_or, secondCounter]
  by_cases hs : previous.toNat / 2 ^ 32 = tod.second
  · have hcounter := toNat_counter (previous &&& 0xFFFFFFFF)
      (c := previous.toNat % 2 ^ 32 / 16) (by rw [toNat_and_coarse])
    have hcut : (previous.toNat % 2 ^ 32 / 16 + 1) * 16 % 2 ^ 64 % 2 ^ 32 =
        (previous.toNat % 2 ^ 32 / 16 + 1) % 2 ^ 28 * 16 := by omega
    simp only [if_pos hs]
    rw [hcounter, hcut, if_pos ⟨hodd, hs⟩]
    have hor := Nat.two_pow_add_eq_or_of_lt (i := 4) (b := 1) (by omega)
      ((previous.toNat % 2 ^ 32 / 16 + 1) % 2 ^ 28)
    rw [Nat.mul_comm] at hor
    exact hor.symm
  · have hcounter : (0 : UInt64) <<< 4 = 0 := by decide
    simp only [if_neg hs]
    rw [hcounter, if_neg fun h => hs h.2]
    rfl

/-- An issued stamp has its microseconds and its counter, or the flag. -/
theorem WasIssued.shape {stamp : UInt64} (h : WasIssued stamp) :
    (∃ m c, c < 256 ∧ stamp.toNat = m * 2 ^ 12 + c * 16) ∨ stamp.toNat % 2 = 1 := by
  obtain ⟨tods, rfl⟩ := h
  -- by induction on the calls, from any stamp of this shape
  suffices hshape : ∀ (tods : List Tod) (previous : UInt64),
      ((∃ m c, c < 256 ∧ previous.toNat = m * 2 ^ 12 + c * 16) ∨ previous.toNat % 2 = 1) →
      (∃ m c, c < 256 ∧ (tods.foldl timeStamp previous).toNat = m * 2 ^ 12 + c * 16) ∨
        (tods.foldl timeStamp previous).toNat % 2 = 1 from
    hshape tods 0 (.inl ⟨0, 0, by omega, rfl⟩)
  intro tods
  induction tods with
  | nil =>
    intro previous h
    exact h
  | cons tod tods ih =>
    intro previous h
    refine ih (timeStamp previous tod) ?_
    rcases h with ⟨m, c, hc, hprev⟩ | hodd
    · have hnext := timeStamp_fine hprev hc tod
      have hdvd := tod.microSeconds_dvd
      split_ifs at hnext with hm hfull
      · exact .inr (by omega)
      · exact .inl ⟨m, c + 1, by omega, hnext⟩
      · exact .inl ⟨tod.microSeconds.toNat / 2 ^ 12, 0, by omega, by omega⟩
    · have hlow := timeStamp_low_of_odd hodd tod
      exact .inr (by omega)

/-- The microseconds inside the word that `time_stamp` makes. -/
theorem Tod.microSeconds_low {tod : Tod} (h : tod.usec.toNat < 1000000) :
    tod.microSeconds.toNat % 2 ^ 32 = tod.usec.toNat * 2 ^ 12 := by
  have h32 : (32 : UInt64).toNat % 64 = 32 := rfl
  have h12 : (12 : UInt64).toNat % 64 = 12 := rfl
  rw [microSeconds, UInt64.toNat_add, UInt64.toNat_shiftLeft, UInt64.toNat_shiftLeft, h32, h12,
    Nat.shiftLeft_eq, Nat.shiftLeft_eq]
  omega

/-- **What the bits show**: units of `2 ^ 10` microseconds, or of `2 ^ 18` stamps. -/
theorem ticks_timeStamp {previous : UInt64} (hissued : WasIssued previous) {tod : Tod}
    (husec : tod.usec.toNat < 1000000) :
    (Accurate previous tod → ticks (timeStamp previous tod) = tod.usec.toNat / 2 ^ 10) ∧
      (¬ Accurate previous tod →
        ticks (timeStamp previous tod) = secondCounter previous tod / 2 ^ 18) := by
  have hlow := Tod.microSeconds_low husec
  have hdvd := tod.microSeconds_dvd
  rw [ticks_eq]
  rcases hissued.shape with ⟨m, c, hc, hprev⟩ | hodd
  · have heven : previous.toNat % 2 = 0 := by omega
    have hnext := timeStamp_fine hprev hc tod
    have hfull : CounterFull previous tod ↔ c = 255 ∧ m = tod.microSeconds.toNat / 2 ^ 12 := by
      have h4080 : (0xFF0 : UInt64).toNat = 4080 := rfl
      rw [CounterFull, ← UInt64.toNat_inj, ← UInt64.toNat_inj, toNat_and_fine, toNat_and_notFine,
        toNat_and_notFine, h4080]
      omega
    constructor
    · rintro ⟨-, hnot⟩
      split_ifs at hnext with hm h255
      · exact absurd (hfull.mpr ⟨h255, hm⟩) hnot
      · omega
      · omega
    · intro hnot
      have hgiven : CounterFull previous tod := not_not.mp fun h => hnot ⟨heven, h⟩
      obtain ⟨h255, hm⟩ := hfull.mp hgiven
      rw [if_pos hm, if_pos h255] at hnext
      rw [secondCounter, if_neg fun h => by omega]
      omega
  · have hstamp := timeStamp_low_of_odd hodd tod
    constructor
    · rintro ⟨heven, -⟩
      omega
    · intro _
      omega

/-! ### The criterion -/

instance (previous : UInt64) (tod : Tod) : Decidable (Accurate previous tod) :=
  inferInstanceAs (Decidable (_ ∧ ¬ (_ ∧ _)))

/-- An edge that reads the clock for its selection next. -/
structure RttEdge extends EdgeSelection where
  rtt : snSelectionStrategy = .rtt
  issued : WasIssued previouslyIssuedTimeStamp
  usec : env.tods.head.usec.toNat < 1000000

namespace RttEdge

/-- The time of day. -/
def now (e : RttEdge) : Tod := e.env.tods.head

/-- The time in microseconds. -/
def micros (e : RttEdge) : ℕ := e.now.sec.toNat * 1000000 + e.now.usec.toNat

/-- The stamp that is issued next keeps the microseconds. -/
def IsAccurate (e : RttEdge) : Prop := Accurate e.previouslyIssuedTimeStamp e.now

instance (e : RttEdge) : Decidable e.IsAccurate := inferInstanceAs (Decidable (Accurate _ _))

/-- What the ten bits show: microseconds of the second, or stamps of the second. -/
def shown (e : RttEdge) : ℕ :=
  if e.IsAccurate then e.now.usec.toNat / 2 ^ 10
  else secondCounter e.previouslyIssuedTimeStamp e.now / 2 ^ 18

theorem ticks_eq_shown (e : RttEdge) :
    ticks (timeStamp e.previouslyIssuedTimeStamp e.now) = e.shown := by
  obtain ⟨hfine, hcoarse⟩ := ticks_timeStamp e.issued e.usec
  unfold shown
  split_ifs with haccurate
  · exact hfine haccurate
  · exact hcoarse haccurate

theorem shown_lt (e : RttEdge) : e.shown < 1024 := by
  rw [← ticks_eq_shown, ticks_eq]
  omega

/-- The common data that the edge sets. -/
theorem commonData_default (e : RttEdge) :
    e.toEdgeSelection.commonDataDefault.commonData.toNat = e.shown := by
  rw [← ticks_eq_shown, EdgeSelection.commonDataDefault, e.rtt]
  exact UInt32.toNat_toUInt64 _

/-- The criterion is a wrapped difference. -/
theorem toNat_criterion (e : RttEdge) (o : ByteOrder) (p : ℕ) (data : UInt64) {shown : ℕ}
    (hcommon : e.commonData.toNat = shown) :
    (e.criterion o p data).2.toNat = (2 ^ 64 - shown + e.shown) % 2 ^ 64 := by
  rw [← ticks_eq_shown, EdgeSelection.criterion, e.rtt, ← hcommon]
  dsimp only
  rw [UInt64.toNat_sub, UInt32.toNat_toUInt64]
  rfl

end RttEdge

/-- The criterion is the elapsed time in units of `2 ^ 10` microseconds, up to one unit. -/
def IsElapsed (criterion : UInt64) (micros : ℕ) : Prop :=
  criterion.toNat * 1024 < micros + 1024 ∧ micros < criterion.toNat * 1024 + 1024

/-- The PINGs of an edge and two PONGs, all within a second: the common data is that which was set
with the PINGs. -/
structure RttPing where
  start : RttEdge
  first : RttEdge
  second : RttEdge
  firstCommon : first.commonData = start.toEdgeSelection.commonDataDefault.commonData
  secondCommon : second.commonData = start.toEdgeSelection.commonDataDefault.commonData
  after : start.micros ≤ first.micros
  inOrder : first.micros ≤ second.micros
  within : second.micros < start.micros + 1000000

namespace RttPing

/-- The criteria are the round-trip times, and the supernode that was faster has not the larger
one. -/
structure Measures (r : RttPing) (o : ByteOrder) (p q : ℕ) (data data' : UInt64) : Prop where
  first : IsElapsed (r.first.criterion o p data).2 (r.first.micros - r.start.micros)
  second : IsElapsed (r.second.criterion o q data').2 (r.second.micros - r.start.micros)
  order : (r.first.criterion o p data).2 ≤ (r.second.criterion o q data').2

/-- All three stamps have their microseconds. -/
def AllAccurate (r : RttPing) : Prop :=
  r.start.IsAccurate ∧ r.first.IsAccurate ∧ r.second.IsAccurate

/-- No second begins in between. -/
def SameSecond (r : RttPing) : Prop :=
  r.first.now.sec = r.start.now.sec ∧ r.second.now.sec = r.start.now.sec

/-- From one stamp to another, the bits advance with the clock. -/
def Follows (e e' : RttEdge) : Prop :=
  e.shown ≤ e'.shown ∧ (e'.shown - e.shown) * 1024 < e'.micros - e.micros + 1024 ∧
    e'.micros - e.micros < (e'.shown - e.shown) * 1024 + 1024

/-- **The bits of the stamps keep time**: with the microseconds, if no second begins in between;
without, if the stamps happen to be counted as fast as the time goes by. -/
structure KeepsTime (r : RttPing) : Prop where
  accurate : r.AllAccurate → r.SameSecond
  counted : ¬ r.AllAccurate → Follows r.start r.first ∧ Follows r.start r.second ∧
    r.first.shown ≤ r.second.shown

variable {o : ByteOrder} {p q : ℕ} {data data' : UInt64}

theorem isElapsed_iff {e e' : RttEdge}
    (hcommon : e'.commonData = e.toEdgeSelection.commonDataDefault.commonData)
    (hafter : e.micros ≤ e'.micros) (hwithin : e'.micros < e.micros + 1000000) :
    IsElapsed (e'.criterion o p data).2 (e'.micros - e.micros) ↔ Follows e e' := by
  have hcriterion := e'.toNat_criterion o p data (hcommon ▸ e.commonData_default)
  have hlt := e.shown_lt
  have hlt' := e'.shown_lt
  have helapsed : e'.micros - e.micros < 1000000 := by omega
  unfold IsElapsed Follows
  rw [hcriterion]
  generalize e'.micros - e.micros = elapsed at helapsed
  generalize e.shown = m at hlt
  generalize e'.shown = n at hlt'
  constructor
  · rintro ⟨hle, hge⟩
    have hshown : m ≤ n := by omega
    have hmod : (2 ^ 64 - m + n) % 2 ^ 64 = n - m := by omega
    rw [hmod] at hle hge
    exact ⟨hshown, hle, hge⟩
  · rintro ⟨hshown, hle, hge⟩
    have hmod : (2 ^ 64 - m + n) % 2 ^ 64 = n - m := by omega
    rw [hmod]
    exact ⟨hle, hge⟩

/-- In terms of the bits. -/
theorem measures_iff_follows (r : RttPing) : r.Measures o p q data data' ↔
    Follows r.start r.first ∧ Follows r.start r.second ∧ r.first.shown ≤ r.second.shown := by
  have hfirst := @isElapsed_iff o p data _ _ r.firstCommon r.after
    (r.inOrder.trans_lt r.within)
  have hsecond := @isElapsed_iff o q data' _ _ r.secondCommon
    (r.after.trans r.inOrder) r.within
  have hcriterion := r.first.toNat_criterion o p data (r.firstCommon ▸ r.start.commonData_default)
  have hcriterion' :=
    r.second.toNat_criterion o q data' (r.secondCommon ▸ r.start.commonData_default)
  have hlt := r.first.shown_lt
  have hlt' := r.second.shown_lt
  constructor
  · rintro ⟨h₁, h₂, horder⟩
    have hfollows := hfirst.mp h₁
    have hfollows' := hsecond.mp h₂
    refine ⟨hfollows, hfollows', ?_⟩
    rw [UInt64.le_iff_toNat_le, hcriterion, hcriterion'] at horder
    have hle := hfollows.1
    have hle' := hfollows'.1
    omega
  · rintro ⟨hfollows, hfollows', horder⟩
    refine ⟨hfirst.mpr hfollows, hsecond.mpr hfollows', ?_⟩
    rw [UInt64.le_iff_toNat_le, hcriterion, hcriterion']
    have hle := hfollows.1
    have hle' := hfollows'.1
    omega

/-- A difference in units is that of the units, up to one. -/
theorem units_elapsed {u v : ℕ} (h : u ≤ v) :
    (v / 2 ^ 10 - u / 2 ^ 10) * 1024 < v - u + 1024 ∧
      v - u < (v / 2 ^ 10 - u / 2 ^ 10) * 1024 + 1024 := by
  have hu := Nat.div_add_mod u (2 ^ 10)
  have hv := Nat.div_add_mod v (2 ^ 10)
  have hu' := Nat.mod_lt u (y := 2 ^ 10) (by omega)
  have hv' := Nat.mod_lt v (y := 2 ^ 10) (by omega)
  have hle := Nat.div_le_div_right (c := 2 ^ 10) h
  generalize u / 2 ^ 10 = a at hu hle ⊢
  generalize v / 2 ^ 10 = b at hv hle ⊢
  generalize u % 2 ^ 10 = c at hu hu'
  generalize v % 2 ^ 10 = d at hv hv'
  exact ⟨by omega, by omega⟩

/-- With the microseconds, from one stamp to another. -/
theorem follows_iff_of_accurate {e e' : RttEdge} (h : e.IsAccurate) (h' : e'.IsAccurate)
    (hafter : e.micros ≤ e'.micros) (hwithin : e'.micros < e.micros + 1000000) :
    Follows e e' ↔ e'.now.sec = e.now.sec := by
  have husec : e.now.usec.toNat < 1000000 := e.usec
  have husec' : e'.now.usec.toNat < 1000000 := e'.usec
  rw [← UInt64.toNat_inj]
  unfold Follows RttEdge.shown
  rw [if_pos h, if_pos h']
  unfold RttEdge.micros at hafter hwithin ⊢
  generalize e.now.sec.toNat = sec at hafter hwithin ⊢
  generalize e'.now.sec.toNat = sec' at hafter hwithin ⊢
  generalize e.now.usec.toNat = usec at husec hafter hwithin ⊢
  generalize e'.now.usec.toNat = usec' at husec' hafter hwithin ⊢
  constructor
  · rintro ⟨hshown, -, hge⟩
    omega
  · intro hsec
    subst hsec
    have hle : usec ≤ usec' := by omega
    have hsub : sec' * 1000000 + usec' - (sec' * 1000000 + usec) = usec' - usec := by omega
    rw [hsub]
    exact ⟨Nat.div_le_div_right hle, units_elapsed hle⟩

/-- **With the microseconds, in the same second only.** -/
theorem measures_iff_of_accurate (r : RttPing) (h : r.AllAccurate) :
    r.Measures o p q data data' ↔ r.SameSecond := by
  obtain ⟨hstart, hfirst, hsecond⟩ := h
  have hwithin := r.inOrder.trans_lt r.within
  rw [measures_iff_follows, follows_iff_of_accurate hstart hfirst r.after hwithin,
    follows_iff_of_accurate hstart hsecond (r.after.trans r.inOrder) r.within]
  constructor
  · rintro ⟨hsec, hsec', -⟩
    exact ⟨hsec, hsec'⟩
  · rintro ⟨hsec, hsec'⟩
    refine ⟨hsec, hsec', ?_⟩
    have horder := r.inOrder
    unfold RttEdge.micros at horder
    rw [hsec, hsec'] at horder
    unfold RttEdge.shown
    rw [if_pos hfirst, if_pos hsecond]
    omega

/-- **When the criterion is the round-trip time.** -/
theorem measures_iff (r : RttPing) : r.Measures o p q data data' ↔ r.KeepsTime := by
  by_cases h : r.AllAccurate
  · rw [measures_iff_of_accurate r h]
    exact ⟨fun hsame => ⟨fun _ => hsame, fun hnot => absurd h hnot⟩,
      fun hkeeps => hkeeps.accurate h⟩
  · rw [measures_iff_follows]
    exact ⟨fun hfollows => ⟨fun hall => absurd hall h, fun _ => hfollows⟩,
      fun hkeeps => hkeeps.counted h⟩

end RttPing

/-! ### A second begins -/

/-- An edge that has issued no stamp yet and selects by round-trip time. -/
def rttEdge (commonData : UInt64) (tod : Tod) (h : tod.usec.toNat < 1000000) : RttEdge where
  toEdge := { startedEdge false sparedSockets with
    env := { (startedEdge false sparedSockets).env with tods := Stream'.const tod } }
  snSelectionStrategy := .rtt
  commonData := commonData
  rtt := rfl
  issued := ⟨[], rfl⟩
  usec := h

/-- PINGs one millisecond before the end of a second, and two PONGs at its end. -/
def boundaryPing : RttPing where
  start := rttEdge 0 ⟨10, 999000⟩ (by decide)
  first := rttEdge 975 ⟨11, 0⟩ (by decide)
  second := rttEdge 975 ⟨11, 0⟩ (by decide)
  firstCommon := by decide
  secondCommon := by decide
  after := by decide
  inOrder := by decide
  within := by decide

/-- A round trip of one millisecond becomes the largest of all. -/
theorem not_measures_boundary : ¬ boundaryPing.Measures .little 0 1 0 0 := by
  intro h
  have hcriterion : (boundaryPing.first.criterion .little 0 0).2 = 0 - 975 := by decide
  have hless := h.first.1
  rw [hcriterion] at hless
  exact absurd hless (by decide)

end N2n
