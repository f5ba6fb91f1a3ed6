import DecAustrum.Python.Datetime
import Mathlib.Data.List.Lex
import Mathlib.Order.Monotone.Basic

/-!
# The order of timestamps

The texts of two datetimes in UTC are ordered as the moments they denote: every field has a fixed
width, and `+` of the zone comes before `.` of a fraction.
-/
namespace DecAustrum.Python

/-! ## Texts of one width -/

section

variable {α : Type} [LinearOrder α]

theorem append_lt_of_lt {a b : List α} (same : a.length = b.length) (below : a < b) (s t : List α) :
    a ++ s < b ++ t := by
  induction a generalizing b with
  | nil =>
    obtain rfl := List.length_eq_zero_iff.mp same.symm
    exact absurd below (lt_irrefl _)
  | cons x a ih =>
    cases b with
    | nil => cases same
    | cons y b =>
      rw [List.cons_lt_cons_iff] at below
      rw [List.cons_append, List.cons_append, List.cons_lt_cons_iff]
      rcases below with first | ⟨rfl, later⟩
      · exact .inl first
      · exact .inr ⟨rfl, ih (Nat.succ.inj same) later⟩

theorem append_lt_append_left (a : List α) {s t : List α} (below : s < t) : a ++ s < a ++ t := by
  induction a with
  | nil => exact below
  | cons x a ih => exact List.cons_lt_cons_iff.mpr (.inr ⟨rfl, ih⟩)

end

theorem digitChar_lt (d e : Nat) (below : d < e) (small : e < 16) : digitChar d < digitChar e := by
  rw [Fin.lt_def, digitChar_val d (by omega), digitChar_val e small]
  split <;> split <;> omega

theorem padded_lt (base width m n : Nat) (small : 0 < base ∧ base ≤ 16) (below : m < n)
    (bound : n < base ^ width) : padded base width m < padded base width n := by
  induction width generalizing m n with
  | zero =>
    rw [pow_zero] at bound
    omega
  | succ width ih =>
    rw [padded, padded]
    rcases Nat.lt_or_ge (m / base) (n / base) with high | low
    · apply append_lt_of_lt (by simp)
      exact ih _ _ high (Nat.div_lt_of_lt_mul (by rwa [pow_succ, Nat.mul_comm] at bound))
    · -- the high digits agree, so the last digit decides
      have high : m / base = n / base :=
        le_antisymm (Nat.div_le_div_right below.le) low
      rw [high]
      apply append_lt_append_left
      have mSplit := Nat.div_add_mod m base
      have nSplit := Nat.div_add_mod n base
      have digit : m % base < n % base := by
        rw [high] at mSplit
        omega
      exact List.cons_lt_cons_iff.mpr (.inl (digitChar_lt _ _ digit
        ((Nat.mod_lt n small.1).trans_le small.2)))

namespace Datetime

/-! ## Moments -/

theorem daysInMonth_le (year month : Nat) : daysInMonth year month ≤ 31 := by
  unfold daysInMonth
  split
  · split <;> omega
  · split <;> omega

theorem daysBeforeMonth_mono (year : Nat) : Monotone (daysBeforeMonth year) := by
  apply monotone_nat_of_le_succ
  intro month
  cases month with
  | zero => exact Nat.le_refl 0
  | succ month => exact Nat.le_add_right _ _

theorem daysBeforeMonth_succ (year month : Nat) (positive : 1 ≤ month) :
    daysBeforeMonth year (month + 1) = daysBeforeMonth year month + daysInMonth year month := by
  cases month with
  | zero => cases positive
  | succ month => rfl

theorem daysBeforeYear_succ (year : Nat) (positive : 1 ≤ year) :
    daysBeforeYear (year + 1) = daysBeforeYear year + if isLeap year then 366 else 365 := by
  obtain ⟨before, rfl⟩ := Nat.exists_eq_add_of_le' positive
  have fours : before / 100 ≤ before / 4 := Nat.div_le_div_left (by decide) (by decide)
  have leap : isLeap (before + 1) = true ↔
      4 ∣ before + 1 ∧ (¬ 100 ∣ before + 1 ∨ 400 ∣ before + 1) := by
    simp [isLeap, Nat.dvd_iff_mod_eq_zero]
  simp only [daysBeforeYear, Nat.add_sub_cancel, Nat.succ_div, leap]
  by_cases four : 4 ∣ before + 1
  · by_cases hundred : 100 ∣ before + 1
    · by_cases fourHundred : 400 ∣ before + 1 <;> simp [four, hundred, fourHundred] <;> omega
    · have fourHundred : ¬ 400 ∣ before + 1 := fun divides => hundred (dvd_trans (by decide) divides)
      simp [four, hundred, fourHundred]
      omega
  · have hundred : ¬ 100 ∣ before + 1 := fun divides => four (dvd_trans (by decide) divides)
    have fourHundred : ¬ 400 ∣ before + 1 := fun divides => four (dvd_trans (by decide) divides)
    simp [four, hundred, fourHundred]
    omega

theorem daysBeforeYear_mono : Monotone daysBeforeYear := by
  apply monotone_nat_of_le_succ
  intro year
  cases year with
  | zero => exact Nat.le_refl 0
  | succ year =>
    rw [daysBeforeYear_succ (year + 1) (by omega)]
    exact Nat.le_add_right _ _

/-- The days of a year, all months counted. -/
theorem daysBeforeMonth_thirteen (year : Nat) :
    daysBeforeMonth year 13 = if isLeap year then 366 else 365 := by
  simp only [daysBeforeMonth, daysInMonth]
  cases isLeap year <;> rfl

/-- The number of the day. -/
def ordinal (d : Datetime) : Nat := daysBeforeYear d.year + daysBeforeMonth d.year d.month + d.day

theorem ordinal_lt_of_month (d e : Datetime) (year : d.year = e.year) (month : d.month < e.month) :
    d.ordinal < e.ordinal := by
  have date := d.date
  have positive := e.date.2.2.2.2.1
  have later := daysBeforeMonth_mono d.year (Nat.succ_le_of_lt month)
  rw [Nat.succ_eq_add_one, daysBeforeMonth_succ _ _ date.2.2.1] at later
  unfold ordinal
  rw [← year]
  omega

theorem ordinal_lt_of_year (d e : Datetime) (year : d.year < e.year) : d.ordinal < e.ordinal := by
  have date := d.date
  have positive := e.date.2.2.2.2.1
  have ending : daysBeforeMonth d.year d.month + d.day ≤ if isLeap d.year then 366 else 365 := by
    have last := daysBeforeMonth_mono d.year (show d.month + 1 ≤ 13 by omega)
    rw [daysBeforeMonth_succ _ _ date.2.2.1, daysBeforeMonth_thirteen] at last
    omega
  have later := daysBeforeYear_mono (Nat.succ_le_of_lt year)
  rw [Nat.succ_eq_add_one, daysBeforeYear_succ _ date.1] at later
  unfold ordinal
  omega

/-! ## The order -/

/-- The fields from the year on. -/
def fields (d : Datetime) : List Nat :=
  [d.year, d.month, d.day, d.hour, d.minute, d.second, d.microsecond]

theorem clock_lt (d e : Datetime) (below : d.fields < e.fields) : d.clock < e.clock := by
  have dTime := d.time
  have eTime := e.time
  have clock (f : Datetime) : f.clock = ((((f.ordinal * 24 + f.hour) * 60 + f.minute) * 60 +
      f.second) * 1000000 + f.microsecond : Nat) := rfl
  simp only [fields, List.cons_lt_cons_iff, lt_irrefl, and_false, or_false] at below
  rw [clock, clock, Int.ofNat_lt]
  rcases below with year | ⟨year, month | ⟨month, day | ⟨day, rest⟩⟩⟩
  · have days := ordinal_lt_of_year d e year
    omega
  · have days := ordinal_lt_of_month d e year month
    omega
  · have days : d.ordinal < e.ordinal := by
      unfold ordinal
      rw [year, month]
      omega
    omega
  · have days : d.ordinal = e.ordinal := by
      unfold ordinal
      rw [year, month, day]
    omega

/-- What follows the clock in the text of a datetime in UTC. -/
def utcTail (d : Datetime) : Str := d.fractionText ++ offsetText 0

theorem isoformat_utc (d : Datetime) (utc : d.offset = some 0) :
    d.isoformat = d.clockText ++ d.utcTail := by
  rw [isoformat, utc]
  rfl

theorem utcTail_lt (d e : Datetime) (below : d.microsecond < e.microsecond) : d.utcTail < e.utcTail := by
  have bound := e.time.2.2.2
  have some : e.microsecond ≠ 0 := by omega
  unfold utcTail fractionText
  rw [if_neg some]
  split
  · -- a text without a fraction goes on with the sign of the zone
    exact List.cons_lt_cons_iff.mpr (.inl (by decide))
  · refine List.cons_lt_cons_iff.mpr (.inr ⟨rfl, ?_⟩)
    exact append_lt_of_lt (by simp) (padded_lt 10 6 _ _ (by decide) below bound) _ _

theorem isoformat_lt (d e : Datetime) (dUtc : d.offset = some 0) (eUtc : e.offset = some 0)
    (below : d.fields < e.fields) : d.isoformat < e.isoformat := by
  have date := e.date
  have time := e.time
  have days := daysInMonth_le e.year e.month
  have part (width m n : Nat) (less : m < n) (bound : n < 10 ^ width) (s t : Str) :
      padded 10 width m ++ s < padded 10 width n ++ t :=
    append_lt_of_lt (by simp) (padded_lt 10 width m n (by decide) less bound) s t
  have after (c : CodePoint) {s t : Str} (less : s < t) : c :: s < c :: t :=
    List.cons_lt_cons_iff.mpr (.inr ⟨rfl, less⟩)
  simp only [fields, List.cons_lt_cons_iff, lt_irrefl, and_false, or_false] at below
  rw [isoformat_utc d dUtc, isoformat_utc e eUtc, clockText, clockText]
  simp only [List.append_assoc, List.cons_append]
  rcases below with year | ⟨year, month | ⟨month, day | ⟨day, hour | ⟨hour, minute |
    ⟨minute, second | ⟨second, fraction⟩⟩⟩⟩⟩⟩
  · exact part 4 _ _ year (by omega) _ _
  · rw [year]
    exact append_lt_append_left _ (after _ (part 2 _ _ month (by omega) _ _))
  · rw [year, month]
    exact append_lt_append_left _ (after _ (append_lt_append_left _ (after _
      (part 2 _ _ day (by omega) _ _))))
  · rw [year, month, day]
    exact append_lt_append_left _ (after _ (append_lt_append_left _ (after _
      (append_lt_append_left _ (after _ (part 2 _ _ hour (by omega) _ _))))))
  · rw [year, month, day, hour]
    exact append_lt_append_left _ (after _ (append_lt_append_left _ (after _
      (append_lt_append_left _ (after _ (append_lt_append_left _ (after _
        (part 2 _ _ minute (by omega) _ _))))))))
  · rw [year, month, day, hour, minute]
    exact append_lt_append_left _ (after _ (append_lt_append_left _ (after _
      (append_lt_append_left _ (after _ (append_lt_append_left _ (after _
        (append_lt_append_left _ (after _ (part 2 _ _ second (by omega) _ _))))))))))
  · rw [year, month, day, hour, minute, second]
    exact append_lt_append_left _ (after _ (append_lt_append_left _ (after _
      (append_lt_append_left _ (after _ (append_lt_append_left _ (after _
        (append_lt_append_left _ (after _ (append_lt_append_left _ (utcTail_lt d e fraction)))))))))))

theorem eq_of_fields (d e : Datetime) (dUtc : d.offset = some 0) (eUtc : e.offset = some 0)
    (same : d.fields = e.fields) : d = e := by
  simp only [fields, List.cons.injEq] at same
  obtain ⟨year, month, day, hour, minute, second, microsecond, -⟩ := same
  cases d
  cases e
  simp_all

/-- Texts of datetimes in UTC are ordered by their clocks. -/
theorem isoformat_lt_iff (d e : Datetime) (dUtc : d.offset = some 0) (eUtc : e.offset = some 0) :
    d.isoformat < e.isoformat ↔ d.clock < e.clock := by
  rcases lt_trichotomy d.fields e.fields with less | same | more
  · exact iff_of_true (isoformat_lt d e dUtc eUtc less) (clock_lt d e less)
  · rw [eq_of_fields d e dUtc eUtc same]
    exact iff_of_false (lt_irrefl _) (lt_irrefl _)
  · exact iff_of_false (isoformat_lt e d eUtc dUtc more).not_gt (clock_lt e d more).not_gt

theorem isoformat_le_iff (d e : Datetime) (dUtc : d.offset = some 0) (eUtc : e.offset = some 0) :
    d.isoformat ≤ e.isoformat ↔ d.clock ≤ e.clock := by
  rw [← not_lt, ← not_lt, isoformat_lt_iff e d eUtc dUtc]

theorem clock_inj (d e : Datetime) (dUtc : d.offset = some 0) (eUtc : e.offset = some 0)
    (same : d.clock = e.clock) : d = e := by
  rcases lt_trichotomy d.fields e.fields with less | equal | more
  · exact absurd same (clock_lt d e less).ne
  · exact eq_of_fields d e dUtc eUtc equal
  · exact absurd same (clock_lt e d more).ne'

end Datetime

end DecAustrum.Python
