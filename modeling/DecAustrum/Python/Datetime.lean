import DecAustrum.Python.Digits

/-!
# Dates and times

A `datetime` by its fields, with the offset of its zone in minutes. Two of them are
equal to Python when they denote the same moment, and never when only one has a zone.
-/
namespace DecAustrum.Python

/-- Microseconds since the proleptic Gregorian day 0. -/
abbrev Instant := Int

def isLeap (year : Nat) : Bool := year % 4 = 0 && (year % 100 ≠ 0 || year % 400 = 0)

def daysInMonth (year month : Nat) : Nat :=
  if month = 2 then (if isLeap year then 29 else 28)
  else if month = 4 ∨ month = 6 ∨ month = 9 ∨ month = 11 then 30
  else 31

def daysBeforeYear (year : Nat) : Nat :=
  (year - 1) * 365 + (year - 1) / 4 - (year - 1) / 100 + (year - 1) / 400

def daysBeforeMonth (year : Nat) : Nat → Nat
  | 0 => 0
  | 1 => 0
  | month + 2 => daysBeforeMonth year (month + 1) + daysInMonth year (month + 1)

structure Datetime where
  year : Nat
  month : Nat
  day : Nat
  hour : Nat
  minute : Nat
  second : Nat
  microsecond : Nat
  offset : Option Int
  date : 1 ≤ year ∧ year ≤ 9999 ∧ 1 ≤ month ∧ month ≤ 12 ∧ 1 ≤ day ∧ day ≤ daysInMonth year month
  time : hour < 24 ∧ minute < 60 ∧ second < 60 ∧ microsecond < 1000000
  zone : ∀ o ∈ offset, -1440 < o ∧ o < 1440
  deriving DecidableEq

/-- What Python compares of two datetimes. -/
inductive Moment where
  | naive (local_ : Instant)
  | aware (utc : Instant)
  deriving DecidableEq, Repr

namespace Datetime

/-- The clock reading, without regard to the zone. -/
def clock (d : Datetime) : Instant :=
  (((((daysBeforeYear d.year + daysBeforeMonth d.year d.month + d.day) * 24 + d.hour) * 60 +
    d.minute) * 60 + d.second) * 1000000 + d.microsecond : Nat)

def moment (d : Datetime) : Moment :=
  match d.offset with
  | none => .naive d.clock
  | some offset => .aware (d.clock - offset * 60000000)

/-- A datetime from fields in range. -/
def make? (year month day hour minute second microsecond : Nat) (offset : Option Int) :
    Option Datetime :=
  if checked : (1 ≤ year ∧ year ≤ 9999 ∧ 1 ≤ month ∧ month ≤ 12 ∧ 1 ≤ day ∧
      day ≤ daysInMonth year month) ∧
      (hour < 24 ∧ minute < 60 ∧ second < 60 ∧ microsecond < 1000000) ∧
      ∀ o ∈ offset, -1440 < o ∧ o < 1440 then
    some ⟨year, month, day, hour, minute, second, microsecond, offset, checked.1, checked.2.1,
      checked.2.2⟩
  else none

/-! ## Changing the zone -/

private def ymdOfOrdinal (ordinal : Nat) : Nat × Nat × Nat :=
  let n := ordinal - 1
  let n400 := n / 146097
  let n := n % 146097
  let n100 := n / 36524
  let n := n % 36524
  let n4 := n / 1461
  let n := n % 1461
  let n1 := n / 365
  let n := n % 365
  let year := n400 * 400 + n100 * 100 + n4 * 4 + n1 + 1
  if n1 = 4 ∨ n100 = 4 then (year - 1, 12, 31)
  else
    let month := ((List.range 12).filter fun m => daysBeforeMonth year (m + 1) ≤ n).length
    (year, month, n - daysBeforeMonth year month + 1)

/-- The UTC datetime of a clock reading; `none` outside the years 1 to 9999. -/
def ofClock (clock : Instant) : Option Datetime :=
  if clock < 86400000000 then none
  else
    let micros := clock.toNat
    let seconds := micros / 1000000
    let date := ymdOfOrdinal (seconds / 86400)
    make? date.1 date.2.1 date.2.2 (seconds / 3600 % 24) (seconds / 60 % 60) (seconds % 60)
      (micros % 1000000) (some 0)

/-- `d.astimezone(timezone.utc)` where `d` has a zone. -/
def astimezoneUtc (d : Datetime) : Option Datetime :=
  match d.offset with
  | none => none
  | some offset => if offset = 0 then some d else ofClock (d.clock - offset * 60000000)

/-! ## Texts -/

def clockText (d : Datetime) : Str :=
  padded 10 4 d.year ++ 0x2d :: (padded 10 2 d.month ++ 0x2d :: (padded 10 2 d.day ++
    0x54 :: (padded 10 2 d.hour ++ 0x3a :: (padded 10 2 d.minute ++ 0x3a :: padded 10 2 d.second))))

def fractionText (d : Datetime) : Str :=
  if d.microsecond = 0 then [] else 0x2e :: padded 10 6 d.microsecond

def offsetText (offset : Int) : Str :=
  (if offset < 0 then 0x2d else 0x2b) ::
    (padded 10 2 (offset.natAbs / 60) ++ 0x3a :: padded 10 2 (offset.natAbs % 60))

/-- `d.isoformat()`. -/
def isoformat (d : Datetime) : Str :=
  d.clockText ++ (d.fractionText ++ match d.offset with
    | none => []
    | some offset => offsetText offset)

/-- The text of `d` in a model dumped in JSON mode: as `isoformat`, with `Z` for UTC. -/
def json (d : Datetime) : Str :=
  d.clockText ++ (d.fractionText ++ match d.offset with
    | none => []
    | some offset => if offset = 0 then [0x5a] else offsetText offset)

@[simp] private theorem clockText_length (d : Datetime) : d.clockText.length = 19 := by
  simp [clockText]

private theorem clockText_inj (d e : Datetime) (same : d.clockText = e.clockText) :
    d.year = e.year ∧ d.month = e.month ∧ d.day = e.day ∧ d.hour = e.hour ∧ d.minute = e.minute ∧
      d.second = e.second := by
  have month (d : Datetime) : d.month < 10 ^ 2 := by have := d.date; omega
  have day (d : Datetime) : d.day < 10 ^ 2 := by
    have date := d.date
    have limit : daysInMonth d.year d.month ≤ 31 := by
      unfold daysInMonth
      split
      · split <;> omega
      · split <;> omega
    omega
  have year (d : Datetime) : d.year < 10 ^ 4 := by have := d.date; omega
  have hour (d : Datetime) : d.hour < 10 ^ 2 := by have := d.time; omega
  have minute (d : Datetime) : d.minute < 10 ^ 2 := by have := d.time; omega
  have second (d : Datetime) : d.second < 10 ^ 2 := by have := d.time; omega
  have base : 0 < 10 ∧ 10 ≤ 16 := by decide
  unfold clockText at same
  have afterYear := List.append_inj same (by simp)
  have afterMonth := List.append_inj (List.cons.inj afterYear.2).2 (by simp)
  have afterDay := List.append_inj (List.cons.inj afterMonth.2).2 (by simp)
  have afterHour := List.append_inj (List.cons.inj afterDay.2).2 (by simp)
  have afterMinute := List.append_inj (List.cons.inj afterHour.2).2 (by simp)
  exact ⟨padded_inj 10 4 _ _ base (year d) (year e) afterYear.1,
    padded_inj 10 2 _ _ base (month d) (month e) afterMonth.1,
    padded_inj 10 2 _ _ base (day d) (day e) afterDay.1,
    padded_inj 10 2 _ _ base (hour d) (hour e) afterHour.1,
    padded_inj 10 2 _ _ base (minute d) (minute e) afterMinute.1,
    padded_inj 10 2 _ _ base (second d) (second e) (List.cons.inj afterMinute.2).2⟩

private theorem offsetText_inj (o p : Int) (oBound : -1440 < o ∧ o < 1440)
    (pBound : -1440 < p ∧ p < 1440) (same : offsetText o = offsetText p) : o = p := by
  have parts := List.cons.inj same
  have digits := List.append_inj parts.2 (by simp)
  have hours := padded_inj 10 2 _ _ (by decide) (by omega) (by omega) digits.1
  have minutes := padded_inj 10 2 _ _ (by decide) (by omega) (by omega) (List.cons.inj digits.2).2
  have signs : (o < 0) ↔ (p < 0) := by
    have head := parts.1
    by_cases oNegative : o < 0 <;> by_cases pNegative : p < 0
    · exact ⟨fun _ => pNegative, fun _ => oNegative⟩
    · rw [if_pos oNegative, if_neg pNegative] at head
      exact absurd head (by decide)
    · rw [if_neg oNegative, if_pos pNegative] at head
      exact absurd head (by decide)
    · exact ⟨fun h => absurd h oNegative, fun h => absurd h pNegative⟩
  omega

def zoneText : Option Int → Str
  | none => []
  | some offset => if offset = 0 then [0x5a] else offsetText offset

theorem zoneText_head (zone : Option Int) : (zoneText zone).head? ≠ some 0x2e := by
  cases zone with
  | none => decide
  | some offset =>
    rw [zoneText]
    split
    · decide
    · rw [offsetText]
      split <;> (rw [List.head?_cons]; decide)

private theorem zoneText_length (offset : Int) :
    (zoneText (some offset)).length = if offset = 0 then 1 else 6 := by
  rw [zoneText]
  split <;> simp [offsetText]

private theorem zoneText_inj (y z : Option Int) (yBound : ∀ o ∈ y, -1440 < o ∧ o < 1440)
    (zBound : ∀ o ∈ z, -1440 < o ∧ o < 1440) (same : zoneText y = zoneText z) : y = z := by
  have lengths := congrArg List.length same
  cases y with
  | none =>
    cases z with
    | none => rfl
    | some p =>
      rw [zoneText_length, zoneText, List.length_nil] at lengths
      split at lengths <;> omega
  | some o =>
    cases z with
    | none =>
      rw [zoneText_length, zoneText, List.length_nil] at lengths
      split at lengths <;> omega
    | some p =>
      rw [zoneText_length, zoneText_length] at lengths
      by_cases oZero : o = 0
      · by_cases pZero : p = 0
        · rw [oZero, pZero]
        · rw [if_pos oZero, if_neg pZero] at lengths
          omega
      · by_cases pZero : p = 0
        · rw [if_neg oZero, if_pos pZero] at lengths
          omega
        · rw [zoneText, zoneText, if_neg oZero, if_neg pZero] at same
          rw [offsetText_inj o p (yBound o rfl) (zBound p rfl) same]

theorem json_eq (d : Datetime) : d.json = d.clockText ++ (d.fractionText ++ zoneText d.offset) := by
  unfold json zoneText
  rfl

theorem isPlain_clockText (d : Datetime) : ∀ c ∈ d.clockText, isPlain c = true := by
  have digits (width n : Nat) : ∀ c ∈ padded 10 width n, isPlain c = true :=
    isPlain_padded 10 width n (by decide)
  simp only [clockText, List.mem_append, List.mem_cons]
  rintro c (year | rfl | month | rfl | day | rfl | hour | rfl | minute | rfl | second)
  all_goals first
    | decide
    | exact digits _ _ c ‹_›

theorem isPlain_fractionText (d : Datetime) : ∀ c ∈ d.fractionText, isPlain c = true := by
  rw [fractionText]
  split
  · simp
  · intro c member
    rcases List.mem_cons.mp member with rfl | inside
    · decide
    · exact isPlain_padded 10 _ _ (by decide) c inside

theorem isPlain_offsetText (offset : Int) : ∀ c ∈ offsetText offset, isPlain c = true := by
  intro c member
  rw [offsetText] at member
  rcases List.mem_cons.mp member with rfl | inside
  · split <;> decide
  rcases List.mem_append.mp inside with hours | rest
  · exact isPlain_padded 10 _ _ (by decide) c hours
  rcases List.mem_cons.mp rest with rfl | minutes
  · decide
  · exact isPlain_padded 10 _ _ (by decide) c minutes

theorem isPlain_json (d : Datetime) : ∀ c ∈ d.json, isPlain c = true := by
  have zone : ∀ c ∈ zoneText d.offset, isPlain c = true := by
    cases d.offset with
    | none => simp [zoneText]
    | some offset =>
      rw [zoneText]
      split
      · intro c member
        obtain rfl := List.mem_singleton.mp member
        decide
      · exact isPlain_offsetText offset
  rw [json_eq]
  simp only [List.mem_append]
  rintro c (inClock | inFraction | inZone)
  · exact isPlain_clockText d c inClock
  · exact isPlain_fractionText d c inFraction
  · exact zone c inZone

theorem isPlain_isoformat (d : Datetime) : ∀ c ∈ d.isoformat, isPlain c = true := by
  rw [isoformat]
  simp only [List.mem_append]
  rintro c (inClock | inFraction | inZone)
  · exact isPlain_clockText d c inClock
  · exact isPlain_fractionText d c inFraction
  · cases zone : d.offset with
    | none => simp [zone] at inZone
    | some offset =>
      rw [zone] at inZone
      exact isPlain_offsetText offset c inZone

/-- The JSON text determines every field. -/
theorem json_inj (d e : Datetime) (same : d.json = e.json) : d = e := by
  rw [json_eq, json_eq] at same
  have parts := List.append_inj same (by simp)
  have fields := clockText_inj d e parts.1
  have rest : d.microsecond = e.microsecond ∧ zoneText d.offset = zoneText e.offset := by
    have tails := parts.2
    have dMicro : d.microsecond < 10 ^ 6 := by have := d.time; omega
    have eMicro : e.microsecond < 10 ^ 6 := by have := e.time; omega
    unfold fractionText at tails
    split at tails <;> split at tails
    · next dZero eZero => exact ⟨by omega, by simpa using tails⟩
    · have head := congrArg List.head? tails
      exact absurd head (zoneText_head d.offset)
    · have head := congrArg List.head? tails.symm
      exact absurd head (zoneText_head e.offset)
    · have digits := List.append_inj (List.cons.inj tails).2 (by simp)
      exact ⟨padded_inj 10 6 _ _ (by decide) dMicro eMicro digits.1, digits.2⟩
  have zones := zoneText_inj d.offset e.offset d.zone e.zone rest.2
  cases d
  cases e
  simp_all

end Datetime
end DecAustrum.Python
