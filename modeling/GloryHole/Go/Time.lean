import Mathlib.Algebra.Order.Group.Int
import Mathlib.Tactic.Common

/-!
# Go's `time.Time`

An instant with the offset of its location.  Dates are computed as in Go 1.24: local seconds are
counted without sign from a first of March long ago, and a year starts with that month, so that
the leap day is its last one.
-/

namespace GloryHole.Go

/-- The wall clock of a `time.Time`: seconds since the start of the year 1 in UTC, as an `int64`,
the nanoseconds within the second, and how far east of UTC its location is. -/
structure Time where
  sec : Int
  nsec : Nat
  offset : Int
  sec_int64 : -2 ^ 63 ≤ sec ∧ sec < 2 ^ 63
  nsec_lt : nsec < 1000000000
  deriving DecidableEq

/-! ## The calendar -/

def secondsPerDay : Nat := 86400

def absoluteYears : Nat := 292277022400

def marchThruDecember : Nat := 306

/-- `internalToAbsolute`; a year has 365.2425 days on average. -/
def internalToAbsolute : Int :=
  (absoluteYears / 400 * 146097 + marchThruDecember) * secondsPerDay

namespace Days

/-! A day is split into its century, the year of the century and the day of the year. -/

def century (days : Nat) : Nat := (4 * days + 3) / 146097

def centuryRest (days : Nat) : Nat := 4 * ((4 * days + 3) % 146097 / 4) + 3

def cyear (days : Nat) : Nat := centuryRest days / 1461

def ayday (days : Nat) : Nat := centuryRest days % 1461 / 4

/-- January and February belong to the year before. -/
def janFeb (days : Nat) : Nat := if marchThruDecember ≤ ayday days then 1 else 0

/-- The month, counted on from March. -/
def amonth (days : Nat) : Nat := (5 * ayday days + 461) / 153

def year (days : Nat) : Int := (100 * century days : Int) - absoluteYears + cyear days + janFeb days

def month (days : Nat) : Nat := amonth days - 12 * janFeb days

def day (days : Nat) : Nat := 1 + (5 * ayday days + 461) % 153 / 5

theorem centuryRest_lt (days : Nat) : centuryRest days < 146100 := by
  unfold centuryRest
  omega

theorem cyear_lt (days : Nat) : cyear days < 100 := by
  have h := centuryRest_lt days
  unfold cyear
  omega

theorem ayday_lt (days : Nat) : ayday days < 366 := by
  unfold ayday
  omega

theorem janFeb_eq (days : Nat) : janFeb days = amonth days / 13 := by
  have h := ayday_lt days
  unfold janFeb amonth
  by_cases hlate : marchThruDecember ≤ ayday days
  · rw [if_pos hlate]
    unfold marchThruDecember at hlate
    omega
  · rw [if_neg hlate]
    unfold marchThruDecember at hlate
    omega

theorem amonth_bounds (days : Nat) : 3 ≤ amonth days ∧ amonth days ≤ 14 := by
  have h := ayday_lt days
  unfold amonth
  omega

theorem month_bounds (days : Nat) : 1 ≤ month days ∧ month days ≤ 12 := by
  have h := amonth_bounds days
  unfold month
  rw [janFeb_eq]
  omega

theorem day_bounds (days : Nat) : 1 ≤ day days ∧ day days ≤ 31 := by
  unfold day
  omega

variable {d d' : Nat}

/-- Later days are in a later year that starts in March, or later in the same one. -/
theorem split_lt (h : d < d') :
    100 * century d + cyear d < 100 * century d' + cyear d' ∨
      (100 * century d + cyear d = 100 * century d' + cyear d' ∧ ayday d < ayday d') := by
  have hcyear := cyear_lt d
  have hcentury : century d < century d' ∨
      (century d = century d' ∧ centuryRest d + 4 ≤ centuryRest d') := by
    unfold century centuryRest
    omega
  rcases hcentury with hlt | ⟨heq, hrest⟩
  · left
    omega
  · -- Within the century the two low bits are always set, so a day makes a difference of 4.
    have hsplit : cyear d < cyear d' ∨ (cyear d = cyear d' ∧ ayday d < ayday d') := by
      unfold cyear ayday
      omega
    rw [heq]
    omega

def key (days : Nat) : Int := (12 * year days + month days) * 32 + day days

theorem months_eq (days : Nat) :
    12 * year days + month days =
      12 * ((100 * century days + cyear days : Nat) - absoluteYears : Int) + amonth days := by
  have h := amonth_bounds days
  unfold year month
  rw [janFeb_eq]
  omega

/-- Within a year that starts in March, later days are in a later month or later in the month. -/
theorem month_split_lt (h : ayday d < ayday d') :
    amonth d < amonth d' ∨ (amonth d = amonth d' ∧ day d < day d') := by
  have hstep : 5 * ayday d + 461 + 5 ≤ 5 * ayday d' + 461 := by omega
  unfold amonth day
  generalize 5 * ayday d + 461 = x at hstep
  generalize 5 * ayday d' + 461 = y at hstep
  omega

theorem key_lt (h : d < d') : key d < key d' := by
  have hmonth := amonth_bounds d
  have hmonth' := amonth_bounds d'
  have hday := day_bounds d
  have hday' := day_bounds d'
  unfold key
  rw [months_eq, months_eq]
  rcases split_lt h with hyear | ⟨hyear, hlt⟩
  · omega
  · rcases month_split_lt hlt with hlater | ⟨heq, hlater⟩
    · omega
    · omega

theorem key_le (h : d ≤ d') : key d ≤ key d' := by
  rcases Nat.lt_or_eq_of_le h with hlt | rfl
  · exact (key_lt hlt).le
  · exact le_rfl

theorem key_lt_iff (d d' : Nat) : key d < key d' ↔ d < d' := by
  constructor
  · intro h
    apply Nat.lt_of_not_le
    intro hle
    exact absurd h (Int.not_lt.mpr (key_le hle))
  · exact key_lt

theorem key_inj (d d' : Nat) : key d = key d' ↔ d = d' := by
  have hlt := key_lt_iff d d'
  have hgt := key_lt_iff d' d
  omega

theorem year_mono (h : d ≤ d') : year d ≤ year d' := by
  have hkey := key_le h
  have hmonth := month_bounds d
  have hmonth' := month_bounds d'
  have hday := day_bounds d
  have hday' := day_bounds d'
  unfold key at hkey
  omega

/-- Dates are in the order of their days. -/
theorem lt_iff_date (hyear : year d = year d') :
    d < d' ↔ month d < month d' ∨ (month d = month d' ∧ day d < day d') := by
  have hd := day_bounds d
  have hd' := day_bounds d'
  rw [← key_lt_iff]
  unfold key
  rw [hyear]
  omega

theorem eq_iff_date (hyear : year d = year d') :
    d = d' ↔ month d = month d' ∧ day d = day d' := by
  have hd := day_bounds d
  have hd' := day_bounds d'
  rw [← key_inj]
  unfold key
  rw [hyear]
  omega

end Days

/-! ## Local dates and instants -/

namespace Time

/-- The local reading of the clock, as a `uint64`. -/
def abs (t : Time) : Nat := ((t.sec + t.offset + internalToAbsolute) % 2 ^ 64).toNat

def year (t : Time) : Int := Days.year (t.abs / secondsPerDay)

def month (t : Time) : Nat := Days.month (t.abs / secondsPerDay)

def day (t : Time) : Nat := Days.day (t.abs / secondsPerDay)

def hour (t : Time) : Nat := t.abs % secondsPerDay / 3600

def minute (t : Time) : Nat := t.abs % secondsPerDay % 3600 / 60

def second (t : Time) : Nat := t.abs % secondsPerDay % 3600 % 60

def Before (a b : Time) : Prop := a.sec < b.sec ∨ (a.sec = b.sec ∧ a.nsec < b.nsec)

def Equal (a b : Time) : Prop := a.sec = b.sec ∧ a.nsec = b.nsec

def isZero (t : Time) : Bool := t.sec == 0 && t.nsec == 0

instance decidableBefore (a b : Time) : Decidable (a.Before b) :=
  inferInstanceAs (Decidable (_ ∨ _))

instance decidableEqual (a b : Time) : Decidable (a.Equal b) :=
  inferInstanceAs (Decidable (_ ∧ _))

theorem before_trichotomy (a b : Time) : a.Before b ∨ a.Equal b ∨ b.Before a := by
  unfold Before Equal
  omega

variable {a b : Time}

theorem Before.not_equal (h : a.Before b) : ¬ a.Equal b := by
  unfold Before at h
  unfold Equal
  omega

theorem Equal.symm (h : a.Equal b) : b.Equal a := ⟨h.1.symm, h.2.symm⟩

theorem Before.asymm (h : a.Before b) : ¬ b.Before a := by
  unfold Before at *
  omega

/-- Within a year the local readings are in the order of month, day and time of day. -/
theorem abs_lt_iff (hyear : a.year = b.year) :
    a.abs < b.abs ↔ a.month < b.month ∨ (a.month = b.month ∧ (a.day < b.day ∨ (a.day = b.day ∧
      (a.hour < b.hour ∨ (a.hour = b.hour ∧ (a.minute < b.minute ∨ (a.minute = b.minute ∧
        a.second < b.second))))))) := by
  have hlt := Days.lt_iff_date hyear
  have heq := Days.eq_iff_date hyear
  unfold month day hour minute second secondsPerDay at *
  omega

theorem abs_eq_iff (hyear : a.year = b.year) :
    a.abs = b.abs ↔ a.month = b.month ∧ a.day = b.day ∧ a.hour = b.hour ∧
      a.minute = b.minute ∧ a.second = b.second := by
  have heq := Days.eq_iff_date hyear
  unfold month day hour minute second secondsPerDay at *
  omega

end Time

/-! ## Rounding -/

def wrapInt64 (x : Int) : Int := (x + 2 ^ 63) % 2 ^ 64 - 2 ^ 63

theorem wrapInt64_bounds (x : Int) : -2 ^ 63 ≤ wrapInt64 x ∧ wrapInt64 x < 2 ^ 63 := by
  unfold wrapInt64
  omega

def nanosPerSecond : Int := 1000000000

def nanosPerHour : Int := 3600 * nanosPerSecond

namespace Time

/-- `addSec`: seconds that overflow stay at the last ones. -/
def addSec (sec d : Int) : Int :=
  let sum := wrapInt64 (sec + d)
  if decide (sum > sec) = decide (d > 0) then sum
  else if d > 0 then 2 ^ 63 - 1
  else -(2 ^ 63 - 1)

theorem addSec_bounds (sec d : Int) : -2 ^ 63 ≤ addSec sec d ∧ addSec sec d < 2 ^ 63 := by
  have hsum := wrapInt64_bounds (sec + d)
  unfold addSec
  dsimp only
  split
  · exact hsum
  · split
    · omega
    · omega

def carry (nsec : Nat) (d : Int) : Int × Int :=
  let dsec := d.tdiv nanosPerSecond
  let nsec := nsec + d.tmod nanosPerSecond
  if nsec ≥ nanosPerSecond then (dsec + 1, nsec - nanosPerSecond)
  else if nsec < 0 then (dsec - 1, nsec + nanosPerSecond)
  else (dsec, nsec)

theorem carry_bounds {nsec : Nat} (hnsec : nsec < 1000000000) (d : Int) :
    0 ≤ (carry nsec d).2 ∧ (carry nsec d).2 < 1000000000 := by
  have hlow := Int.lt_tmod_of_pos d (by decide : 0 < nanosPerSecond)
  have hhigh := Int.tmod_lt_of_pos d (by decide : 0 < nanosPerSecond)
  unfold carry nanosPerSecond at *
  dsimp only
  split
  · omega
  · split
    · omega
    · omega

def add (t : Time) (d : Int) : Time where
  sec := addSec t.sec (carry t.nsec d).1
  nsec := (carry t.nsec d).2.toNat
  offset := t.offset
  sec_int64 := addSec_bounds _ _
  nsec_lt := by
    have h := carry_bounds t.nsec_lt d
    omega

/-- The remainder that `div` finds, for whole seconds `d`; times before the year 1 are divided
by their distance from it. -/
def remainder (t : Time) (d : Int) : Int :=
  if t.sec < 0 then
    let nsec : Int := if t.nsec = 0 then 0 else nanosPerSecond - t.nsec
    let sec := if t.nsec = 0 then wrapInt64 (-t.sec) else wrapInt64 (wrapInt64 (-t.sec) - 1)
    let r := sec.tmod (d.tdiv nanosPerSecond) * nanosPerSecond + nsec
    if r = 0 then r else d - r
  else t.sec.tmod (d.tdiv nanosPerSecond) * nanosPerSecond + t.nsec

def truncate (t : Time) (d : Int) : Time := if d ≤ 0 then t else t.add (-t.remainder d)

def hourStart (t : Time) : Time := t.truncate nanosPerHour

end Time

end GloryHole.Go
