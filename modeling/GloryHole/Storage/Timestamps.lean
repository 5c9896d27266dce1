import GloryHole.Go.TimeOrder

/-!
# Timestamps of the query log

Times are written to the database as texts, and SQLite compares the texts of the column byte by
byte.  The text is in the location of the time and without the zeros at the end of the fraction, so
its order is that of the instants only for some pairs of times.
-/

namespace GloryHole.Storage

open Go

def formatTimestamp (t : Time) : GoString := formatRFC3339Nano t

/-! ## Which pairs keep their order -/

/-- The instants are ordered as the texts are, judged by the times. -/
def KeepsOrder (a b : Time) : Prop :=
  if Alike a b then a.Equal b else if Below a b then a.Before b else b.Before a

instance decidableKeepsOrder (a b : Time) : Decidable (KeepsOrder a b) :=
  inferInstanceAs (Decidable (if Alike a b then _ else _))

/-- What `KeepsOrder` asks for, in each of the three cases. -/
theorem keepsOrder_cases {a b : Time} (h : KeepsOrder a b) :
    (Alike a b ∧ a.Equal b) ∨ (Below a b ∧ a.Before b) ∨
      (¬ Alike a b ∧ ¬ Below a b ∧ b.Before a) := by
  unfold KeepsOrder at h
  by_cases halike : Alike a b
  · rw [if_pos halike] at h
    exact Or.inl ⟨halike, h⟩
  · rw [if_neg halike] at h
    by_cases hbelow : Below a b
    · rw [if_pos hbelow] at h
      exact Or.inr (Or.inl ⟨hbelow, h⟩)
    · rw [if_neg hbelow] at h
      exact Or.inr (Or.inr ⟨halike, hbelow, h⟩)

theorem KeepsOrder.lt_iff {a b : Time} (h : KeepsOrder a b) :
    formatTimestamp a < formatTimestamp b ↔ a.Before b := by
  unfold formatTimestamp
  rw [formatRFC3339Nano_lt_iff]
  rcases keepsOrder_cases h with ⟨halike, hequal⟩ | ⟨hbelow, hbefore⟩ | ⟨_, hnot, hafter⟩
  · exact iff_of_false halike.not_below fun hbefore => hbefore.not_equal hequal
  · exact iff_of_true hbelow hbefore
  · exact iff_of_false hnot hafter.asymm

theorem KeepsOrder.eq_iff {a b : Time} (h : KeepsOrder a b) :
    formatTimestamp a = formatTimestamp b ↔ a.Equal b := by
  unfold formatTimestamp
  rw [formatRFC3339Nano_eq_iff]
  rcases keepsOrder_cases h with ⟨halike, hequal⟩ | ⟨hbelow, hbefore⟩ | ⟨hnot, _, hafter⟩
  · exact iff_of_true halike hequal
  · exact iff_of_false (fun halike => halike.not_below hbelow) hbefore.not_equal
  · exact iff_of_false hnot fun hequal => hafter.not_equal hequal.symm

theorem formatTimestamp_order_iff (a b : Time) :
    ((formatTimestamp a < formatTimestamp b ↔ a.Before b) ∧
        (formatTimestamp a = formatTimestamp b ↔ a.Equal b)) ↔
      KeepsOrder a b := by
  constructor
  · rintro ⟨hlt, heq⟩
    unfold formatTimestamp at hlt heq
    rw [formatRFC3339Nano_lt_iff] at hlt
    rw [formatRFC3339Nano_eq_iff] at heq
    unfold KeepsOrder
    rcases a.before_trichotomy b with hbefore | hequal | hafter
    · rw [if_neg (mt heq.mp hbefore.not_equal), if_pos (hlt.mpr hbefore)]
      exact hbefore
    · rw [if_pos (heq.mpr hequal)]
      exact hequal
    · have hne : ¬ a.Equal b := fun hequal => hafter.not_equal hequal.symm
      rw [if_neg (mt heq.mp hne), if_neg (mt hlt.mp hafter.asymm)]
      exact hafter
  · intro h
    exact ⟨h.lt_iff, h.eq_iff⟩

def newYear : Time := ⟨63839664000, 0, 0, by decide, by decide⟩

def newYearHalfSecond : Time := ⟨63839664000, 500000000, 0, by decide, by decide⟩

/-- `2024-01-01T00:00:00.5Z` is below `2024-01-01T00:00:00Z`. -/
theorem formatTimestamp_half_second_first :
    newYear.Before newYearHalfSecond ∧
      formatTimestamp newYearHalfSecond < formatTimestamp newYear := by
  decide +kernel

/-! ## Times in one zone -/

/-- The year has four digits and the local reading of the clock has not wrapped around. -/
structure Ordinary (t : Time) : Prop where
  abs_eq : (t.abs : Int) = t.sec + t.offset + internalToAbsolute
  year_nonneg : 0 ≤ t.year
  year_lt : t.year < 10000

def Begins (a b : Time) : Prop := a.nsec < b.nsec ∧ b.nsec < a.nsec + fractionStep a.nsec

theorem yearBelow_iff_lt {y z : Int} (hy : 0 ≤ y ∧ y < 10000) (hz : 0 ≤ z ∧ z < 10000) :
    YearBelow y z ↔ y < z := by
  have hcount {x : Int} (hx : 0 ≤ x ∧ x < 10000) : digitCount 4 x.natAbs = 4 :=
    digitCount_of_lt (by omega)
  unfold YearBelow Support.Numerals.ShortFirst
  rw [hcount hy, hcount hz]
  omega

theorem abs_lt_of_year_lt {a b : Time} (h : a.year < b.year) : a.abs < b.abs := by
  apply lt_of_not_ge
  intro hle
  exact absurd h (Int.not_lt.mpr (Days.year_mono (Nat.div_le_div_right hle)))

theorem sameZone_refl (o : Int) : SameZone o o := ⟨Iff.rfl, Iff.rfl, rfl⟩

section OneZone

variable {a b : Time} (ha : Ordinary a) (hb : Ordinary b) (hoffset : a.offset = b.offset)

include ha hb hoffset

theorem abs_lt_iff_sec_lt : a.abs < b.abs ↔ a.sec < b.sec := by
  have hasec := ha.abs_eq
  have hbsec := hb.abs_eq
  omega

theorem abs_eq_iff_sec_eq : a.abs = b.abs ↔ a.sec = b.sec := by
  have hasec := ha.abs_eq
  have hbsec := hb.abs_eq
  omega

theorem alike_iff_equal : Alike a b ↔ a.Equal b := by
  unfold Alike Time.Equal
  rw [abs_eq_iff_sec_eq ha hb hoffset, hoffset]
  simp [sameZone_refl]

/-- The texts have the order of the seconds; within a second the fraction decides. -/
theorem below_iff :
    Below a b ↔ a.sec < b.sec ∨ (a.sec = b.sec ∧ FractionBelow a b) := by
  have hlt := abs_lt_iff_sec_lt ha hb hoffset
  have heq := abs_eq_iff_sec_eq ha hb hoffset
  unfold Below
  by_cases hyear : a.year = b.year
  · rw [if_neg (not_not.mpr hyear)]
    by_cases habs : a.abs = b.abs
    · rw [if_neg (not_not.mpr habs)]
      by_cases hnsec : a.nsec = b.nsec
      · rw [if_neg (not_not.mpr hnsec), hoffset]
        refine iff_of_false (sameZone_refl _).not_below ?_
        unfold FractionBelow
        omega
      · rw [if_pos hnsec]
        simp [heq.mp habs]
    · rw [if_pos habs, hlt]
      simp [mt heq.mpr habs]
  · rw [if_pos hyear, yearBelow_iff_lt ⟨ha.year_nonneg, ha.year_lt⟩ ⟨hb.year_nonneg, hb.year_lt⟩]
    rcases lt_or_gt_of_ne hyear with h | h
    · exact iff_of_true h (Or.inl (hlt.mp (abs_lt_of_year_lt h)))
    · have hgt := abs_lt_of_year_lt h
      refine iff_of_false h.asymm ?_
      omega

/-- Times of one zone keep their order, except that in UTC a fraction comes after those it
begins. -/
theorem keepsOrder_iff_of_offset_eq :
    KeepsOrder a b ↔ ¬ (a.offset = 0 ∧ a.sec = b.sec ∧ (Begins a b ∨ Begins b a)) := by
  unfold KeepsOrder Begins
  by_cases hsame : Alike a b
  · rw [if_pos hsame]
    rw [alike_iff_equal ha hb hoffset] at hsame
    refine iff_of_true hsame ?_
    unfold Time.Equal at hsame
    omega
  · rw [if_neg hsame]
    rw [alike_iff_equal ha hb hoffset] at hsame
    unfold Time.Equal at hsame
    by_cases hfirst : Below a b
    · rw [if_pos hfirst]
      rw [below_iff ha hb hoffset] at hfirst
      unfold FractionBelow at hfirst
      unfold Time.Before
      omega
    · rw [if_neg hfirst]
      rw [below_iff ha hb hoffset] at hfirst
      unfold FractionBelow at hfirst
      unfold Time.Before
      omega

end OneZone

/-! ## Counts since a time -/

structure QueryRow where
  timestamp : GoString
  blocked : Bool

def insertedRow (query : Time × Bool) : QueryRow := ⟨formatTimestamp query.1, query.2⟩

def getQueryCount (rows : List QueryRow) (since : Time) : Nat :=
  rows.countP fun row => decide (formatTimestamp since ≤ row.timestamp)

def getBlockedCount (rows : List QueryRow) (since : Time) : Nat :=
  rows.countP fun row => row.blocked && decide (formatTimestamp since ≤ row.timestamp)

theorem KeepsOrder.since_iff {t since : Time} (h : KeepsOrder t since) :
    formatTimestamp since ≤ formatTimestamp t ↔ ¬ t.Before since := by
  rw [← List.not_lt, h.lt_iff]

/-- The counts are right if every logged time keeps its order with the limit. -/
theorem getQueryCount_eq {logged : List (Time × Bool)} {since : Time}
    (h : ∀ query ∈ logged, KeepsOrder query.1 since) :
    getQueryCount (logged.map insertedRow) since =
      logged.countP fun query => decide (¬ query.1.Before since) := by
  unfold getQueryCount
  rw [List.countP_map]
  apply List.countP_congr
  intro query hquery
  simp [insertedRow, (h query hquery).since_iff]

theorem getBlockedCount_eq {logged : List (Time × Bool)} {since : Time}
    (h : ∀ query ∈ logged, KeepsOrder query.1 since) :
    getBlockedCount (logged.map insertedRow) since =
      logged.countP fun query => query.2 && decide (¬ query.1.Before since) := by
  unfold getBlockedCount
  rw [List.countP_map]
  apply List.countP_congr
  intro query hquery
  simp [insertedRow, (h query hquery).since_iff]

/-- In one zone the counts are right, but for fractions of the second of the limit in UTC. -/
theorem counts_right_of_one_zone {logged : List (Time × Bool)} {since : Time}
    (hsince : Ordinary since)
    (hlogged : ∀ query ∈ logged, Ordinary query.1 ∧ query.1.offset = since.offset)
    (hfraction : ∀ query ∈ logged, since.offset = 0 → query.1.sec = since.sec →
      ¬ (Begins query.1 since ∨ Begins since query.1)) :
    getQueryCount (logged.map insertedRow) since =
        logged.countP (fun query => decide (¬ query.1.Before since)) ∧
      getBlockedCount (logged.map insertedRow) since =
        logged.countP fun query => query.2 && decide (¬ query.1.Before since) := by
  have horder : ∀ query ∈ logged, KeepsOrder query.1 since := fun query hquery => by
    obtain ⟨hordinary, hoffset⟩ := hlogged query hquery
    rw [keepsOrder_iff_of_offset_eq hordinary hsince hoffset, hoffset]
    exact fun h => hfraction query hquery h.1 h.2.1 h.2.2
  exact ⟨getQueryCount_eq horder, getBlockedCount_eq horder⟩

def oldYear : Time := ⟨63839663999, 0, 0, by decide, by decide⟩

theorem counts_right_of_one_zone_newYear :
    getQueryCount ([(oldYear, true), (newYear, true)].map insertedRow) newYear = 1 ∧
      getBlockedCount ([(oldYear, true), (newYear, true)].map insertedRow) newYear = 1 := by
  have hordinary : Ordinary newYear ∧ Ordinary oldYear :=
    ⟨⟨by decide, by decide, by decide⟩, ⟨by decide, by decide, by decide⟩⟩
  refine counts_right_of_one_zone hordinary.1 ?_ ?_
  · simpa using ⟨⟨hordinary.2, rfl⟩, hordinary.1⟩
  · simp [Begins, oldYear, newYear]

end GloryHole.Storage
