import GloryHole.Go.TimeFormat

/-!
# The order of `RFC3339Nano` texts

Texts are compared byte by byte, so the local date and time come first and the zone last.  What
the order of two texts is can be read off the times: each section below settles one part of the
text, from the year to the zone, and the last one puts them together.
-/

namespace GloryHole.Go

open Support.Numerals

/-! ## Years -/

/-- Of two different years, which one is written first: negative ones, then numerals as decimal
fractions. -/
def YearBelow (y z : Int) : Prop :=
  (y < 0 ∧ 0 ≤ z) ∨ ((y < 0 ↔ z < 0) ∧
    ShortFirst 10 (digitCount 4 y.natAbs) y.natAbs (digitCount 4 z.natAbs) z.natAbs)

instance decidableYearBelow (y z : Int) : Decidable (YearBelow y z) :=
  inferInstanceAs (Decidable (_ ∨ _))

theorem dash_low (s : GoString) : Low digit 10 (byte '-' :: s) := ⟨_, _, rfl, by decide⟩

/-- Different numbers before a dash. -/
theorem numeral_dash_lt_iff {u v : Nat} (hne : u ≠ v) (s t : GoString) :
    decimal (digitCount 4 u) u ++ byte '-' :: s < decimal (digitCount 4 v) v ++ byte '-' :: t ↔
      ShortFirst 10 (digitCount 4 u) u (digitCount 4 v) v :=
  numeral_lt_of_low digits_ordered (lt_pow_digitCount 4 u) (lt_pow_digitCount 4 v)
    (fun _ => hne) (dash_low s) (dash_low t)

theorem digitCount_pos (n : Nat) : 0 < digitCount 4 n :=
  Nat.lt_of_lt_of_le (by decide) (Nat.le_max_left 4 _)

/-- A negative number is written before every other one. -/
theorem dash_lt_decimal (s : GoString) (n : Nat) (t : GoString) :
    byte '-' :: s < decimal (digitCount 4 n) n ++ t :=
  (dash_low s).lt_numeral (by decide) (digitCount_pos n) n t

theorem year_lt_iff {y z : Int} (hne : y ≠ z) (s t : GoString) :
    appendInt y 4 ++ byte '-' :: s < appendInt z 4 ++ byte '-' :: t ↔ YearBelow y z := by
  unfold appendInt YearBelow
  by_cases hy : y < 0
  · by_cases hz : z < 0
    · have habs : y.natAbs ≠ z.natAbs := by omega
      rw [if_pos hy, if_pos hz, List.append_assoc, List.append_assoc, List.singleton_append,
        List.singleton_append, List.cons_lt_cons_iff, numeral_dash_lt_iff habs]
      simp [hy, hz]
    · rw [if_pos hy, if_neg hz, List.append_assoc, List.singleton_append, List.nil_append]
      exact iff_of_true (dash_lt_decimal _ _ _) (Or.inl ⟨hy, Int.not_lt.mp hz⟩)
  · by_cases hz : z < 0
    · rw [if_neg hy, if_pos hz, List.append_assoc, List.nil_append, List.append_assoc,
        List.singleton_append]
      exact iff_of_false (List.lt_asymm (dash_lt_decimal _ _ _)) (by simp [hy, hz])
    · have habs : y.natAbs ≠ z.natAbs := by omega
      rw [if_neg hy, if_neg hz, List.nil_append, List.nil_append, numeral_dash_lt_iff habs]
      simp [hy, hz]

/-! ## The fraction of the second -/

def fractionStep (n : Nat) : Nat := 10 ^ trailing 10 9 n

/-- Of two different fractions in the same second, which one is written first.  The smaller one is,
unless its digits begin those of the other and a `Z` follows, which is above the digits. -/
def FractionBelow (a b : Time) : Prop :=
  (a.nsec < b.nsec ∧ ¬ (a.offset = 0 ∧ b.nsec < a.nsec + fractionStep a.nsec)) ∨
    (b.nsec < a.nsec ∧ b.offset = 0 ∧ a.nsec < b.nsec + fractionStep b.nsec)

instance decidableFractionBelow (a b : Time) : Decidable (FractionBelow a b) :=
  inferInstanceAs (Decidable (_ ∨ _))

theorem zone_high_iff {offset : Int} : High digit 10 (appendZone offset) ↔ offset = 0 := by
  constructor
  · intro hhigh
    by_contra hne
    exact (zone_low hne).not_high digits_ordered hhigh
  · exact zone_high

theorem zone_low_or_high (offset : Int) :
    Low digit 10 (appendZone offset) ∨ High digit 10 (appendZone offset) := by
  by_cases h : offset = 0
  · exact Or.inr (zone_high h)
  · exact Or.inl (zone_low h)

theorem fractionStep_zero : fractionStep 0 = 1000000000 := by decide

theorem trimmed_mul (n : Nat) : n / 10 ^ trailing 10 9 n * 10 ^ trailing 10 9 n = n :=
  Nat.div_mul_cancel (pow_trailing_dvd 10 9 n)

theorem trimmed_lt {n : Nat} (hn : n < 10 ^ 9) :
    n / 10 ^ trailing 10 9 n < 10 ^ (9 - trailing 10 9 n) := by
  rw [Nat.div_lt_iff_lt_mul (Nat.pow_pos (by decide)), ← Nat.pow_add,
    Nat.sub_add_cancel (trailing_le 10 9 n)]
  exact hn

theorem zone_lt_dot_iff {offset : Int} (s : GoString) :
    appendZone offset < byte '.' :: s ↔ offset ≠ 0 := by
  unfold appendZone
  by_cases h : offset = 0
  · rw [if_pos h]
    have hdot : byte '.' :: s < lit "Z" := List.cons_lt_cons_iff.mpr (Or.inl (by decide))
    exact iff_of_false (List.lt_asymm hdot) (not_not.mpr h)
  · rw [if_neg h]
    refine iff_of_true (List.cons_lt_cons_iff.mpr (Or.inl ?_)) h
    split
    · decide
    · decide

theorem dot_lt_zone_iff {offset : Int} (s : GoString) :
    byte '.' :: s < appendZone offset ↔ offset = 0 := by
  by_cases h : offset = 0
  · refine iff_of_true ?_ h
    unfold appendZone
    rw [if_pos h]
    exact List.cons_lt_cons_iff.mpr (Or.inl (by decide))
  · exact iff_of_false (List.lt_asymm ((zone_lt_dot_iff s).mpr h)) h

variable {a b : Time}

theorem fraction_lt_iff (hne : a.nsec ≠ b.nsec) :
    appendNano a.nsec ++ appendZone a.offset < appendNano b.nsec ++ appendZone b.offset ↔
      FractionBelow a b := by
  have ha := a.nsec_lt
  have hb := b.nsec_lt
  unfold FractionBelow
  rcases Nat.eq_zero_or_pos a.nsec with hza | hza
  · -- Only the fraction of `b` is written: the zone of `a` meets its dot.
    have hnano : appendNano 0 = [] := rfl
    rw [hza] at hne ⊢
    rw [appendNano_of_pos (by omega) hb, fractionStep_zero, hnano, List.nil_append,
      List.cons_append, zone_lt_dot_iff]
    omega
  · rcases Nat.eq_zero_or_pos b.nsec with hzb | hzb
    · have hnano : appendNano 0 = [] := rfl
      rw [hzb, appendNano_of_pos hza ha, fractionStep_zero, hnano, List.nil_append,
        List.cons_append, dot_lt_zone_iff]
      omega
    · have hscaled := scaled_lt_iff digits_ordered (trailing_le 10 9 a.nsec)
        (trailing_le 10 9 b.nsec) (trimmed_lt ha) (trimmed_lt hb)
        (by rwa [trimmed_mul, trimmed_mul])
        (zone_low_or_high a.offset) (zone_low_or_high b.offset)
      rw [trimmed_mul, trimmed_mul, zone_high_iff, zone_high_iff] at hscaled
      rw [appendNano_of_pos hza ha, appendNano_of_pos hzb hb, List.cons_append, List.cons_append,
        List.cons_lt_cons_self]
      exact hscaled

/-! ## Zones -/

def West (offset : Int) : Prop := offset ≤ -60

instance decidableWest (offset : Int) : Decidable (West offset) :=
  inferInstanceAs (Decidable (_ ≤ _))

/-- Of two different numbers of minutes, which one is written first; a colon, which is above the
digits, follows the hours. -/
def MinutesBelow (m n : Nat) : Prop :=
  if m / 60 = n / 60 then m % 60 < n % 60
  else ShortLast 10 (digitCount 2 (m / 60)) (m / 60) (digitCount 2 (n / 60)) (n / 60)

instance decidableMinutesBelow (m n : Nat) : Decidable (MinutesBelow m n) :=
  inferInstanceAs (Decidable (if m / 60 = n / 60 then _ else _))

/-- Of two different zones, which one is written first: east of UTC, west of it, UTC. -/
def ZoneBelow (o o' : Int) : Prop :=
  o ≠ 0 ∧ (o' = 0 ∨ (¬ West o ∧ West o') ∨
    ((West o ↔ West o') ∧ MinutesBelow (o.natAbs / 60) (o'.natAbs / 60)))

instance decidableZoneBelow (o o' : Int) : Decidable (ZoneBelow o o') :=
  inferInstanceAs (Decidable (_ ∧ _))

def SameZone (o o' : Int) : Prop :=
  (o = 0 ↔ o' = 0) ∧ (West o ↔ West o') ∧ o.natAbs / 60 = o'.natAbs / 60

instance decidableSameZone (o o' : Int) : Decidable (SameZone o o') :=
  inferInstanceAs (Decidable (_ ∧ _))

theorem colon_high (s : GoString) : High digit 10 (byte ':' :: s) := ⟨_, _, rfl, by decide⟩

theorem minutes_lt_iff (m n : Nat) :
    appendInt (m / 60 : Nat) 2 ++ byte ':' :: appendInt (m % 60 : Nat) 2 <
        appendInt (n / 60 : Nat) 2 ++ byte ':' :: appendInt (n % 60 : Nat) 2 ↔
      MinutesBelow m n := by
  have hm : m % 60 < 10 ^ 2 := by omega
  have hn : n % 60 < 10 ^ 2 := by omega
  unfold MinutesBelow
  by_cases hhours : m / 60 = n / 60
  · rw [if_pos hhours, hhours, append_lt_append_left_iff, List.cons_lt_cons_self,
      appendInt_of_lt hm, appendInt_of_lt hn]
    exact numeral_lt_iff digits_ordered hm hn
  · rw [if_neg hhours, appendInt_natCast, appendInt_natCast]
    exact numeral_lt_of_high digits_ordered (lt_pow_digitCount 2 _) (lt_pow_digitCount 2 _)
      (fun _ => hhours) (colon_high _) (colon_high _)

theorem tdiv_neg_iff (o : Int) : o.tdiv 60 < 0 ↔ West o := by
  unfold West
  rw [Int.tdiv_eq_ediv]
  split
  · omega
  · have hsign : Int.sign 60 = 1 := rfl
    omega

/-- A zone other than UTC: the sign, then hours and minutes. -/
theorem appendZone_of_ne {o : Int} (h : o ≠ 0) :
    appendZone o = (if West o then byte '-' else byte '+') ::
      (appendInt (o.natAbs / 60 / 60 : Nat) 2 ++
        byte ':' :: appendInt (o.natAbs / 60 % 60 : Nat) 2) := by
  have habs : (o.tdiv 60).natAbs = o.natAbs / 60 := Int.natAbs_tdiv o 60
  unfold appendZone
  rw [if_neg h]
  simp only [habs, tdiv_neg_iff]

theorem sign_lt_iff (o o' : Int) :
    (if West o then byte '-' else byte '+') < (if West o' then byte '-' else byte '+') ↔
      ¬ West o ∧ West o' := by
  by_cases ho : West o
  · by_cases ho' : West o'
    · simp [ho, ho']
    · simp [ho, ho']
      decide
  · by_cases ho' : West o'
    · simp [ho, ho']
      decide
    · simp [ho, ho']

theorem sign_eq_iff (o o' : Int) :
    (if West o then byte '-' else byte '+') = (if West o' then byte '-' else byte '+') ↔
      (West o ↔ West o') := by
  have hne : byte '-' ≠ byte '+' := by decide
  by_cases ho : West o <;> by_cases ho' : West o' <;> simp [ho, ho', hne, hne.symm]

theorem zone_lt_iff (o o' : Int) : appendZone o < appendZone o' ↔ ZoneBelow o o' := by
  have hsign (x : Int) (s : GoString) :
      (if West x then byte '-' else byte '+') :: s < lit "Z" := by
    refine List.cons_lt_cons_iff.mpr (Or.inl ?_)
    split
    · decide
    · decide
  have hutc : appendZone 0 = lit "Z" := rfl
  unfold ZoneBelow
  by_cases ho : o = 0
  · by_cases ho' : o' = 0
    · simp [ho, ho', List.lt_irrefl]
    · rw [ho, hutc, appendZone_of_ne ho']
      exact iff_of_false (List.lt_asymm (hsign o' _)) (by simp)
  · by_cases ho' : o' = 0
    · rw [ho', hutc, appendZone_of_ne ho]
      exact iff_of_true (hsign o _) ⟨ho, Or.inl rfl⟩
    · rw [appendZone_of_ne ho, appendZone_of_ne ho', List.cons_lt_cons_iff, sign_lt_iff,
        sign_eq_iff, minutes_lt_iff]
      simp [ho, ho']

/-! ## The whole text -/

def Alike (a b : Time) : Prop :=
  a.abs = b.abs ∧ a.nsec = b.nsec ∧ SameZone a.offset b.offset

/-- Of two times with different texts, which text is first: the first part that differs decides. -/
def Below (a b : Time) : Prop :=
  if a.year ≠ b.year then YearBelow a.year b.year
  else if a.abs ≠ b.abs then a.abs < b.abs
  else if a.nsec ≠ b.nsec then FractionBelow a b
  else ZoneBelow a.offset b.offset

instance decidableAlike (a b : Time) : Decidable (Alike a b) := inferInstanceAs (Decidable (_ ∧ _))

instance decidableBelow (a b : Time) : Decidable (Below a b) :=
  inferInstanceAs (Decidable (if a.year ≠ b.year then _ else _))

/-- Within a year: the local reading of the clock, then what follows the seconds. -/
theorem clock_lt_iff (hyear : a.year = b.year) :
    formatRFC3339Nano a < formatRFC3339Nano b ↔
      a.abs < b.abs ∨ (a.abs = b.abs ∧ appendNano a.nsec ++ appendZone a.offset <
        appendNano b.nsec ++ appendZone b.offset) := by
  obtain ⟨hamonth, haday, hahour, haminute, hasecond⟩ := a.fields_lt
  obtain ⟨hbmonth, hbday, hbhour, hbminute, hbsecond⟩ := b.fields_lt
  rw [Time.abs_lt_iff hyear, Time.abs_eq_iff hyear]
  unfold formatRFC3339Nano
  rw [hyear, append_lt_append_left_iff, List.cons_lt_cons_self, field_lt_iff hamonth hbmonth,
    field_lt_iff haday hbday, field_lt_iff hahour hbhour, field_lt_iff haminute hbminute,
    appendInt_of_lt hasecond, appendInt_of_lt hbsecond, decimal, decimal,
    numeral_append_lt_iff digits_ordered hasecond hbsecond]
  simp only [and_or_left, or_assoc, and_assoc]

theorem formatRFC3339Nano_lt_iff (a b : Time) :
    formatRFC3339Nano a < formatRFC3339Nano b ↔ Below a b := by
  unfold Below
  by_cases hyear : a.year = b.year
  · rw [if_neg (not_not.mpr hyear), clock_lt_iff hyear]
    by_cases habs : a.abs = b.abs
    · rw [if_neg (not_not.mpr habs)]
      by_cases hnsec : a.nsec = b.nsec
      · rw [if_neg (not_not.mpr hnsec), hnsec, append_lt_append_left_iff, zone_lt_iff]
        simp [habs]
      · rw [if_pos hnsec, fraction_lt_iff hnsec]
        simp [habs]
    · rw [if_pos habs]
      simp [habs]
  · rw [if_pos hyear]
    exact year_lt_iff hyear _ _

/-! ## Equal texts -/

theorem yearBelow_total {y z : Int} (hne : y ≠ z) : YearBelow y z ∨ YearBelow z y := by
  unfold YearBelow
  by_cases hsign : y < 0 ↔ z < 0
  · have habs : y.natAbs ≠ z.natAbs := by omega
    rcases shortFirst_total (by decide : 0 < 10)
      (fun _ => habs : digitCount 4 y.natAbs = digitCount 4 z.natAbs → _) with h | h
    · exact Or.inl (Or.inr ⟨hsign, h⟩)
    · exact Or.inr (Or.inr ⟨hsign.symm, h⟩)
  · omega

theorem fractionBelow_total (hne : a.nsec ≠ b.nsec) :
    FractionBelow a b ∨ FractionBelow b a := by
  unfold FractionBelow
  omega

theorem minutesBelow_total {m n : Nat} (hne : m ≠ n) : MinutesBelow m n ∨ MinutesBelow n m := by
  unfold MinutesBelow
  by_cases hhours : m / 60 = n / 60
  · rw [if_pos hhours, if_pos hhours.symm]
    omega
  · rw [if_neg hhours, if_neg (Ne.symm hhours)]
    exact shortLast_total fun _ => hhours

theorem zoneBelow_total {o o' : Int} (hne : ¬ SameZone o o') : ZoneBelow o o' ∨ ZoneBelow o' o := by
  unfold ZoneBelow
  unfold SameZone at hne
  by_cases ho : o = 0
  · have ho' : o' ≠ 0 := by
      rintro rfl
      exact hne (by simp [ho])
    exact Or.inr ⟨ho', Or.inl ho⟩
  · by_cases ho' : o' = 0
    · exact Or.inl ⟨ho, Or.inl ho'⟩
    · by_cases hwest : West o ↔ West o'
      · have hminutes : o.natAbs / 60 ≠ o'.natAbs / 60 := by
          intro heq
          exact hne ⟨iff_of_false ho ho', hwest, heq⟩
        rcases minutesBelow_total hminutes with h | h
        · exact Or.inl ⟨ho, Or.inr (Or.inr ⟨hwest, h⟩)⟩
        · exact Or.inr ⟨ho', Or.inr (Or.inr ⟨hwest.symm, h⟩)⟩
      · tauto

theorem SameZone.not_below {o o' : Int} (h : SameZone o o') : ¬ ZoneBelow o o' := by
  obtain ⟨hzero, hwest, hminutes⟩ := h
  rintro ⟨hne, hutc | hcross | ⟨_, hbelow⟩⟩
  · exact hne (hzero.mpr hutc)
  · exact hcross.1 (hwest.mpr hcross.2)
  · unfold MinutesBelow at hbelow
    rw [hminutes, if_pos rfl] at hbelow
    exact lt_irrefl _ hbelow

theorem SameZone.symm {o o' : Int} (h : SameZone o o') : SameZone o' o :=
  ⟨h.1.symm, h.2.1.symm, h.2.2.symm⟩

theorem Alike.symm (h : Alike a b) : Alike b a :=
  ⟨h.1.symm, h.2.1.symm, h.2.2.symm⟩

theorem Alike.not_below (h : Alike a b) : ¬ Below a b := by
  obtain ⟨habs, hnsec, hzone⟩ := h
  have hyear : a.year = b.year := by
    unfold Time.year
    rw [habs]
  unfold Below
  rw [if_neg (not_not.mpr hyear), if_neg (not_not.mpr habs), if_neg (not_not.mpr hnsec)]
  exact hzone.not_below

theorem below_total (hne : ¬ Alike a b) : Below a b ∨ Below b a := by
  unfold Below
  by_cases hyear : a.year = b.year
  · rw [if_neg (not_not.mpr hyear), if_neg (not_not.mpr hyear.symm)]
    by_cases habs : a.abs = b.abs
    · rw [if_neg (not_not.mpr habs), if_neg (not_not.mpr habs.symm)]
      by_cases hnsec : a.nsec = b.nsec
      · rw [if_neg (not_not.mpr hnsec), if_neg (not_not.mpr hnsec.symm)]
        exact zoneBelow_total fun hzone => hne ⟨habs, hnsec, hzone⟩
      · rw [if_pos hnsec, if_pos (Ne.symm hnsec)]
        exact fractionBelow_total hnsec
    · rw [if_pos habs, if_pos (Ne.symm habs)]
      exact Nat.lt_or_gt_of_ne habs
  · rw [if_pos hyear, if_pos (Ne.symm hyear)]
    exact yearBelow_total hyear

theorem formatRFC3339Nano_eq_iff (a b : Time) :
    formatRFC3339Nano a = formatRFC3339Nano b ↔ Alike a b := by
  constructor
  · intro heq
    by_contra hne
    rcases below_total hne with h | h
    · rw [← formatRFC3339Nano_lt_iff, heq] at h
      exact List.lt_irrefl _ h
    · rw [← formatRFC3339Nano_lt_iff, heq] at h
      exact List.lt_irrefl _ h
  · intro halike
    rcases Std.lt_trichotomy (formatRFC3339Nano a) (formatRFC3339Nano b) with h | h | h
    · exact absurd ((formatRFC3339Nano_lt_iff a b).mp h) halike.not_below
    · exact h
    · exact absurd ((formatRFC3339Nano_lt_iff b a).mp h) halike.symm.not_below

/-!
## Texts of different layouts

Texts that start with a date are compared by their dates.  Only if the dates agree does the rest
count, and there texts of different layouts part at once: a blank is below the `T` of `RFC3339`.
So the time of the day never matters between them.
-/

/-! ### Dates -/

def Time.localDay (t : Time) : Nat := t.abs / secondsPerDay

def DateBelow (a b : Time) : Prop :=
  if a.year ≠ b.year then YearBelow a.year b.year else a.localDay < b.localDay

instance decidableDateBelow (a b : Time) : Decidable (DateBelow a b) :=
  inferInstanceAs (Decidable (if a.year ≠ b.year then _ else _))

theorem year_eq_of_localDay_eq (h : a.localDay = b.localDay) : a.year = b.year :=
  congrArg Days.year h

/-- Within a year. -/
theorem monthDay_lt_iff (hyear : a.year = b.year) (s t : GoString) :
    appendInt a.month 2 ++ byte '-' :: (appendInt a.day 2 ++ s) <
        appendInt b.month 2 ++ byte '-' :: (appendInt b.day 2 ++ t) ↔
      a.localDay < b.localDay ∨ (a.localDay = b.localDay ∧ s < t) := by
  obtain ⟨hamonth, haday, -⟩ := a.fields_lt
  obtain ⟨hbmonth, hbday, -⟩ := b.fields_lt
  have hlt : a.localDay < b.localDay ↔ _ := Days.lt_iff_date hyear
  have heq : a.localDay = b.localDay ↔ _ := Days.eq_iff_date hyear
  rw [field_lt_iff hamonth hbmonth, appendInt_of_lt haday, appendInt_of_lt hbday, decimal, decimal,
    numeral_append_lt_iff digits_ordered haday hbday, hlt, heq]
  simp only [and_or_left, or_assoc, and_assoc]
  rfl

theorem dateText_lt_iff (a b : Time) (s t : GoString) :
    dateText a s < dateText b t ↔ DateBelow a b ∨ (a.localDay = b.localDay ∧ s < t) := by
  unfold dateText DateBelow
  by_cases hyear : a.year = b.year
  · rw [if_neg (not_not.mpr hyear), hyear, append_lt_append_left_iff, List.cons_lt_cons_self,
      monthDay_lt_iff hyear]
  · have hday : a.localDay ≠ b.localDay := mt year_eq_of_localDay_eq hyear
    rw [if_pos hyear, year_lt_iff hyear]
    simp [hday]

theorem dateBelow_iff (a b : Time) : DateBelow a b ↔ dateText a [] < dateText b [] := by
  rw [dateText_lt_iff]
  simp

theorem DateBelow.asymm (h : DateBelow a b) : ¬ DateBelow b a := by
  rw [dateBelow_iff] at *
  exact List.lt_asymm h

theorem DateBelow.ne (h : DateBelow a b) : a.localDay ≠ b.localDay := by
  intro heq
  unfold DateBelow at h
  rw [if_neg (not_not.mpr (year_eq_of_localDay_eq heq)), heq] at h
  exact lt_irrefl _ h

theorem dateBelow_total (h : a.localDay ≠ b.localDay) :
    DateBelow a b ∨ DateBelow b a := by
  unfold DateBelow
  by_cases hyear : a.year = b.year
  · rw [if_neg (not_not.mpr hyear), if_neg (not_not.mpr hyear.symm)]
    exact Nat.lt_or_gt_of_ne h
  · rw [if_pos hyear, if_pos (Ne.symm hyear)]
    exact yearBelow_total hyear

/-! ### A blank against a `T` -/

theorem blank_lt_T (s t : GoString) : byte ' ' :: s < byte 'T' :: t :=
  List.cons_lt_cons_iff.mpr (Or.inl (by decide))

theorem formatDateTime_lt_iff (a b : Time) :
    formatDateTime a < formatRFC3339Nano b ↔ DateBelow a b ∨ a.localDay = b.localDay := by
  have hsplit : formatDateTime a < formatRFC3339Nano b ↔ _ := dateText_lt_iff a b _ _
  rw [hsplit, and_iff_left (blank_lt_T _ _)]

/-- The texts are in this order only if the date is later. -/
theorem le_formatDateTime_iff (a b : Time) :
    formatRFC3339Nano b ≤ formatDateTime a ↔ DateBelow b a := by
  rw [← List.not_lt, formatDateTime_lt_iff]
  constructor
  · intro h
    rw [not_or] at h
    exact (dateBelow_total h.2).resolve_left h.1
  · rintro h (hbelow | heq)
    · exact h.asymm hbelow
    · exact h.ne heq.symm

theorem lt_formatString_iff (zoneName : GoString) (a b : Time) :
    formatRFC3339Nano a < formatString zoneName b ↔ DateBelow a b := by
  have hsplit : formatRFC3339Nano a < formatString zoneName b ↔ _ := dateText_lt_iff a b _ _
  rw [hsplit, or_iff_left]
  rintro ⟨_, hlt⟩
  exact List.lt_asymm hlt (blank_lt_T _ _)

end GloryHole.Go
