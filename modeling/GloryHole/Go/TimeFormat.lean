import GloryHole.Go.Strings
import GloryHole.Go.Time
import GloryHole.Support.Numerals
import Mathlib.Data.Nat.Digits.Lemmas

/-!
# The layout `time.RFC3339Nano`

`appendFormatRFC3339` of Go 1.24.  A year takes at least four digits, the other fields of date and
time two.  The fraction of the second loses its zeros at the end, and is left out if it is zero.
-/

namespace GloryHole.Go

open Support.Numerals

/-! ## The text -/

def digit (d : Nat) : UInt8 := byte '0' + UInt8.ofNat d

def decimal (k n : Nat) : GoString := numeral digit 10 k n

def digitCount (width n : Nat) : Nat := max width (Nat.digits 10 n).length

def appendInt (x : Int) (width : Nat) : GoString :=
  (if x < 0 then [byte '-'] else []) ++ decimal (digitCount width x.natAbs) x.natAbs

def appendNano (nsec : Nat) : GoString :=
  if nsec = 0 then []
  else
    let trimmed := (byte '.' :: appendInt nsec 9).rdropWhile (· == byte '0')
    if trimmed.getLast? = some (byte '.') then trimmed.dropLast else trimmed

/-- The zone, in minutes; seconds of the offset are dropped towards zero. -/
def appendZone (offset : Int) : GoString :=
  if offset = 0 then lit "Z"
  else
    let zone := offset.tdiv 60
    (if zone < 0 then byte '-' else byte '+') ::
      (appendInt (zone.natAbs / 60 : Nat) 2 ++ byte ':' :: appendInt (zone.natAbs % 60 : Nat) 2)

def formatRFC3339Nano (t : Time) : GoString :=
  appendInt t.year 4 ++ byte '-' :: (appendInt t.month 2 ++ byte '-' :: (appendInt t.day 2 ++
    byte 'T' :: (appendInt t.hour 2 ++ byte ':' :: (appendInt t.minute 2 ++
      byte ':' :: (appendInt t.second 2 ++ (appendNano t.nsec ++ appendZone t.offset))))))

def dateText (t : Time) (rest : GoString) : GoString :=
  appendInt t.year 4 ++ byte '-' :: (appendInt t.month 2 ++ byte '-' :: (appendInt t.day 2 ++ rest))

def clockText (t : Time) (rest : GoString) : GoString :=
  appendInt t.hour 2 ++ byte ':' :: (appendInt t.minute 2 ++ byte ':' :: (appendInt t.second 2 ++
    rest))

/-- The layout `2006-01-02 15:04:05`. -/
def formatDateTime (t : Time) : GoString := dateText t (byte ' ' :: clockText t [])

/-- The zone in the layout `-0700`. -/
def appendOffset (offset : Int) : GoString :=
  let zone := offset.tdiv 60
  (if zone < 0 then byte '-' else byte '+') ::
    (appendInt (zone.natAbs / 60 : Nat) 2 ++ appendInt (zone.natAbs % 60 : Nat) 2)

/-- The layout `2006-01-02 15:04:05.999999999 -0700 MST`; a location may have no name for its
zone at the time. -/
def formatString (zoneName : GoString) (t : Time) : GoString :=
  dateText t (byte ' ' :: clockText t (appendNano t.nsec ++ byte ' ' :: (appendOffset t.offset ++
    byte ' ' :: (if zoneName ≠ [] then zoneName else appendOffset t.offset))))

/-! ## Fields -/

theorem digits_ordered : Digits digit 10 where
  pos := by decide
  lt_iff := by decide

theorem lt_pow_digitCount (width n : Nat) : n < 10 ^ digitCount width n :=
  (Nat.lt_base_pow_length_digits (by decide)).trans_le
    (Nat.pow_le_pow_right (by decide) (Nat.le_max_right _ _))

theorem digitCount_of_lt {width n : Nat} (h : n < 10 ^ width) : digitCount width n = width :=
  Nat.max_eq_left ((Nat.digits_length_le_iff (by decide) n).mpr h)

theorem appendInt_natCast (n width : Nat) :
    appendInt n width = decimal (digitCount width n) n := by
  unfold appendInt
  rw [if_neg (by omega), List.nil_append, Int.natAbs_natCast]

/-- A field that fits its width. -/
theorem appendInt_of_lt {width n : Nat} (h : n < 10 ^ width) :
    appendInt n width = decimal width n := by
  rw [appendInt_natCast, digitCount_of_lt h]

/-- A field of two digits and its separator. -/
theorem field_lt_iff {u v : Nat} (hu : u < 100) (hv : v < 100) (sep : UInt8) (s t : GoString) :
    appendInt u 2 ++ sep :: s < appendInt v 2 ++ sep :: t ↔ u < v ∨ (u = v ∧ s < t) := by
  rw [appendInt_of_lt hu, appendInt_of_lt hv]
  unfold decimal
  rw [numeral_append_lt_iff digits_ordered hu hv, List.cons_lt_cons_iff]
  simp

theorem Time.fields_lt (t : Time) :
    t.month < 100 ∧ t.day < 100 ∧ t.hour < 100 ∧ t.minute < 100 ∧ t.second < 100 := by
  have hmonth := Days.month_bounds (t.abs / secondsPerDay)
  have hday := Days.day_bounds (t.abs / secondsPerDay)
  unfold Time.month Time.day Time.hour Time.minute Time.second secondsPerDay at *
  omega

/-- The fraction with its dot: as many digits as are needed. -/
theorem appendNano_of_pos {n : Nat} (hn : 0 < n) (hlt : n < 10 ^ 9) :
    appendNano n =
      byte '.' :: decimal (9 - trailing 10 9 n) (n / 10 ^ trailing 10 9 n) := by
  have htrim : (byte '.' :: appendInt n 9).rdropWhile (· == byte '0') =
      byte '.' :: decimal (9 - trailing 10 9 n) (n / 10 ^ trailing 10 9 n) := by
    rw [appendInt_of_lt hlt]
    exact rdropWhile_numeral (by decide) (by decide) (by decide : [byte '.'].rdropWhile _ = _) 9 n
  have hlast : (byte '.' :: decimal (9 - trailing 10 9 n) (n / 10 ^ trailing 10 9 n)).getLast? ≠
      some (byte '.') := by
    have hne : decimal (9 - trailing 10 9 n) (n / 10 ^ trailing 10 9 n) ≠ [] :=
      numeral_ne_nil _ _ _ (Nat.sub_pos_of_lt (trailing_lt hn hlt))
    rw [List.getLast?_cons_of_ne_nil hne]
    intro hdot
    obtain ⟨i, hi, heq⟩ := mem_numeral (by decide) (List.mem_of_getLast? hdot)
    revert i
    decide
  unfold appendNano
  rw [if_neg hn.ne', htrim]
  exact if_neg hlast

theorem zone_low {offset : Int} (h : offset ≠ 0) : Low digit 10 (appendZone offset) := by
  unfold appendZone
  rw [if_neg h]
  refine ⟨_, _, rfl, ?_⟩
  split
  · decide
  · decide

theorem zone_high {offset : Int} (h : offset = 0) : High digit 10 (appendZone offset) := by
  unfold appendZone
  rw [if_pos h]
  exact ⟨byte 'Z', [], rfl, by decide⟩

end GloryHole.Go
