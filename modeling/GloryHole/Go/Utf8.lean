import GloryHole.Go.Strings

/-!
# UTF-8 and letter case

`strings.ToLower` maps the runes of a string; bytes that are no valid UTF-8 come out
as U+FFFD.  The tables of `unicode.ToLower` and `unicode.ToUpper` beyond ASCII are
parameters, and what is proved holds for every table.
-/

namespace GloryHole.Go

def asciiLower (b : UInt8) : UInt8 := if 0x41 ≤ b ∧ b ≤ 0x5A then b + 0x20 else b

def asciiUpper (b : UInt8) : UInt8 := if 0x61 ≤ b ∧ b ≤ 0x7A then b - 0x20 else b

/-- How many continuation bytes a lead byte announces and the range of the first. -/
def runeShape (b : UInt8) : Option (Nat × UInt8 × UInt8) :=
  if 0xC2 ≤ b ∧ b ≤ 0xDF then some (1, 0x80, 0xBF)
  else if b = 0xE0 then some (2, 0xA0, 0xBF)
  else if b = 0xED then some (2, 0x80, 0x9F)
  else if 0xE1 ≤ b ∧ b ≤ 0xEF then some (2, 0x80, 0xBF)
  else if b = 0xF0 then some (3, 0x90, 0xBF)
  else if b = 0xF4 then some (3, 0x80, 0x8F)
  else if 0xF1 ≤ b ∧ b ≤ 0xF3 then some (3, 0x80, 0xBF)
  else none

def continuation : Nat → UInt8 → UInt8 → GoString → Option GoString
  | 0, _, _, _ => some []
  | _ + 1, _, _, [] => none
  | n + 1, lo, hi, c :: rest =>
    if lo ≤ c ∧ c ≤ hi then (continuation n 0x80 0xBF rest).map (c :: ·) else none

/-- `utf8.DecodeRuneInString` beyond ASCII: the code point and the bytes after the lead
byte, or `none` where Go reports a one-byte error. -/
def decodeRune (b : UInt8) (rest : GoString) : Option (Nat × GoString) :=
  match runeShape b with
  | none => none
  | some (n, lo, hi) =>
    (continuation n lo hi rest).map fun cs =>
      (cs.foldl (fun r c => r * 64 + c.toNat % 64) (b.toNat % 2 ^ (6 - n)), cs)

/-- `utf8.AppendRune`. -/
def encodeRune (r : Nat) : GoString :=
  if r < 0x80 then [UInt8.ofNat r]
  else if r < 0x800 then [UInt8.ofNat (0xC0 + r / 64), UInt8.ofNat (0x80 + r % 64)]
  else if 0x10FFFF < r ∨ (0xD800 ≤ r ∧ r ≤ 0xDFFF) then [0xEF, 0xBF, 0xBD]
  else if r < 0x10000 then
    [UInt8.ofNat (0xE0 + r / 4096), UInt8.ofNat (0x80 + r / 64 % 64),
      UInt8.ofNat (0x80 + r % 64)]
  else
    [UInt8.ofNat (0xF0 + r / 262144), UInt8.ofNat (0x80 + r / 4096 % 64),
      UInt8.ofNat (0x80 + r / 64 % 64), UInt8.ofNat (0x80 + r % 64)]

/-- `strings.Map`, rune by rune, with `ascii` on ASCII bytes and `rune` beyond. -/
def mapRunes (ascii : UInt8 → UInt8) (rune : Nat → Nat) : Nat → GoString → GoString
  | 0, _ => []
  | _ + 1, [] => []
  | fuel + 1, b :: rest =>
    if b < 0x80 then ascii b :: mapRunes ascii rune fuel rest
    else
      match decodeRune b rest with
      | some (r, cs) =>
        encodeRune (rune r) ++ mapRunes ascii rune fuel (rest.drop cs.length)
      | none => [0xEF, 0xBF, 0xBD] ++ mapRunes ascii rune fuel rest

/-- `strings.ToLower` and `strings.ToUpper`: ASCII strings are mapped bytewise. -/
def mapCase (ascii : UInt8 → UInt8) (rune : Nat → Nat) (s : GoString) : GoString :=
  if s.all (· < 0x80) then s.map ascii else mapRunes ascii rune s.length s

def toLower (lower : Nat → Nat) (s : GoString) : GoString := mapCase asciiLower lower s

def toUpper (upper : Nat → Nat) (s : GoString) : GoString := mapCase asciiUpper upper s

def validRunes : Nat → GoString → Bool
  | _, [] => true
  | 0, _ :: _ => false
  | fuel + 1, b :: rest =>
    if b < 0x80 then validRunes fuel rest
    else
      match decodeRune b rest with
      | some (_, cs) => validRunes fuel (rest.drop cs.length)
      | none => false

/-- `utf8.ValidString`. -/
def validString (s : GoString) : Bool := validRunes s.length s

theorem validString_cons {b : UInt8} (h : b < 0x80) (s : GoString) :
    validString (b :: s) = validString s := by
  simp [validString, validRunes, h]

/-! ## Quoting -/

def hexDigit (n : Nat) : UInt8 :=
  if n < 10 then UInt8.ofNat ('0'.toNat + n) else UInt8.ofNat ('a'.toNat + (n - 10))

def hexDigits : Nat → Nat → GoString
  | 0, _ => []
  | width + 1, n => hexDigits width (n / 16) ++ [hexDigit (n % 16)]

def escapeLetter (r : Nat) : Option UInt8 :=
  [(7, byte 'a'), (8, byte 'b'), (9, byte 't'), (10, byte 'n'), (11, byte 'v'),
    (12, byte 'f'), (13, byte 'r')].lookup r

/-- A rune between double quotes; `printable` is `strconv.IsPrint` beyond ASCII. -/
def escapeRune (printable : Nat → Bool) (r : Nat) : GoString :=
  if r = 0x22 ∨ r = 0x5C then [0x5C, UInt8.ofNat r]
  else if (0x20 ≤ r ∧ r < 0x7F) ∨ (0x80 ≤ r ∧ printable r) then encodeRune r
  else
    match escapeLetter r with
    | some letter => [0x5C, letter]
    | none =>
      if r < 0x80 then [0x5C, byte 'x'] ++ hexDigits 2 r
      else if r < 0x10000 then [0x5C, byte 'u'] ++ hexDigits 4 r
      else [0x5C, byte 'U'] ++ hexDigits 8 r

def escapeRunes (printable : Nat → Bool) : Nat → GoString → GoString
  | 0, _ => []
  | _ + 1, [] => []
  | fuel + 1, b :: rest =>
    if b < 0x80 then escapeRune printable b.toNat ++ escapeRunes printable fuel rest
    else
      match decodeRune b rest with
      | some (r, cs) =>
        escapeRune printable r ++ escapeRunes printable fuel (rest.drop cs.length)
      | none => [0x5C, byte 'x'] ++ hexDigits 2 b.toNat ++ escapeRunes printable fuel rest

/-- `strconv.Quote`, the verb `%q`. -/
def quote (printable : Nat → Bool) (s : GoString) : GoString :=
  [0x22] ++ escapeRunes printable s.length s ++ [0x22]

/-! ## Case-insensitive spelling -/

/-- The two strings differ at most in the case of ASCII letters. -/
def SameSpelling (s t : GoString) : Prop := s.map asciiLower = t.map asciiLower

instance (s t : GoString) : Decidable (SameSpelling s t) :=
  inferInstanceAs (Decidable (_ = _))

theorem asciiLower_toNat (b : UInt8) :
    (asciiLower b).toNat =
      if 0x41 ≤ b.toNat ∧ b.toNat ≤ 0x5A then b.toNat + 0x20 else b.toNat := by
  have hcond : (0x41 ≤ b ∧ b ≤ 0x5A) ↔ 0x41 ≤ b.toNat ∧ b.toNat ≤ 0x5A := by
    simp [UInt8.le_iff_toNat_le]
  unfold asciiLower
  split
  · rename_i h
    rw [if_pos (hcond.mp h), UInt8.toNat_add]
    have := (hcond.mp h).2
    simp
    omega
  · rename_i h
    rw [if_neg (fun h' => h (hcond.mpr h'))]

theorem asciiLower_ascii (b : UInt8) : asciiLower b < 0x80 ↔ b < 0x80 := by
  have := asciiLower_toNat b
  simp only [UInt8.lt_iff_toNat_lt, this, UInt8.reduceToNat]
  split <;> omega

theorem asciiLower_of_not_ascii {b : UInt8} (hb : ¬ b < 0x80) : asciiLower b = b := by
  simp only [UInt8.lt_iff_toNat_lt, UInt8.reduceToNat] at hb
  refine UInt8.toNat_inj.mp ?_
  rw [asciiLower_toNat, if_neg (by omega)]

theorem asciiLower_idem (b : UInt8) : asciiLower (asciiLower b) = asciiLower b := by
  refine UInt8.toNat_inj.mp ?_
  rw [asciiLower_toNat, asciiLower_toNat]
  repeat' split
  all_goals omega

/-- Continuation bytes are not ASCII, so lower-casing ASCII letters neither makes nor
breaks one. -/
theorem continuation_asciiLower (n : Nat) (lo hi : UInt8) (hlo : 0x80 ≤ lo) (s : GoString) :
    continuation n lo hi (s.map asciiLower) = continuation n lo hi s := by
  induction n generalizing lo hi s with
  | zero => rfl
  | succ n ih =>
    cases s with
    | nil => rfl
    | cons c rest =>
      simp only [List.map_cons, continuation]
      by_cases hc : c < 0x80
      · have hc' := (asciiLower_ascii c).mpr hc
        have hno : ∀ b : UInt8, b < 0x80 → ¬ (lo ≤ b ∧ b ≤ hi) := by
          rintro b hb ⟨hle, -⟩
          simp only [UInt8.lt_iff_toNat_lt, UInt8.le_iff_toNat_le] at *
          omega
        rw [if_neg (hno c hc), if_neg (hno _ hc')]
      · rw [asciiLower_of_not_ascii hc, ih 0x80 0xBF (by decide)]

theorem runeShape_low {b : UInt8} {n : Nat} {lo hi : UInt8}
    (h : runeShape b = some (n, lo, hi)) : 0x80 ≤ lo := by
  unfold runeShape at h
  repeat' split at h
  all_goals cases h
  all_goals decide

theorem decodeRune_asciiLower (b : UInt8) (rest : GoString) :
    decodeRune b (rest.map asciiLower) = decodeRune b rest := by
  unfold decodeRune
  cases hshape : runeShape b with
  | none => rfl
  | some shape =>
    obtain ⟨n, lo, hi⟩ := shape
    simp only [continuation_asciiLower n lo hi (runeShape_low hshape)]

theorem mapRunes_asciiLower (lower : Nat → Nat) (fuel : Nat) (s : GoString) :
    mapRunes asciiLower lower fuel (s.map asciiLower) = mapRunes asciiLower lower fuel s := by
  induction fuel generalizing s with
  | zero => rfl
  | succ fuel ih =>
    cases s with
    | nil => rfl
    | cons b rest =>
      simp only [List.map_cons, mapRunes, asciiLower_ascii, asciiLower_idem, ih]
      split
      · rfl
      · rename_i hb
        rw [asciiLower_of_not_ascii hb, decodeRune_asciiLower]
        split
        · rw [← List.map_drop, ih]
        · rfl

theorem toLower_asciiLower (lower : Nat → Nat) (s : GoString) :
    toLower lower (s.map asciiLower) = toLower lower s := by
  unfold toLower mapCase
  simp only [List.all_map, Function.comp_def, asciiLower_ascii, List.map_map,
    asciiLower_idem, List.length_map, mapRunes_asciiLower]

theorem toLower_dot (lower : Nat → Nat) (s : GoString) :
    toLower lower (byte '.' :: s) = byte '.' :: toLower lower s := by
  have hascii : byte '.' < 0x80 := by decide
  unfold toLower mapCase
  simp only [List.all_cons, hascii, decide_true, Bool.true_and]
  split
  · rfl
  · rw [List.length_cons, mapRunes, if_pos hascii]
    rfl

/-- `strings.ToLower` does not see the case of ASCII letters. -/
theorem toLower_eq_of_sameSpelling (lower : Nat → Nat) {s t : GoString}
    (h : SameSpelling s t) : toLower lower s = toLower lower t := by
  rw [← toLower_asciiLower lower s, h, toLower_asciiLower]

end GloryHole.Go
