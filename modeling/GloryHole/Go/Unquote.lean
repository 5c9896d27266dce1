import GloryHole.Go.Address

/-!
# Quoted texts read back

A reader of the text between two double quotes: it knows the escapes `strconv.Quote`
writes.  What is proved is that it reads back every string that was quoted, valid UTF-8
or not, whichever runes count as printable.
-/

namespace GloryHole.Go

def readHex : Nat → Nat → GoString → Option (Nat × GoString)
  | 0, acc, s => some (acc, s)
  | _ + 1, _, [] => none
  | width + 1, acc, b :: s => (hexVal b).bind fun d => readHex width (acc * 16 + d) s

def unescapeLetter (b : UInt8) : Option UInt8 :=
  [(byte 'a', 0x07), (byte 'b', 0x08), (byte 't', 0x09), (byte 'n', 0x0A), (byte 'v', 0x0B),
    (byte 'f', 0x0C), (byte 'r', 0x0D), (0x5C, 0x5C), (0x22, 0x22)].lookup b

def readRune (width : Nat) (s : GoString) : Option (GoString × GoString) :=
  (readHex width 0 s).bind fun (r, rest) =>
    if r ≤ 0x10FFFF ∧ ¬ (0xD800 ≤ r ∧ r ≤ 0xDFFF) then some (encodeRune r, rest) else none

def readEscape : GoString → Option (GoString × GoString)
  | [] => none
  | b :: s =>
    match unescapeLetter b with
    | some c => some ([c], s)
    | none =>
      if b = byte 'x' then (readHex 2 0 s).map fun (n, rest) => ([UInt8.ofNat n], rest)
      else if b = byte 'u' then readRune 4 s
      else if b = byte 'U' then readRune 8 s
      else none

def unquoteLoop : Nat → GoString → Option GoString
  | _, [] => some []
  | 0, _ :: _ => none
  | fuel + 1, b :: s =>
    if b = 0x5C then
      (readEscape s).bind fun (v, rest) => (unquoteLoop fuel rest).map (v ++ ·)
    else if b = 0x22 ∨ b = 0x0A then none
    else (unquoteLoop fuel s).map (b :: ·)

def unquote (s : GoString) : Option GoString := unquoteLoop s.length s

/-! ## Hexadecimal digits -/

theorem readHex_succ (width acc : Nat) (s : GoString) :
    readHex (width + 1) acc s = (readHex width acc s).bind fun p => readHex 1 p.1 p.2 := by
  induction width generalizing acc s with
  | zero => rfl
  | succ width ih =>
    cases s with
    | nil => rfl
    | cons b s =>
      rw [readHex, readHex]
      cases hexVal b with
      | none => rfl
      | some d => exact ih (acc * 16 + d) s

theorem readHex_hexDigits (width acc n : Nat) (s : GoString) :
    readHex width acc (hexDigits width n ++ s) =
      some (acc * 16 ^ width + n % 16 ^ width, s) := by
  induction width generalizing acc n s with
  | zero => simp [readHex, hexDigits, Nat.mod_one]
  | succ width ih =>
    rw [readHex_succ, hexDigits, List.append_assoc, ih, Option.bind_some]
    have hdigit : hexVal (hexDigit (n % 16)) = some (n % 16) :=
      hexVal_hexDigit (Nat.mod_lt _ (by decide))
    have hmod : n % 16 ^ (width + 1) = n / 16 % 16 ^ width * 16 + n % 16 := by
      rw [Nat.pow_succ', Nat.mod_mul]
      omega
    rw [List.singleton_append, readHex, hdigit, Option.bind_some, readHex, hmod]
    congr 2
    ring

variable {width r : Nat} {s rest v : GoString} {b : UInt8}

theorem readHex_hexDigits_of_lt {n : Nat} (s : GoString) (h : n < 16 ^ width) :
    readHex width 0 (hexDigits width n ++ s) = some (n, s) := by
  rw [readHex_hexDigits, Nat.mod_eq_of_lt h, Nat.zero_mul, Nat.zero_add]

/-! ## One round -/

/-- What a reader has taken from the front of a text, with no quote and no backslash in it. -/
def Taken (s rest : GoString) : Prop := ∃ v, s = v ++ rest ∧ ∀ b ∈ v, b ≠ 0x5C ∧ b ≠ 0x22

theorem taken_readHex {acc n : Nat} (h : readHex width acc s = some (n, rest)) :
    Taken s rest := by
  induction width generalizing acc s with
  | zero =>
    cases h
    exact ⟨[], rfl, by simp⟩
  | succ width ih =>
    cases s with
    | nil => cases h
    | cons b s =>
      rw [readHex, Option.bind_eq_some_iff] at h
      obtain ⟨d, hd, h⟩ := h
      obtain ⟨v, rfl, hv⟩ := ih h
      have hne (c : UInt8) (hc : hexVal c = none) : b ≠ c := by
        rintro rfl
        rw [hc] at hd
        cases hd
      exact ⟨b :: v, rfl, List.forall_mem_cons.mpr ⟨⟨hne _ (by decide), hne _ (by decide)⟩, hv⟩⟩

theorem taken_readRune (h : readRune width s = some (v, rest)) : Taken s rest := by
  rw [readRune, Option.bind_eq_some_iff] at h
  obtain ⟨⟨r, rest'⟩, hread, h⟩ := h
  dsimp only at h
  split at h
  · cases h
    exact taken_readHex hread
  · cases h

theorem taken_readEscape (h : readEscape s = some (v, rest)) : ∃ b s', s = b :: s' ∧
    Taken s' rest := by
  cases s with
  | nil => cases h
  | cons b s =>
    refine ⟨b, s, rfl, ?_⟩
    rw [readEscape] at h
    split at h
    · cases h
      exact ⟨[], rfl, by simp⟩
    · split at h
      · rw [Option.map_eq_some_iff] at h
        obtain ⟨⟨n, rest'⟩, hread, h⟩ := h
        cases h
        exact taken_readHex hread
      · split at h
        · exact taken_readRune h
        · split at h
          · exact taken_readRune h
          · cases h

theorem length_readEscape {s v rest : GoString} (h : readEscape s = some (v, rest)) :
    rest.length ≤ s.length := by
  obtain ⟨b, s', rfl, v', rfl, -⟩ := taken_readEscape h
  simp
  omega

/-- Fuel beyond the length is not used. -/
theorem unquoteLoop_eq {fuel : Nat} (h : s.length ≤ fuel) :
    unquoteLoop fuel s = unquote s := by
  induction fuel using Nat.strong_induction_on generalizing s with
  | _ fuel ih =>
    cases s with
    | nil => cases fuel <;> rfl
    | cons b s =>
      obtain ⟨fuel, rfl⟩ : ∃ n, fuel = n + 1 := ⟨fuel - 1, by simp at h; omega⟩
      have hs : s.length ≤ fuel := by simpa using h
      rw [unquote, List.length_cons, unquoteLoop, unquoteLoop]
      split
      · -- the rest after an escape is no longer than what stood after the backslash
        cases hread : readEscape s with
        | none => rfl
        | some p =>
          have hrest := @length_readEscape s p.1 p.2 hread
          simp only [Option.bind_some]
          rw [ih fuel (by omega) (by omega), ← ih s.length (by omega) hrest]
      · split
        · rfl
        · rw [ih fuel (by omega) hs, unquote]

theorem unquote_plain (s : GoString) (hslash : b ≠ 0x5C) (hquote : b ≠ 0x22) (hline : b ≠ 0x0A) :
    unquote (b :: s) = (unquote s).map (b :: ·) := by
  rw [unquote, List.length_cons, unquoteLoop, if_neg hslash, if_neg (by simp [hquote, hline]),
    unquote]

theorem unquote_escape (h : readEscape s = some (v, rest)) :
    unquote (0x5C :: s) = (unquote rest).map (v ++ ·) := by
  rw [unquote, List.length_cons, unquoteLoop, if_pos rfl, h, Option.bind_some]
  dsimp only
  rw [unquoteLoop_eq (length_readEscape h)]

/-- Bytes that are neither ASCII nor part of an escape stand for themselves. -/
theorem unquote_bytes (s : GoString) (hv : ∀ b ∈ v, ¬ b < 0x80) :
    unquote (v ++ s) = (unquote s).map (v ++ ·) := by
  induction v with
  | nil => cases h : unquote s <;> simp [h]
  | cons b v ih =>
    rw [List.forall_mem_cons] at hv
    have hne (c : UInt8) (hc : c < 0x80) : b ≠ c := fun h => hv.1 (h ▸ hc)
    rw [List.cons_append, unquote_plain _ (hne _ (by decide)) (hne _ (by decide))
      (hne _ (by decide)), ih hv.2, Option.map_map]
    rfl

/-! ## Runes -/

theorem continuation_succ {n : Nat} {lo hi : UInt8} {cs : GoString}
    (h : continuation (n + 1) lo hi s = some cs) :
    ∃ c t cs', s = c :: t ∧ cs = c :: cs' ∧ (lo.toNat ≤ c.toNat ∧ c.toNat ≤ hi.toNat) ∧
      continuation n 0x80 0xBF t = some cs' := by
  cases s with
  | nil => cases h
  | cons c t =>
    rw [continuation] at h
    split at h
    · rename_i hc
      rw [Option.map_eq_some_iff] at h
      obtain ⟨cs', h, rfl⟩ := h
      exact ⟨c, t, cs', rfl, rfl, by simpa [UInt8.le_iff_toNat_le] using hc, h⟩
    · cases h

theorem continuation_zero {lo hi : UInt8} {cs : GoString} (h : continuation 0 lo hi s = some cs) :
    cs = [] := by
  cases h
  rfl

theorem eq_ofNat {b : UInt8} {n : Nat} (h : n = b.toNat) : UInt8.ofNat n = b := by
  rw [h, UInt8.ofNat_toNat]

structure Encodes (r : Nat) (v : GoString) : Prop where
  low : 0x80 ≤ r
  high : r ≤ 0x10FFFF
  scalar : ¬ (0xD800 ≤ r ∧ r ≤ 0xDFFF)
  bytes : encodeRune r = v
  beyond : ∀ b ∈ v, ¬ b < 0x80

theorem encodes_two {c : UInt8} (hb : 0xC2 ≤ b.toNat ∧ b.toNat ≤ 0xDF)
    (hc : 0x80 ≤ c.toNat ∧ c.toNat ≤ 0xBF) :
    Encodes (b.toNat % 32 * 64 + c.toNat % 64) [b, c] where
  low := by omega
  high := by omega
  scalar := by omega
  bytes := by
    rw [encodeRune, if_neg (by omega), if_pos (by omega), @eq_ofNat b _ (by omega),
      @eq_ofNat c _ (by omega)]
  beyond := by
    simp [UInt8.lt_iff_toNat_lt]
    omega

theorem encodes_three {c d : UInt8} (hb : 0xE0 ≤ b.toNat ∧ b.toNat ≤ 0xEF)
    (hc : 0x80 ≤ c.toNat ∧ c.toNat ≤ 0xBF) (hd : 0x80 ≤ d.toNat ∧ d.toNat ≤ 0xBF)
    (hlow : b.toNat = 0xE0 → 0xA0 ≤ c.toNat) (hhigh : b.toNat = 0xED → c.toNat ≤ 0x9F) :
    Encodes ((b.toNat % 16 * 64 + c.toNat % 64) * 64 + d.toNat % 64) [b, c, d] where
  low := by omega
  high := by omega
  scalar := by omega
  bytes := by
    rw [encodeRune, if_neg (by omega), if_neg (by omega), if_neg (by omega),
      if_pos (by omega), @eq_ofNat b _ (by omega), @eq_ofNat c _ (by omega),
      @eq_ofNat d _ (by omega)]
  beyond := by
    simp [UInt8.lt_iff_toNat_lt]
    omega

theorem encodes_four {c d e : UInt8} (hb : 0xF0 ≤ b.toNat ∧ b.toNat ≤ 0xF4)
    (hc : 0x80 ≤ c.toNat ∧ c.toNat ≤ 0xBF) (hd : 0x80 ≤ d.toNat ∧ d.toNat ≤ 0xBF)
    (he : 0x80 ≤ e.toNat ∧ e.toNat ≤ 0xBF) (hlow : b.toNat = 0xF0 → 0x90 ≤ c.toNat)
    (hhigh : b.toNat = 0xF4 → c.toNat ≤ 0x8F) :
    Encodes (((b.toNat % 8 * 64 + c.toNat % 64) * 64 + d.toNat % 64) * 64 + e.toNat % 64)
      [b, c, d, e] where
  low := by omega
  high := by omega
  scalar := by omega
  bytes := by
    rw [encodeRune, if_neg (by omega), if_neg (by omega), if_neg (by omega),
      if_neg (by omega), @eq_ofNat b _ (by omega), @eq_ofNat c _ (by omega),
      @eq_ofNat d _ (by omega), @eq_ofNat e _ (by omega)]
  beyond := by
    simp [UInt8.lt_iff_toNat_lt]
    omega

/-- The shapes of a lead byte, with the range of the second byte. -/
theorem runeShape_cases {lo hi : UInt8} {n : Nat} (h : runeShape b = some (n, lo, hi)) :
    0x80 ≤ lo.toNat ∧ hi.toNat ≤ 0xBF ∧
      ((n = 1 ∧ 0xC2 ≤ b.toNat ∧ b.toNat ≤ 0xDF) ∨
        (n = 2 ∧ (0xE0 ≤ b.toNat ∧ b.toNat ≤ 0xEF) ∧ (b.toNat = 0xE0 → 0xA0 ≤ lo.toNat) ∧
          (b.toNat = 0xED → hi.toNat ≤ 0x9F)) ∨
        (n = 3 ∧ (0xF0 ≤ b.toNat ∧ b.toNat ≤ 0xF4) ∧ (b.toNat = 0xF0 → 0x90 ≤ lo.toNat) ∧
          (b.toNat = 0xF4 → hi.toNat ≤ 0x8F))) := by
  simp only [runeShape, UInt8.le_iff_toNat_le, ← UInt8.toNat_inj, UInt8.reduceToNat] at h
  split_ifs at h <;> cases h <;> simp <;> omega

theorem decodeRune_encodes {cs : GoString} (h : decodeRune b rest = some (r, cs)) :
    Encodes r (b :: cs) ∧ cs ++ rest.drop cs.length = rest := by
  unfold decodeRune at h
  split at h
  · cases h
  · rename_i n lo hi hshape
    rw [Option.map_eq_some_iff] at h
    obtain ⟨cs, hcont, hr⟩ := h
    cases hr
    obtain ⟨hlo, hhi, ⟨rfl, hb⟩ | ⟨rfl, hb, hlow, hhigh⟩ | ⟨rfl, hb, hlow, hhigh⟩⟩ :=
      runeShape_cases hshape
    · obtain ⟨c, t, cs, rfl, rfl, hc, hcont⟩ := continuation_succ hcont
      rw [continuation_zero hcont]
      exact ⟨encodes_two hb (by omega), rfl⟩
    · obtain ⟨c, t, cs, rfl, rfl, hc, hcont⟩ := continuation_succ hcont
      obtain ⟨d, t, cs, rfl, rfl, hd, hcont⟩ := continuation_succ hcont
      rw [continuation_zero hcont]
      exact ⟨encodes_three hb (by omega) hd (by omega) (by omega), rfl⟩
    · obtain ⟨c, t, cs, rfl, rfl, hc, hcont⟩ := continuation_succ hcont
      obtain ⟨d, t, cs, rfl, rfl, hd, hcont⟩ := continuation_succ hcont
      obtain ⟨e, t, cs, rfl, rfl, he, hcont⟩ := continuation_succ hcont
      rw [continuation_zero hcont]
      exact ⟨encodes_four hb (by omega) hd he (by omega) (by omega), rfl⟩

/-! ## Reading back -/

theorem readEscape_byte (b : UInt8) (s : GoString) :
    readEscape (byte 'x' :: (hexDigits 2 b.toNat ++ s)) = some ([b], s) := by
  have hletter : unescapeLetter (byte 'x') = none := by decide
  rw [readEscape, hletter]
  dsimp only
  rw [if_pos rfl, readHex_hexDigits_of_lt s (UInt8.toNat_lt b), Option.map_some,
    UInt8.ofNat_toNat]

theorem readRune_hexDigits (s : GoString) (h : Encodes r v) (hr : r < 16 ^ width) :
    readRune width (hexDigits width r ++ s) = some (v, s) := by
  rw [readRune, readHex_hexDigits_of_lt s hr, Option.bind_some]
  dsimp only
  rw [if_pos ⟨h.high, h.scalar⟩, h.bytes]

theorem readEscape_short (s : GoString) (h : Encodes r v) (hr : r < 16 ^ 4) :
    readEscape (byte 'u' :: (hexDigits 4 r ++ s)) = some (v, s) := by
  have hletter : unescapeLetter (byte 'u') = none := by decide
  rw [readEscape, hletter]
  exact readRune_hexDigits s h hr

theorem readEscape_long (s : GoString) (h : Encodes r v) :
    readEscape (byte 'U' :: (hexDigits 8 r ++ s)) = some (v, s) := by
  have hletter : unescapeLetter (byte 'U') = none := by decide
  rw [readEscape, hletter]
  exact readRune_hexDigits s h (Nat.lt_of_le_of_lt h.high (by decide))

theorem readEscape_letter {letter : UInt8} (s : GoString) (h : escapeLetter r = some letter) :
    readEscape (letter :: s) = some ([UInt8.ofNat r], s) := by
  have hall : ∀ p ∈ [(7, byte 'a'), (8, byte 'b'), (9, byte 't'), (10, byte 'n'),
      (11, byte 'v'), (12, byte 'f'), (13, byte 'r')],
      unescapeLetter p.2 = some (UInt8.ofNat p.1) := by decide
  obtain ⟨l₁, l₂, hlist, -⟩ := List.lookup_eq_some_iff.mp h
  rw [hlist] at hall
  rw [readEscape, hall (r, letter) (by simp)]

/-- A quoted ASCII byte reads back. -/
theorem unquote_escapeRune_ascii (printable : Nat → Bool) (hb : b < 0x80) (s : GoString) :
    unquote (escapeRune printable b.toNat ++ s) = (unquote s).map (b :: ·) := by
  have hlt : b.toNat < 128 := by simpa [UInt8.lt_iff_toNat_lt] using hb
  have hne {c : UInt8} {n : Nat} (hc : c.toNat = n) (h : b.toNat ≠ n) : b ≠ c :=
    fun heq => h (heq ▸ hc)
  unfold escapeRune
  split
  · rename_i h
    have hread : readEscape ([UInt8.ofNat b.toNat] ++ s) = some ([b], s) := by
      rcases h with h | h
      · rw [h, ← @eq_ofNat b _ h.symm]
        rfl
      · rw [h, ← @eq_ofNat b _ h.symm]
        rfl
    exact unquote_escape hread
  · split
    · rename_i hplain hprint
      rw [encodeRune, if_pos hlt, UInt8.ofNat_toNat]
      exact unquote_plain s (hne rfl (by simp; omega)) (hne rfl (by simp; omega))
        (hne rfl (by simp; omega))
    · split
      · rename_i letter hletter
        have hread := readEscape_letter s hletter
        rw [UInt8.ofNat_toNat] at hread
        exact unquote_escape hread
      · exact unquote_escape (readEscape_byte b s)

theorem escapeLetter_eq_none (h : 0x80 ≤ r) : escapeLetter r = none := by
  have hne (n : Nat) (hn : n < 0x80) : (r == n) = false := by
    rw [beq_eq_false_iff_ne]
    omega
  simp [escapeLetter, List.lookup, hne]

/-- A quoted rune beyond ASCII reads back, as it is or as its code point. -/
theorem unquote_escapeRune (printable : Nat → Bool) (h : Encodes r v) (s : GoString) :
    unquote (escapeRune printable r ++ s) = (unquote s).map (v ++ ·) := by
  have hlow := h.low
  rw [escapeRune, if_neg (by omega)]
  split
  · rw [h.bytes]
    exact unquote_bytes s h.beyond
  · rw [escapeLetter_eq_none h.low]
    dsimp only
    rw [if_neg (by omega)]
    split
    · rename_i hsmall
      exact unquote_escape (readEscape_short s h (by simpa using hsmall))
    · exact unquote_escape (readEscape_long s h)

theorem unquote_escapeRunes (printable : Nat → Bool) {fuel : Nat} (h : s.length ≤ fuel) :
    unquote (escapeRunes printable fuel s) = some s := by
  induction fuel generalizing s with
  | zero =>
    rw [List.eq_nil_of_length_eq_zero (Nat.le_zero.mp h)]
    rfl
  | succ fuel ih =>
    cases s with
    | nil => rfl
    | cons b rest =>
      have hrest : rest.length ≤ fuel := by simpa using h
      rw [escapeRunes]
      split
      · rename_i hascii
        rw [unquote_escapeRune_ascii printable hascii, ih hrest, Option.map_some]
      · split
        · rename_i r cs hdecode
          obtain ⟨hencodes, hdrop⟩ := decodeRune_encodes hdecode
          rw [unquote_escapeRune printable hencodes, ih (by simp; omega),
            Option.map_some, List.cons_append, hdrop]
        · rw [List.append_assoc]
          refine (unquote_escape (readEscape_byte b _)).trans ?_
          rw [ih hrest, Option.map_some]
          rfl

/-- What `strconv.Quote` writes between its quotes. -/
def quoteBody (printable : Nat → Bool) (s : GoString) : GoString :=
  escapeRunes printable s.length s

@[simp] theorem unquote_quoteBody (printable : Nat → Bool) (s : GoString) :
    unquote (quoteBody printable s) = some s :=
  unquote_escapeRunes printable (Nat.le_refl _)

/-! ## Texts that stay between their quotes -/

/-- No double quote of the text ends a literal it is pasted into, and no backslash is left
over; `escaped` after a backslash. -/
def closed : Bool → GoString → Bool
  | escaped, [] => !escaped
  | true, _ :: s => closed false s
  | false, b :: s => if b = 0x5C then closed true s else b != 0x22 && closed false s

theorem closed_append (s : GoString) (hv : ∀ b ∈ v, b ≠ 0x5C ∧ b ≠ 0x22) :
    closed false (v ++ s) = closed false s := by
  induction v with
  | nil => rfl
  | cons b v ih =>
    rw [List.forall_mem_cons] at hv
    rw [List.cons_append, closed, if_neg hv.1.1, ih hv.2, bne_iff_ne.mpr hv.1.2,
      Bool.true_and]

theorem closed_readEscape (h : readEscape s = some (v, rest)) :
    closed true s = closed false rest := by
  obtain ⟨b, s', rfl, v', rfl, hv⟩ := taken_readEscape h
  exact closed_append rest hv

theorem closed_of_unquoteLoop {fuel : Nat} (h : unquoteLoop fuel s = some v) :
    closed false s = true := by
  induction fuel generalizing s v with
  | zero =>
    cases s with
    | nil => rfl
    | cons b s => cases h
  | succ fuel ih =>
    cases s with
    | nil => rfl
    | cons b s =>
      rw [unquoteLoop] at h
      rw [closed]
      split at h
      · rename_i hslash
        rw [Option.bind_eq_some_iff] at h
        obtain ⟨⟨w, rest⟩, hread, h⟩ := h
        rw [Option.map_eq_some_iff] at h
        obtain ⟨v', h, -⟩ := h
        rw [if_pos hslash, closed_readEscape hread, ih h]
      · rename_i hslash
        split at h
        · cases h
        · rename_i hplain
          rw [Option.map_eq_some_iff] at h
          obtain ⟨v', h, -⟩ := h
          rw [if_neg hslash, ih h, Bool.and_true, bne_iff_ne]
          exact fun hquote => hplain (Or.inl hquote)

theorem closed_quoteBody (printable : Nat → Bool) (s : GoString) :
    closed false (quoteBody printable s) = true :=
  closed_of_unquoteLoop (unquote_quoteBody printable s)

end GloryHole.Go
