import Mathlib

/-!
# Files of directives

Lines `name: arg arg …` with blank lines and comments.  An argument is a bare word or a string in
quotes; a backslash protects the byte after it.  A bare word has no blank and no quote and does not
begin with `#`, which begins a comment.

A printed file reads as the directives of its lines exactly if every argument is one the reader can
return.
-/

namespace GloryHole.Support.Directives

abbrev Bytes := List UInt8

def space : UInt8 := 0x20
def newline : UInt8 := 0x0A
def doubleQuote : UInt8 := 0x22
def hash : UInt8 := 0x23
def colon : UInt8 := 0x3A
def backslash : UInt8 := 0x5C

def isNewline (b : UInt8) : Bool := b == newline || b == 0x0D
def isBlank (b : UInt8) : Bool := b == space || b == 0x09
def isQuote (b : UInt8) : Bool := b == doubleQuote || b == 0x27

inductive Arg where
  | bare (text : Bytes)
  | quoted (quote : UInt8) (text : Bytes)
  deriving DecidableEq

structure Directive where
  name : Bytes
  args : List Arg
  deriving DecidableEq

/-- A line of a file: empty, a comment, or a directive; the last two are indented. -/
inductive Line where
  | blank
  | comment (indent : Nat) (text : Bytes)
  | entry (indent : Nat) (directive : Directive)
  deriving DecidableEq

/-! ## Printing -/

def Arg.text : Arg → Bytes
  | .bare text => text
  | .quoted quote text => quote :: text ++ [quote]

def Directive.text (d : Directive) : Bytes :=
  d.name ++ colon :: d.args.flatMap fun a => space :: a.text

def Line.text : Line → Bytes
  | .blank => []
  | .comment indent text => List.replicate indent space ++ hash :: text
  | .entry indent d => List.replicate indent space ++ d.text

def render (lines : List Line) : Bytes := lines.flatMap fun l => l.text ++ [newline]

def Line.directive : Line → Option Directive
  | .entry _ d => some d
  | _ => none

def directives (lines : List Line) : List Directive := lines.filterMap Line.directive

/-! ## Reading -/

/-- Where the reader of the arguments is: between two of them, in a bare word, in a string
(with the quote that ends it), or after a backslash. -/
inductive Mode where
  | gap
  | word (text : Bytes)
  | wordEscape (text : Bytes)
  | string (quote : UInt8) (text : Bytes)
  | stringEscape (quote : UInt8) (text : Bytes)

/-- The arguments in the rest of a line; `none` if a string does not end. -/
def lexArgs : Mode → Bytes → Option (List Arg)
  | .gap, [] => some []
  | .gap, b :: bs =>
    if isNewline b then none
    else if isBlank b then lexArgs .gap bs
    else if b = hash then some []
    else if isQuote b then lexArgs (.string b []) bs
    else if b = backslash then lexArgs (.wordEscape []) bs
    else lexArgs (.word [b]) bs
  | .word text, [] => some [.bare text]
  | .word text, b :: bs =>
    if isNewline b then none
    else if isBlank b then (lexArgs .gap bs).map (.bare text :: ·)
    else if isQuote b then (lexArgs (.string b []) bs).map (.bare text :: ·)
    else if b = backslash then lexArgs (.wordEscape text) bs
    else lexArgs (.word (text ++ [b])) bs
  | .wordEscape _, [] => none
  | .wordEscape text, b :: bs =>
    if isNewline b then none else lexArgs (.word (text ++ [backslash, b])) bs
  | .string _ _, [] => none
  | .string quote text, b :: bs =>
    if isNewline b then none
    else if b = quote then (lexArgs .gap bs).map (.quoted quote text :: ·)
    else if b = backslash then lexArgs (.stringEscape quote text) bs
    else lexArgs (.string quote (text ++ [b])) bs
  | .stringEscape _ _, [] => none
  | .stringEscape quote text, b :: bs =>
    if isNewline b then none else lexArgs (.string quote (text ++ [backslash, b])) bs

def isNameByte (b : UInt8) : Bool :=
  !isNewline b && !isBlank b && !isQuote b && b != hash && b != colon

def readDirective (name : Bytes) : Bytes → Option Directive
  | [] => none
  | c :: rest =>
    if name ≠ [] ∧ c = colon then (lexArgs .gap rest).map fun args => ⟨name, args⟩ else none

/-- A line without its newline: `some none` if it has no directive, `none` if it cannot be
read. -/
def readLine (line : Bytes) : Option (Option Directive) :=
  match line.dropWhile isBlank with
  | [] => some none
  | b :: bs =>
    if b = hash then some none
    else
      (readDirective ((b :: bs).takeWhile isNameByte) ((b :: bs).dropWhile isNameByte)).map some

def splitLines : Bytes → List Bytes
  | [] => [[]]
  | b :: bs =>
    if isNewline b then [] :: splitLines bs
    else
      match splitLines bs with
      | [] => [[b]]
      | line :: lines => (b :: line) :: lines

def readLines : List Bytes → Option (List Directive)
  | [] => some []
  | line :: lines =>
    match readLine line, readLines lines with
    | some d, some ds => some (d.toList ++ ds)
    | _, _ => none

def read (file : Bytes) : Option (List Directive) := readLines (splitLines file)

/-! ## Arguments that can be read back -/

def scan (letter : UInt8 → Bool) : Bytes → Bool
  | [] => true
  | b :: bs =>
    if b = backslash then
      match bs with
      | [] => false
      | e :: rest => !isNewline e && scan letter rest
    else letter b && scan letter bs

def wordLetter (b : UInt8) : Bool := !isNewline b && !isBlank b && !isQuote b
def stringLetter (quote b : UInt8) : Bool := !isNewline b && b != quote

def isBareWord (text : Bytes) : Bool :=
  text != [] && text.head? != some hash && scan wordLetter text

def isQuotedText (quote : UInt8) (text : Bytes) : Bool :=
  isQuote quote && scan (stringLetter quote) text

def Arg.WellFormed : Arg → Prop
  | .bare text => isBareWord text
  | .quoted quote text => isQuotedText quote text

instance : DecidablePred Arg.WellFormed
  | .bare text => inferInstanceAs (Decidable (isBareWord text = true))
  | .quoted quote text => inferInstanceAs (Decidable (isQuotedText quote text = true))

section

variable {letter : UInt8 → Bool}

theorem scan_escape (e : UInt8) (rest : Bytes) :
    scan letter (backslash :: e :: rest) = (!isNewline e && scan letter rest) := by
  rw [scan.eq_def]
  rfl

theorem scan_letter {b : UInt8} (hb : b ≠ backslash) (bs : Bytes) :
    scan letter (b :: bs) = (letter b && scan letter bs) := by
  rw [scan.eq_def]
  exact if_neg hb

theorem scan_append {xs ys : Bytes} (h : scan letter xs) :
    scan letter (xs ++ ys) = scan letter ys := by
  fun_induction scan letter xs with
  | case1 => rfl
  | case2 => cases h
  | case3 e rest ih =>
    simp only [Bool.and_eq_true] at h
    simp only [List.cons_append, scan_escape, h.1, ih h.2, Bool.true_and]
  | case4 b bs hb ih =>
    simp only [Bool.and_eq_true] at h
    simp only [List.cons_append, scan_letter hb, h.1, ih h.2, Bool.true_and]

theorem scan_concat_letter {xs : Bytes} {b : UInt8} (h : scan letter xs) (hb : b ≠ backslash)
    (hletter : letter b) : scan letter (xs ++ [b]) := by
  rw [scan_append h, scan_letter hb, hletter]
  rfl

theorem scan_concat_escape {xs : Bytes} {e : UInt8} (h : scan letter xs) (he : ¬ isNewline e) :
    scan letter (xs ++ [backslash, e]) := by
  rw [scan_append h, scan_escape]
  simp [he, scan]

theorem scan_of_forall {xs : Bytes} (h : ∀ b ∈ xs, b ≠ backslash ∧ letter b) :
    scan letter xs := by
  induction xs with
  | nil => rfl
  | cons b xs ih =>
    obtain ⟨⟨hslash, hb⟩, hxs⟩ := List.forall_mem_cons.mp h
    rw [scan_letter hslash, hb, ih hxs]
    rfl

/-- Nothing that is scanned has a newline, if no letter is one. -/
theorem not_newline_of_scan (hletter : ∀ b, letter b → ¬ isNewline b) {xs : Bytes}
    (h : scan letter xs) : ∀ b ∈ xs, ¬ isNewline b := by
  fun_induction scan letter xs with
  | case1 => simp
  | case2 => cases h
  | case3 e rest ih =>
    simp only [Bool.and_eq_true, Bool.not_eq_true'] at h
    simp only [List.forall_mem_cons, Bool.not_eq_true]
    refine ⟨rfl, h.1, ?_⟩
    simpa only [Bool.not_eq_true] using ih h.2
  | case4 b bs hb ih =>
    simp only [Bool.and_eq_true] at h
    exact List.forall_mem_cons.mpr ⟨hletter b h.1, ih h.2⟩

end

/-! ## The reader returns only arguments that can be read back -/

def Mode.Good : Mode → Prop
  | .gap => True
  | .word text => isBareWord text
  | .wordEscape text => text = [] ∨ isBareWord text
  | .string quote text | .stringEscape quote text => isQuotedText quote text

theorem isBareWord_iff {text : Bytes} :
    isBareWord text ↔ text ≠ [] ∧ text.head? ≠ some hash ∧ scan wordLetter text := by
  simp [isBareWord, and_assoc]

theorem isBareWord_append {text more : Bytes} (h : isBareWord text)
    (hmore : scan wordLetter (text ++ more)) : isBareWord (text ++ more) := by
  obtain ⟨hne, hhead, -⟩ := isBareWord_iff.mp h
  refine isBareWord_iff.mpr ⟨List.append_ne_nil_of_left_ne_nil hne more, ?_, hmore⟩
  rwa [List.head?_append_of_ne_nil text hne]

theorem wordLetter_iff {b : UInt8} :
    wordLetter b ↔ ¬ isNewline b ∧ ¬ isBlank b ∧ ¬ isQuote b := by
  simp [wordLetter, and_assoc]

theorem isQuotedText_iff {quote : UInt8} {text : Bytes} :
    isQuotedText quote text ↔ isQuote quote ∧ scan (stringLetter quote) text := by
  simp [isQuotedText]

theorem lexArgs_wellFormed {bs : Bytes} {m : Mode} {args : List Arg} (hm : m.Good)
    (h : lexArgs m bs = some args) : ∀ a ∈ args, a.WellFormed := by
  fun_induction lexArgs m bs generalizing args with
  | case1 => cases h; simp
  | case2 => cases h
  | case3 b bs hline hblank ih => exact ih trivial h
  | case4 => cases h; simp
  | case5 b bs hline hblank hhash hquote ih =>
    exact ih (isQuotedText_iff.mpr ⟨hquote, rfl⟩) h
  | case6 bs hline hblank hhash hquote ih => exact ih (Or.inl rfl) h
  | case7 b bs hline hblank hhash hquote hslash ih =>
    refine ih (isBareWord_iff.mpr ⟨by simp, by simpa using hhash, ?_⟩) h
    exact @scan_concat_letter _ [] b rfl hslash (wordLetter_iff.mpr ⟨hline, hblank, hquote⟩)
  | case8 text =>
    cases h
    exact List.forall_mem_singleton.mpr hm
  | case9 => cases h
  | case10 text b bs hline hblank ih | case19 quote text bs hline ih =>
    obtain ⟨rest, hrest, rfl⟩ := Option.map_eq_some_iff.mp h
    exact List.forall_mem_cons.mpr ⟨hm, ih trivial hrest⟩
  | case11 text b bs hline hblank hquote ih =>
    obtain ⟨rest, hrest, rfl⟩ := Option.map_eq_some_iff.mp h
    exact List.forall_mem_cons.mpr ⟨hm, ih (isQuotedText_iff.mpr ⟨hquote, rfl⟩) hrest⟩
  | case12 text bs hline hblank hquote ih => exact ih (Or.inr hm) h
  | case13 text b bs hline hblank hquote hslash ih =>
    refine ih (isBareWord_append hm ?_) h
    exact scan_concat_letter (isBareWord_iff.mp hm).2.2 hslash
      (wordLetter_iff.mpr ⟨hline, hblank, hquote⟩)
  | case14 | case15 => cases h
  | case16 text b bs hline ih =>
    refine ih ?_ h
    rcases hm with rfl | hword
    · exact isBareWord_iff.mpr ⟨by simp, by simp [backslash, hash], scan_concat_escape rfl hline⟩
    · exact isBareWord_append hword (scan_concat_escape (isBareWord_iff.mp hword).2.2 hline)
  | case17 | case18 => cases h
  | case20 quote text bs hline hquote ih => exact ih hm h
  | case21 quote text b bs hline hquote hslash ih =>
    obtain ⟨hkind, hscan⟩ := isQuotedText_iff.mp hm
    refine ih (isQuotedText_iff.mpr ⟨hkind, scan_concat_letter hscan hslash ?_⟩) h
    simp [stringLetter, hline, hquote]
  | case22 | case23 => cases h
  | case24 quote text b bs hline ih =>
    obtain ⟨hkind, hscan⟩ := isQuotedText_iff.mp hm
    exact ih (isQuotedText_iff.mpr ⟨hkind, scan_concat_escape hscan hline⟩) h

theorem readDirective_wellFormed {name rest : Bytes} {d : Directive}
    (h : readDirective name rest = some d) : ∀ a ∈ d.args, a.WellFormed := by
  cases rest with
  | nil => cases h
  | cons c rest =>
    rw [readDirective] at h
    split at h
    · obtain ⟨args, hargs, rfl⟩ := Option.map_eq_some_iff.mp h
      exact @lexArgs_wellFormed _ .gap _ trivial hargs
    · cases h

theorem readLine_wellFormed {line : Bytes} {d : Directive} (h : readLine line = some (some d)) :
    ∀ a ∈ d.args, a.WellFormed := by
  unfold readLine at h
  split at h
  · cases h
  · split at h
    · cases h
    · obtain ⟨d', hd', heq⟩ := Option.map_eq_some_iff.mp h
      cases heq
      exact readDirective_wellFormed hd'

theorem readLines_wellFormed {lines : List Bytes} {ds : List Directive}
    (h : readLines lines = some ds) : ∀ d ∈ ds, ∀ a ∈ d.args, a.WellFormed := by
  induction lines generalizing ds with
  | nil =>
    cases h
    simp
  | cons line lines ih =>
    rw [readLines] at h
    cases hline : readLine line with
    | none => rw [hline] at h; cases h
    | some d =>
      cases hlines : readLines lines with
      | none => rw [hline, hlines] at h; cases h
      | some ds' =>
        rw [hline, hlines] at h
        cases h
        intro d' hd'
        rcases List.mem_append.mp hd' with hmem | hmem
        · cases d with
          | none => cases hmem
          | some d =>
            rw [List.mem_singleton.mp hmem]
            exact readLine_wellFormed hline
        · exact ih hlines d' hmem

/-! ## What is printed is read back -/

def AtGap (rest : Bytes) : Prop := rest = [] ∨ ∃ more, rest = space :: more

theorem lexArgs_gap_word {text rest : Bytes} (hscan : scan wordLetter text) (hrest : AtGap rest)
    (before : Bytes) :
    lexArgs (.word before) (text ++ rest) =
      (lexArgs .gap rest).map (.bare (before ++ text) :: ·) := by
  fun_induction scan wordLetter text generalizing before with
  | case1 =>
    rw [List.append_nil]
    rcases hrest with rfl | ⟨more, rfl⟩
    · rfl
    · rfl
  | case2 => cases hscan
  | case3 e more ih =>
    simp only [Bool.and_eq_true, Bool.not_eq_true'] at hscan
    have hescape : lexArgs (.word before) (backslash :: e :: more ++ rest) =
        lexArgs (.word (before ++ [backslash, e])) (more ++ rest) := by
      simp only [List.cons_append, lexArgs, hscan.1]
      rfl
    rw [hescape, ih hscan.2, List.append_assoc]
    rfl
  | case4 b more hb ih =>
    simp only [Bool.and_eq_true] at hscan
    obtain ⟨hline, hblank, hquote⟩ := wordLetter_iff.mp hscan.1
    have hletter : lexArgs (.word before) (b :: more ++ rest) =
        lexArgs (.word (before ++ [b])) (more ++ rest) := by
      simp only [List.cons_append, lexArgs, hline, hblank, hquote, hb, if_false]
      rfl
    rw [hletter, ih hscan.2, List.append_assoc]
    rfl

theorem lexArgs_gap_bare {text rest : Bytes} (h : isBareWord text) (hrest : AtGap rest) :
    lexArgs .gap (text ++ rest) = (lexArgs .gap rest).map (.bare text :: ·) := by
  obtain ⟨hne, hhead, hscan⟩ := isBareWord_iff.mp h
  -- The first byte takes the reader out of the gap; the rest is the word's.
  have hfirst : lexArgs .gap (text ++ rest) = lexArgs (.word []) (text ++ rest) := by
    cases text with
    | nil => exact absurd rfl hne
    | cons b more =>
      have hb : b ≠ hash := by simpa using hhead
      by_cases hslash : b = backslash
      · subst hslash
        rfl
      · rw [scan_letter hslash] at hscan
        simp only [Bool.and_eq_true] at hscan
        obtain ⟨hline, hblank, hquote⟩ := wordLetter_iff.mp hscan.1
        simp only [List.cons_append, lexArgs, hline, hblank, hb, hquote, hslash, if_false]
        rfl
  rw [hfirst, lexArgs_gap_word hscan hrest, List.nil_append]

theorem lexArgs_string {quote : UInt8} {text : Bytes} (hquote : isQuote quote)
    (hscan : scan (stringLetter quote) text) (rest before : Bytes) :
    lexArgs (.string quote before) (text ++ quote :: rest) =
      (lexArgs .gap rest).map (.quoted quote (before ++ text) :: ·) := by
  have hkind : quote = doubleQuote ∨ quote = 0x27 := by simpa [isQuote] using hquote
  have hline : isNewline quote = false := by
    rcases hkind with rfl | rfl <;> rfl
  have hslash : backslash ≠ quote := by
    rcases hkind with rfl | rfl <;> decide
  fun_induction scan (stringLetter quote) text generalizing before with
  | case1 =>
    simp [lexArgs, hline]
  | case2 => cases hscan
  | case3 e more ih =>
    simp only [Bool.and_eq_true, Bool.not_eq_true'] at hscan
    have hescape : lexArgs (.string quote before) (backslash :: e :: more ++ quote :: rest) =
        lexArgs (.string quote (before ++ [backslash, e])) (more ++ quote :: rest) := by
      simp only [List.cons_append, lexArgs, hscan.1, hslash, if_false]
      rfl
    rw [hescape, ih hscan.2, List.append_assoc]
    rfl
  | case4 b more hb ih =>
    simp only [Bool.and_eq_true] at hscan
    obtain ⟨hbline, hbquote⟩ : isNewline b = false ∧ b ≠ quote := by
      simpa [stringLetter] using hscan.1
    have hletter : lexArgs (.string quote before) (b :: more ++ quote :: rest) =
        lexArgs (.string quote (before ++ [b])) (more ++ quote :: rest) := by
      simp only [List.cons_append, lexArgs, hbline, hbquote, hb, if_false]
      rfl
    rw [hletter, ih hscan.2, List.append_assoc]
    rfl

theorem lexArgs_gap_quoted {quote : UInt8} {text : Bytes} (h : isQuotedText quote text)
    (rest : Bytes) :
    lexArgs .gap (quote :: text ++ [quote] ++ rest) =
      (lexArgs .gap rest).map (.quoted quote text :: ·) := by
  obtain ⟨hquote, hscan⟩ := isQuotedText_iff.mp h
  have hkind : quote = doubleQuote ∨ quote = 0x27 := by simpa [isQuote] using hquote
  have hfirst : lexArgs .gap (quote :: (text ++ quote :: rest)) =
      lexArgs (.string quote []) (text ++ quote :: rest) := by
    rcases hkind with rfl | rfl
    · rfl
    · rfl
  rw [List.append_assoc, List.cons_append, List.singleton_append, hfirst,
    lexArgs_string hquote hscan rest [], List.nil_append]

theorem lexArgs_gap_arg {a : Arg} {rest : Bytes} (h : a.WellFormed) (hrest : AtGap rest) :
    lexArgs .gap (a.text ++ rest) = (lexArgs .gap rest).map (a :: ·) := by
  cases a with
  | bare text => exact lexArgs_gap_bare h hrest
  | quoted quote text => exact lexArgs_gap_quoted h rest

theorem lexArgs_flatMap {args : List Arg} (h : ∀ a ∈ args, a.WellFormed) :
    lexArgs .gap (args.flatMap fun a => space :: a.text) = some args := by
  induction args with
  | nil => rfl
  | cons a args ih =>
    obtain ⟨ha, hargs⟩ := List.forall_mem_cons.mp h
    have hgap : AtGap (args.flatMap fun a => space :: a.text) := by
      cases args with
      | nil => exact Or.inl rfl
      | cons b args => exact Or.inr ⟨_, rfl⟩
    calc lexArgs .gap ((a :: args).flatMap fun a => space :: a.text)
        = lexArgs .gap (a.text ++ args.flatMap fun a => space :: a.text) := rfl
      _ = (lexArgs .gap (args.flatMap fun a => space :: a.text)).map (a :: ·) :=
          lexArgs_gap_arg ha hgap
      _ = some (a :: args) := by rw [ih hargs]; rfl

/-- A line whose fixed part is as it should be: the name of a directive is a name, and a
comment is on one line. -/
def Line.Printable : Line → Prop
  | .blank => True
  | .comment _ text => text.all (!isNewline ·)
  | .entry _ d => d.name ≠ [] ∧ d.name.all isNameByte

instance : DecidablePred Line.Printable
  | .blank => inferInstanceAs (Decidable True)
  | .comment _ text => inferInstanceAs (Decidable (text.all (!isNewline ·) = true))
  | .entry _ d => inferInstanceAs (Decidable (d.name ≠ [] ∧ d.name.all isNameByte = true))

theorem dropWhile_indent (indent : Nat) {b : UInt8} (hb : isBlank b = false) (bs : Bytes) :
    (List.replicate indent space ++ b :: bs).dropWhile isBlank = b :: bs := by
  induction indent with
  | zero => simp [hb]
  | succ indent ih => exact ih

theorem readLine_comment (indent : Nat) (text : Bytes) :
    readLine (Line.comment indent text).text = some none := by
  simp only [readLine, Line.text, dropWhile_indent indent (b := hash) rfl]
  rfl

theorem readLine_entry {indent : Nat} {d : Directive} (hne : d.name ≠ [])
    (hname : d.name.all isNameByte) (hargs : ∀ a ∈ d.args, a.WellFormed) :
    readLine (Line.entry indent d).text = some (some d) := by
  obtain ⟨name, args⟩ := d
  obtain ⟨b, more, rfl⟩ := List.exists_cons_of_ne_nil hne
  have hall : ∀ c ∈ b :: more, isNameByte c := List.all_eq_true.mp hname
  obtain ⟨hblank, hhash⟩ : isBlank b = false ∧ b ≠ hash := by
    have hb := hall b List.mem_cons_self
    simp only [isNameByte, Bool.and_eq_true, Bool.not_eq_true', bne_iff_ne] at hb
    exact ⟨hb.1.1.1.2, hb.1.2⟩
  have htake (rest : Bytes) :
      (b :: more ++ colon :: rest).takeWhile isNameByte = b :: more := by
    rw [List.takeWhile_append_of_pos hall]
    simp [isNameByte]
  have hdrop (rest : Bytes) :
      (b :: more ++ colon :: rest).dropWhile isNameByte = colon :: rest := by
    rw [List.dropWhile_append_of_pos hall]
    simp [isNameByte]
  have hline : (Line.entry indent ⟨b :: more, args⟩).text.dropWhile isBlank =
      b :: (more ++ colon :: args.flatMap fun a => space :: a.text) :=
    dropWhile_indent indent hblank _
  simp only [readLine, hline, hhash, if_false]
  rw [← List.cons_append, htake, hdrop]
  simp [readDirective, lexArgs_flatMap hargs]

theorem readLine_text {l : Line} (hl : l.Printable)
    (hargs : ∀ d ∈ l.directive, ∀ a ∈ d.args, a.WellFormed) :
    readLine l.text = some l.directive := by
  cases l with
  | blank => rfl
  | comment indent text => exact readLine_comment indent text
  | entry indent d => exact readLine_entry hl.1 hl.2 (hargs d rfl)

theorem not_newline_arg {a : Arg} (ha : a.WellFormed) : ∀ b ∈ a.text, ¬ isNewline b := by
  cases a with
  | bare text =>
    exact not_newline_of_scan (fun b hb => (wordLetter_iff.mp hb).1) (isBareWord_iff.mp ha).2.2
  | quoted quote text =>
    obtain ⟨hquote, hscan⟩ := isQuotedText_iff.mp ha
    have hkind : quote = doubleQuote ∨ quote = 0x27 := by simpa [isQuote] using hquote
    have hends : ¬ isNewline quote := by
      rcases hkind with rfl | rfl <;> decide
    have htext : ∀ b ∈ text, ¬ isNewline b :=
      not_newline_of_scan (fun b hb => by simp [stringLetter] at hb; simp [hb.1]) hscan
    intro b hb
    simp only [Arg.text, List.cons_append, List.mem_cons, List.mem_append, List.not_mem_nil,
      or_false] at hb
    rcases hb with rfl | hb | rfl
    · exact hends
    · exact htext b hb
    · exact hends

theorem not_newline_text {l : Line} (hl : l.Printable)
    (hargs : ∀ d ∈ l.directive, ∀ a ∈ d.args, a.WellFormed) : ∀ b ∈ l.text, ¬ isNewline b := by
  have hindent (indent : Nat) : ∀ b ∈ List.replicate indent space, ¬ isNewline b := by
    intro b hb
    rw [List.eq_of_mem_replicate hb]
    decide
  cases l with
  | blank => simp [Line.text]
  | comment indent text =>
    intro b hb
    simp only [Line.text, List.mem_append, List.mem_cons] at hb
    rcases hb with hb | rfl | hb
    · exact hindent indent b hb
    · decide
    · simpa using List.all_eq_true.mp hl b hb
  | entry indent d =>
    intro b hb
    simp only [Line.text, Directive.text, List.mem_append, List.mem_cons, List.mem_flatMap] at hb
    rcases hb with hb | hb | rfl | ⟨a, ha, rfl | hb⟩
    · exact hindent indent b hb
    · have hname := List.all_eq_true.mp hl.2 b hb
      simp only [isNameByte, Bool.and_eq_true, Bool.not_eq_true'] at hname
      simp [hname.1.1.1.1]
    · decide
    · decide
    · exact not_newline_arg (hargs d rfl a ha) b hb

theorem splitLines_append {line : Bytes} (h : ∀ b ∈ line, ¬ isNewline b) (rest : Bytes) :
    splitLines (line ++ newline :: rest) = line :: splitLines rest := by
  induction line with
  | nil => rfl
  | cons b line ih =>
    obtain ⟨hb, hline⟩ := List.forall_mem_cons.mp h
    simp only [List.cons_append, splitLines, hb, ih hline]
    rfl

theorem read_render {lines : List Line} (hlines : ∀ l ∈ lines, l.Printable)
    (hargs : ∀ d ∈ directives lines, ∀ a ∈ d.args, a.WellFormed) :
    read (render lines) = some (directives lines) := by
  induction lines with
  | nil => rfl
  | cons l lines ih =>
    obtain ⟨hl, hrest⟩ := List.forall_mem_cons.mp hlines
    have hdirectives : directives (l :: lines) = l.directive.toList ++ directives lines := by
      cases hd : l.directive <;> simp [directives, hd]
    rw [hdirectives] at hargs ⊢
    have hhead : ∀ d ∈ l.directive, ∀ a ∈ d.args, a.WellFormed :=
      fun d hd => hargs d (List.mem_append_left _ (Option.mem_toList.mpr hd))
    have htail := ih hrest fun d hd => hargs d (List.mem_append_right _ hd)
    have hsplit : splitLines (render (l :: lines)) = l.text :: splitLines (render lines) := by
      rw [render, List.flatMap_cons, List.append_assoc]
      exact splitLines_append (not_newline_text hl hhead) _
    rw [read] at htail
    rw [read, hsplit, readLines, readLine_text hl hhead, htail]

def Readable (lines : List Line) : Prop := ∀ d ∈ directives lines, ∀ a ∈ d.args, a.WellFormed

/-- A printed file reads as its directives exactly if all their arguments can be read
back. -/
theorem read_render_iff {lines : List Line} (hlines : ∀ l ∈ lines, l.Printable) :
    read (render lines) = some (directives lines) ↔ Readable lines :=
  ⟨readLines_wellFormed, read_render hlines⟩

section

variable {lines : List Line}

@[simp] theorem readable_nil : Readable [] := by simp [Readable, directives]

@[simp] theorem readable_append {more : List Line} :
    Readable (lines ++ more) ↔ Readable lines ∧ Readable more := by
  simp only [Readable, directives, List.filterMap_append, List.forall_mem_append]

@[simp] theorem readable_blank : Readable (.blank :: lines) ↔ Readable lines := Iff.rfl

@[simp] theorem readable_entry {indent : Nat} {d : Directive} :
    Readable (.entry indent d :: lines) ↔ (∀ a ∈ d.args, a.WellFormed) ∧ Readable lines := by
  simp only [Readable, directives, List.filterMap_cons, Line.directive, List.forall_mem_cons]

@[simp] theorem readable_ite {c : Prop} [Decidable c] :
    Readable (if c then lines else []) ↔ (c → Readable lines) := by
  by_cases hc : c <;> simp [hc]

@[simp] theorem readable_ite_not {c : Prop} [Decidable c] :
    Readable (if c then [] else lines) ↔ (¬ c → Readable lines) := by
  by_cases hc : c <;> simp [hc]

@[simp] theorem readable_flatMap {α : Type} {xs : List α} {f : α → List Line} :
    Readable (xs.flatMap f) ↔ ∀ x ∈ xs, Readable (f x) := by
  induction xs with
  | nil => simp
  | cons x xs ih => simp [ih]

end

end GloryHole.Support.Directives
