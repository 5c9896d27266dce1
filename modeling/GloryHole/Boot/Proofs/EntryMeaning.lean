import GloryHole.Boot.Import
import GloryHole.Boot.Proofs.ForwardingLogic

/-!
# What imported and migrated entries mean

The form of an entry's text decides which expression is written: a wildcard, a call of
`DomainMatches` or an equality.  The import quotes the text, the migration of the whitelist pastes
it between quotes as it is.  Either way the entry keeps its meaning just if the form is the one of
its kind and the literal is read as the text.
-/

namespace GloryHole.Boot

open Go Policy
open Support (Connective)

/-! ## The rules of an import -/

def rowsFor (action : Action) (rows : List (DomainType × GoString)) : List GoString :=
  (rows.filter (·.1.action = action)).map (·.2)

theorem importDomainLists_eq (rows : List (DomainType × GoString)) :
    importDomainLists rows = (rowsFor .actionAllow rows, rowsFor .actionBlock rows) := by
  induction rows using List.reverseRecOn with
  | nil => rfl
  | append_singleton rows row ih =>
    obtain ⟨domainType, domain⟩ := row
    unfold importDomainLists at ih ⊢
    rw [List.foldl_append, ih]
    cases domainType <;> simp [rowsFor, DomainType.action]

theorem mem_rowsFor {rows : List (DomainType × GoString)} {row : DomainType × GoString}
    (h : row ∈ rows) : row.2 ∈ rowsFor row.1.action rows :=
  List.mem_map_of_mem (List.mem_filter.mpr ⟨h, by simp⟩)

theorem mem_importPolicyRules (printable : Nat → Bool) {rows : List (DomainType × GoString)}
    {row : DomainType × GoString} (h : row ∈ rows) :
    ∃ verb, importedRule printable verb row.1.action row.2 ∈ importPolicyRules printable rows := by
  unfold importPolicyRules piholeDomainListsToPolicyRules
  rw [importDomainLists_eq]
  have hmem := mem_rowsFor h
  have haction : row.1.action = .actionAllow ∨ row.1.action = .actionBlock := by
    cases row.1 <;> decide
  rcases haction with haction | haction
  · rw [haction] at hmem ⊢
    exact ⟨lit "Allow", List.mem_append_left _ (List.mem_map_of_mem hmem)⟩
  · rw [haction] at hmem ⊢
    exact ⟨lit "Block", List.mem_append_right _ (List.mem_map_of_mem hmem)⟩

/-! ## The form of a text -/

def entryBody (text : GoString) : GoString :=
  if hasPrefix text (lit "*.") then trimPrefix text (lit "*.") else text

def formLogic (text body : GoString) : GoString :=
  if hasPrefix text (lit "*.") then
    lit "Domain == " ++ literalText body ++ lit " || DomainEndsWith(Domain, " ++
      literalText (byte '.' :: body) ++ lit ")"
  else if hasPatternChar text then lit "DomainMatches(Domain, " ++ literalText body ++ lit ")"
  else lit "Domain == " ++ literalText body

def formMatches (lower : Nat → Nat) (text v name : GoString) : Bool :=
  if hasPrefix text (lit "*.") then name == v || domainEndsWith lower name (byte '.' :: v)
  else if hasPatternChar text then domainMatches lower name v
  else name == v

theorem importedRule_logic (printable : Nat → Bool) (verb : GoString) (action : Action)
    (text : GoString) :
    (importedRule printable verb action text).logic =
      formLogic text (quoteBody printable (entryBody text)) := by
  unfold importedRule domainEntryToLogicAndName formLogic entryBody
  by_cases hwild : hasPrefix text (lit "*.") = true
  · simp only [if_pos hwild]
    rfl
  · by_cases hpattern : hasPatternChar text = true
    · simp only [if_neg hwild, if_pos hpattern]
      rfl
    · simp only [if_neg hwild, if_neg hpattern]
      rfl

theorem whitelistRule_logic (text : GoString) (i : Nat) :
    (whitelistRule text i).logic = formLogic text (entryBody text) := by
  have hequals : lit "Domain == \"" = lit "Domain == " ++ lit "\"" := rfl
  have hclose : lit "\")" = lit "\"" ++ lit ")" := rfl
  unfold whitelistRule formLogic entryBody
  by_cases hwild : hasPrefix text (lit "*.") = true
  · have hbelow : lit "\" || DomainEndsWith(Domain, \"." =
      lit "\"" ++ (lit " || DomainEndsWith(Domain, " ++ (lit "\"" ++ [byte '.'])) := rfl
    simp only [if_pos hwild, hequals, hbelow, hclose, literalText, List.append_assoc,
      List.cons_append, List.nil_append]
  · by_cases hpattern : hasPatternChar text = true
    · have hmatches : lit "DomainMatches(Domain, \"" =
        lit "DomainMatches(Domain, " ++ lit "\"" := rfl
      simp only [if_neg hwild, if_pos hpattern, hmatches, hclose, literalText,
        List.append_assoc]
    · simp only [if_neg hwild, if_neg hpattern, hequals, literalText, List.append_assoc]

/-! ## What the library makes of it -/

section

variable {lower upper : Nat → Nat} {literal : GoString → Option GoString}
  {printable : Nat → Bool} {lang : ExprLang}

theorem closed_dot {body : GoString} (h : closed false body = true) :
    closed false (byte '.' :: body) = true := h

theorem expresses_call_closed {before f body v : GoString} {holds : Context → Bool}
    (hbefore : Scans before [.word f, .lparen, .word (lit "Domain"), .comma])
    (hclosed : closed false body = true) (hread : literal body = some v)
    (hcall : ∀ ctx, callFunction lower upper f ctx.domain [v] = some (holds ctx)) :
    Expresses lower upper literal .factor (before ++ literalText body ++ lit ")") 1 holds :=
  @Expresses.call lower upper literal before f (lit "Domain") [body] [v] (·.domain) holds
    hbefore (fun _ => rfl) (by simp) (by simpa using hclosed) (by simpa using hread) hcall

theorem expresses_formLogic (hdot : ∀ body, literal (byte '.' :: body) =
      (literal body).map (byte '.' :: ·)) (text : GoString) {body v : GoString}
    (hclosed : closed false body = true) (hread : literal body = some v) :
    ∃ n ≤ 2, Expresses lower upper literal (.list .or) (formLogic text body) n
      (fun ctx => formMatches lower text v ctx.domain) := by
  have hequals : Expresses lower upper literal .factor _ _ _ := Expresses.equals hclosed hread
  unfold formLogic formMatches
  by_cases hwild : hasPrefix text (lit "*.") = true
  · have hbelow := @expresses_call_closed lower upper literal (lit "DomainEndsWith(Domain, ")
      (lit "DomainEndsWith") (byte '.' :: body) (byte '.' :: v) _ (by decide)
      (closed_dot hclosed) (by rw [hdot, hread]; rfl) (fun _ => rfl)
    have hor : lit " || DomainEndsWith(Domain, " =
      opText .or ++ lit "DomainEndsWith(Domain, " := rfl
    have heither := (hequals.lift .or).bin (hbelow.lift .or)
    simp only [if_pos hwild]
    simp only [hor, List.append_assoc] at heither ⊢
    exact ⟨2, le_rfl, heither⟩
  · by_cases hpattern : hasPatternChar text = true
    · have hmatches := @expresses_call_closed lower upper literal
        (lit "DomainMatches(Domain, ") (lit "DomainMatches") body v _ (by decide) hclosed hread
        (fun _ => rfl)
      simp only [if_neg hwild, if_pos hpattern]
      exact ⟨1, by simp, hmatches.lift .or⟩
    · simp only [if_neg hwild, if_neg hpattern]
      exact ⟨1, by simp, hequals.lift .or⟩

/-- The literal of a text that does not end it early is a token of the expression. -/
theorem lex_formLogic (text : GoString) {body : GoString} (hclosed : closed false body = true) :
    .bad ∉ lex (formLogic text body) ∧ .text body ∈ lex (formLogic text body) := by
  have hfront : Scans (lit "Domain == ") [.word (lit "Domain"), .equals] := by decide
  have hliteral : Scans (literalText body) [.text body] := scans_literal hclosed
  have hequals := hfront.append hliteral
  have hclose : Scans (lit ")") [.rparen] := by decide
  unfold formLogic
  by_cases hwild : hasPrefix text (lit "*.") = true
  · have hor : Scans (lit " || DomainEndsWith(Domain, ")
      [.op .or, .word (lit "DomainEndsWith"), .lparen, .word (lit "Domain"), .comma] := by
      decide
    have hbelow : Scans (literalText (byte '.' :: body)) [.text (byte '.' :: body)] :=
      scans_literal (closed_dot hclosed)
    rw [if_pos hwild, (((hequals.append hor).append hbelow).append hclose).lex]
    simp
  · by_cases hpattern : hasPatternChar text = true
    · have hcall : Scans (lit "DomainMatches(Domain, ")
        [.word (lit "DomainMatches"), .lparen, .word (lit "Domain"), .comma] := by decide
      rw [if_neg hwild, if_pos hpattern,
        ((hcall.append hliteral).append hclose).lex]
      simp
    · rw [if_neg hwild, if_neg hpattern, hequals.lex]
      simp

def nameQuery (name : GoString) : Context := ⟨0, name, [], [], 0, 0, 0, 0, 0⟩

theorem keeps_formLogic_iff (hlang : Understands lower upper literal printable lang)
    (regexp : GoString → Option (GoString → Bool)) (text : GoString) {body : GoString}
    (hclosed : closed false body = true) (entry : ListEntry) :
    Keeps lower regexp lang (formLogic text body) entry ↔
      ∃ v, literal body = some v ∧
        ∀ name, formMatches lower text v name = entry.matches lower regexp name := by
  cases hread : literal body with
  | none =>
    obtain ⟨hbad, htext⟩ := lex_formLogic text hclosed
    have hrefused : lang.compiles (formLogic text body) = false :=
      hlang.refuses hbad htext hread
    simp [Keeps, hrefused]
  | some v =>
    obtain ⟨n, hn, hform⟩ :=
      @expresses_formLogic lower upper literal hlang.dot text body v hclosed hread
    have hcompiles := hform.compiles hlang hn
    have hrun := hform.run hlang hcompiles
    simp only [Option.some.injEq, exists_eq_left']
    constructor
    · intro hkeeps name
      have hname := hkeeps.2 (nameQuery name)
      rw [hrun, Option.some.injEq] at hname
      exact Bool.eq_iff_iff.mpr hname
    · intro hsame
      refine ⟨hcompiles, fun ctx => ?_⟩
      rw [hrun, Option.some.injEq, hsame]

end

/-! ## Forms and kinds -/

section

variable (lower : Nat → Nat)

theorem domainEndsWith_dot (name v : GoString) :
    domainEndsWith lower name (byte '.' :: v) = isSubdomain lower name v := by
  unfold domainEndsWith isSubdomain
  rw [toLower_dot]
  rfl

theorem length_of_isSubdomain {name base : GoString} (h : isSubdomain lower name base = true) :
    (toLower lower base).length < (toLower lower name).length := by
  have hsuffix := (List.isSuffixOf_iff_suffix.mp h).length_le
  simpa [lit] using hsuffix

theorem isSubdomain_dot (v : GoString) : isSubdomain lower (byte '.' :: v) v = true := by
  unfold isSubdomain
  rw [toLower_dot]
  exact List.isSuffixOf_iff_suffix.mpr List.suffix_rfl

theorem domainMatches_self (v : GoString) : domainMatches lower v v = true := by
  simp [domainMatches]

theorem trimSuffix_dot_cons {v : GoString} (hne : v ≠ []) :
    trimSuffix (byte '.' :: v) (lit ".") = byte '.' :: trimSuffix v (lit ".") := by
  have hdot : lit "." = [byte '.'] := rfl
  have hsame : hasSuffix (byte '.' :: v) (lit ".") = hasSuffix v (lit ".") := by
    rw [Bool.eq_iff_iff]
    unfold hasSuffix
    rw [List.isSuffixOf_iff_suffix, List.isSuffixOf_iff_suffix, List.suffix_cons_iff]
    apply or_iff_right
    intro heq
    exact hne (List.cons_eq_cons.mp heq).2.symm
  have hlength : 0 < v.length := List.length_pos_iff.mpr hne
  unfold trimSuffix
  rw [hsame]
  split
  · have htake : (byte '.' :: v).length - (lit ".").length = (v.length - 1) + 1 := by
      rw [hdot, List.length_cons, List.length_singleton]
      omega
    rw [htake, List.take_succ_cons]
    rfl
  · rfl

theorem domainMatches_dot (v : GoString) : domainMatches lower (byte '.' :: v) v = true := by
  by_cases hne : v = []
  · rw [hne]
    rfl
  · unfold domainMatches
    dsimp only
    rw [trimSuffix_dot_cons hne, toLower_dot]
    split
    · rfl
    · have hsuffix (p : GoString) : hasSuffix (byte '.' :: p) p = true :=
        List.isSuffixOf_iff_suffix.mpr (List.suffix_cons _ p)
      have hbelow (p : GoString) : hasSuffix (byte '.' :: p) (lit "." ++ p) = true :=
        List.isSuffixOf_iff_suffix.mpr List.suffix_rfl
      split
      · rw [hsuffix, Bool.or_true]
      · rw [if_pos (hbelow _)]

/-- An expression that is not an equality is true of a second name. -/
theorem formMatches_dot {text : GoString}
    (h : hasPrefix text (lit "*.") = true ∨ hasPatternChar text = true) (v : GoString) :
    formMatches lower text v v = true ∧ formMatches lower text v (byte '.' :: v) = true := by
  unfold formMatches
  by_cases hwild : hasPrefix text (lit "*.") = true
  · simp [if_pos hwild, domainEndsWith_dot, isSubdomain_dot]
  · have hpattern := h.resolve_left hwild
    simp [if_neg hwild, if_pos hpattern, domainMatches_self, domainMatches_dot]

theorem formMatches_eq_plain_iff {d v : GoString} :
    (∀ name, formMatches lower d v name = (name == d)) ↔
      (hasPrefix d (lit "*.") = false ∧ hasPatternChar d = false) ∧ v = d := by
  constructor
  · intro h
    by_cases hform : hasPrefix d (lit "*.") = true ∨ hasPatternChar d = true
    · -- both the text and the text below a dot would have to be the domain
      obtain ⟨hself, hdot⟩ := formMatches_dot lower hform v
      rw [h, beq_iff_eq] at hself hdot
      rw [← hself] at hdot
      exact absurd (congrArg List.length hdot) (by simp)
    · simp only [not_or, Bool.not_eq_true] at hform
      refine ⟨hform, ?_⟩
      have hself := h v
      simpa [formMatches, hform] using hself
  · rintro ⟨hform, rfl⟩ name
    simp [formMatches, hform]

theorem formMatches_eq_wildcard_iff {base v : GoString} :
    (∀ name, formMatches lower (lit "*." ++ base) v name =
      (name == base || isSubdomain lower name base)) ↔ v = base := by
  have hwild : hasPrefix (lit "*." ++ base) (lit "*.") = true := by simp [hasPrefix]
  simp only [formMatches, if_pos hwild, domainEndsWith_dot]
  constructor
  · intro h
    -- otherwise each of the two would be below the other
    have hv := h v
    have hbase := h base
    simp only [beq_self_eq_true, Bool.true_or, eq_comm (a := true), Bool.or_eq_true,
      beq_iff_eq] at hv hbase
    rcases hv with hv | hv
    · exact hv
    · rcases hbase with hbase | hbase
      · exact hbase.symm
      · have := length_of_isSubdomain lower hv
        have := length_of_isSubdomain lower hbase
        omega
  · rintro rfl name
    rfl

end

/-! ## Entries -/

section

variable (lower : Nat → Nat) (regexp : GoString → Option (GoString → Bool))

/-- The form of the entry's text is the one of its kind, once its literal is read as `v`: for
a regular expression, it happens to match the same names. -/
def ReadsAs (v : GoString) : ListEntry → Prop
  | .plain domain =>
    (hasPrefix domain (lit "*.") = false ∧ hasPatternChar domain = false) ∧ v = domain
  | .wildcard base => v = base
  | .regex pattern =>
    ∀ name, regexMatches lower regexp name pattern = formMatches lower pattern v name

theorem readsAs_iff (v : GoString) (entry : ListEntry) :
    (∀ name, formMatches lower entry.text v name = entry.matches lower regexp name) ↔
      ReadsAs lower regexp v entry := by
  cases entry with
  | plain domain => exact formMatches_eq_plain_iff lower
  | wildcard base => exact formMatches_eq_wildcard_iff lower
  | regex pattern => exact forall_congr' fun name => eq_comm

variable {lower regexp} {upper : Nat → Nat} {literal : GoString → Option GoString}
  {printable : Nat → Bool} {lang : ExprLang}

/-- When an entry keeps its meaning: after an import (of valid UTF-8), if the form of its text is
the one of its kind; after the migration of the whitelist, if it still is with what the library
reads in place of a text that does not end the literal early. -/
theorem entry_keeps_meaning_iff (hlang : Understands lower upper literal printable lang)
    (entry : ListEntry) :
    (validString (entryBody entry.text) = true → ∀ rows, ∀ row ∈ rows, row.2 = entry.text →
      ∃ rule ∈ importPolicyRules printable rows, rule.action = row.1.action.text ∧
        (Keeps lower regexp lang rule.logic entry ↔
          ReadsAs lower regexp (entryBody entry.text) entry)) ∧
    (closed false (entryBody entry.text) = true → ∀ i,
      (Keeps lower regexp lang (whitelistRule entry.text i).logic entry ↔
        ∃ v, literal (entryBody entry.text) = some v ∧ ReadsAs lower regexp v entry)) := by
  constructor
  · intro hvalid rows row hrow htext
    obtain ⟨verb, hmem⟩ := mem_importPolicyRules printable hrow
    refine ⟨_, hmem, rfl, ?_⟩
    rw [htext, importedRule_logic,
      keeps_formLogic_iff hlang regexp _ (closed_quoteBody printable _), hlang.unquotes _ hvalid]
    simp only [Option.some.injEq, exists_eq_left', readsAs_iff]
  · intro hclosed i
    rw [whitelistRule_logic, keeps_formLogic_iff hlang regexp _ hclosed]
    simp only [readsAs_iff]

end

/-! ## Instances -/

def adsRegexp (pattern : GoString) : Option (GoString → Bool) :=
  if pattern = lit "^ads$" then some (· == lit "ads") else none

theorem wildcard_keeps_meaning :
    Keeps id adsRegexp (fragment id id) (whitelistRule (lit "*.example.com") 0).logic
      (.wildcard (lit "example.com")) := by
  have hlang : Understands id id unquote (fun _ => true) (fragment id id) :=
    understands_fragment _
  have hmigrated :=
    (@entry_keeps_meaning_iff id adsRegexp id unquote _ _ hlang (.wildcard (lit "example.com"))).2
      (by decide) 0
  exact hmigrated.mpr ⟨lit "example.com", by decide, rfl⟩

theorem not_keeps_of_missed {lower : Nat → Nat} {regexp : GoString → Option (GoString → Bool)}
    {lang : ExprLang} {logic name : GoString} {entry : ListEntry}
    (hname : entry.matches lower regexp name = true)
    (hmissed : lang.run logic (nameQuery name) ≠ some true) :
    ¬ Keeps lower regexp lang logic entry := by
  intro hkeeps
  exact hmissed ((hkeeps.2 (nameQuery name)).mpr hname)

/-- The expression `^ads$` is for the name `ads`, and the policies made from it miss it.  A
backslash in a whitelist entry is read as an escape. -/
theorem regex_entry_misses_its_name :
    (∃ rule ∈ importPolicyRules (fun _ => true) [(.blacklistRegex, lit "^ads$")],
      rule.action = lit "BLOCK" ∧
        ¬ Keeps id adsRegexp (fragment id id) rule.logic (.regex (lit "^ads$"))) ∧
      ¬ Keeps id adsRegexp (fragment id id) (whitelistRule (lit "^ads$") 0).logic
        (.regex (lit "^ads$")) ∧
      (fragment id id).compiles (whitelistRule (lit "^ads\\.") 0).logic = false := by
  have hname : (ListEntry.regex (lit "^ads$")).matches id adsRegexp (lit "ads") = true := by
    decide
  refine ⟨⟨_, List.mem_singleton.mpr rfl, by decide, ?_⟩, ?_, by decide⟩
  · exact not_keeps_of_missed hname (by decide)
  · exact not_keeps_of_missed hname (by decide)

end GloryHole.Boot
