import GloryHole.Go.Labels
import GloryHole.Pattern.Pattern
import GloryHole.Support.Lists

/-!
# What a matcher finds

The matcher keeps exact patterns, wildcards and regular expressions apart.  Its answer is the first
pattern of the list that matches, looked for in one type after the other.  A wildcard compares
bytes at the end of the name and does not look at where a label starts.
-/

set_option linter.dupNamespace false

namespace GloryHole.Pattern

open Go

def firstOf (t : PatternType) (ps : List Pattern) (domain : GoString) : Option Pattern :=
  (ps.filter (·.type = t)).find? (·.matches domain)

section

variable {compile : GoString → Option (GoString → Bool)} {text domain : GoString}

variable {ps : List Pattern} {texts : List GoString}

theorem firstOf_eq_none {t : PatternType} :
    firstOf t ps domain = none ↔ ∀ p ∈ ps, p.type = t → ¬ p.matches domain = true := by
  simp [firstOf]

theorem of_firstOf {t : PatternType} {p : Pattern} (h : firstOf t ps domain = some p) :
    p ∈ ps ∧ p.type = t ∧ p.matches domain = true := by
  unfold firstOf at h
  obtain ⟨hp, htype⟩ := List.mem_filter.mp (List.mem_of_find?_eq_some h)
  have hmatch := List.find?_some h
  exact ⟨hp, of_decide_eq_true htype, hmatch⟩

theorem compiled_of_exact {p : Pattern} (h : parsePattern compile text = some p)
    (htype : p.type = .patternTypeExact) : p.compiled = none := by
  unfold parsePattern at h
  split at h
  · cases h
  · split at h
    · cases h
      rfl
    · split at h
      · obtain ⟨re, -, rfl⟩ := Option.map_eq_some_iff.mp h
        cases htype
      · cases h
        rfl

/-- The matcher sorts the patterns by type and keeps their order. -/
theorem foldl_add (ps : List Pattern) (m : Matcher) :
    (∀ d, d ∈ (ps.foldl Matcher.add m).exact ↔
      d ∈ m.exact ∨ ∃ p ∈ ps, p.type = .patternTypeExact ∧ p.raw = d) ∧
    (ps.foldl Matcher.add m).wildcard =
      m.wildcard ++ ps.filter (·.type = .patternTypeWildcard) ∧
    (ps.foldl Matcher.add m).regex = m.regex ++ ps.filter (·.type = .patternTypeRegex) := by
  induction ps generalizing m with
  | nil => simp
  | cons p ps ih =>
    obtain ⟨hexact, hwildcard, hregex⟩ := ih (m.add p)
    rw [List.foldl_cons, hwildcard, hregex]
    simp only [hexact]
    cases htype : p.type with
    | patternTypeExact =>
      refine ⟨fun d => ?_, by simp [Matcher.add, htype], by simp [Matcher.add, htype]⟩
      simp only [Matcher.add, htype, List.mem_insert_iff, List.exists_mem_cons_iff, true_and]
      rw [or_comm (a := d = p.raw), or_assoc, eq_comm (a := d)]
    | patternTypeWildcard | patternTypeRegex => simp [Matcher.add, htype]

/-- What an exact pattern matches is its own text. -/
theorem firstOf_exact (hps : texts.mapM (parsePattern compile) = some ps) :
    firstOf .patternTypeExact ps domain =
      if ∃ p ∈ ps, p.type = .patternTypeExact ∧ p.raw = domain then
        some { raw := domain, type := .patternTypeExact }
      else none := by
  have hcompiled : ∀ p ∈ ps, p.type = .patternTypeExact → p.compiled = none :=
    Support.Lists.forall_of_mapM_eq_some hps fun _ _ => compiled_of_exact
  have hmatch {p : Pattern} (htype : p.type = .patternTypeExact) :
      p.matches domain = true ↔ p.raw = domain := by
    rw [Pattern.matches, htype, beq_iff_eq, eq_comm]
  cases hfind : firstOf .patternTypeExact ps domain with
  | none =>
    rw [if_neg]
    rintro ⟨p, hp, htype, hraw⟩
    exact firstOf_eq_none.mp hfind p hp htype ((hmatch htype).mpr hraw)
  | some p =>
    obtain ⟨hp, htype, hmatches⟩ := of_firstOf hfind
    have hraw := (hmatch htype).mp hmatches
    rw [if_pos ⟨p, hp, htype, hraw⟩]
    have hnone := hcompiled p hp htype
    cases p
    simp_all

/-- What the matcher finds is what is first in its tier. -/
theorem matchPattern_eq (hps : texts.mapM (parsePattern compile) = some ps) (domain : GoString) :
    (ps.foldl Matcher.add {}).matchPattern domain =
      (firstOf .patternTypeExact ps domain).or
        ((firstOf .patternTypeWildcard ps domain).or (firstOf .patternTypeRegex ps domain)) := by
  obtain ⟨hexact, hwildcard, hregex⟩ := foldl_add ps {}
  rw [Matcher.matchPattern, hwildcard, hregex, firstOf_exact hps, firstOf, firstOf]
  simp only [hexact, List.not_mem_nil, false_or, List.nil_append]
  split
  · rfl
  · cases (ps.filter (·.type = .patternTypeWildcard)).find? (·.matches domain) <;> rfl

theorem of_matchPattern (hps : texts.mapM (parsePattern compile) = some ps) {p : Pattern}
    (h : (ps.foldl Matcher.add {}).matchPattern domain = some p) :
    p ∈ ps ∧ p.matches domain = true := by
  have hfirst {t : PatternType} (h : firstOf t ps domain = some p) :
      p ∈ ps ∧ p.matches domain = true := by
    obtain ⟨hp, -, hmatch⟩ := of_firstOf h
    exact ⟨hp, hmatch⟩
  rw [matchPattern_eq hps, Option.or_eq_some_iff, Option.or_eq_some_iff] at h
  rcases h with h | ⟨-, h | ⟨-, h⟩⟩
  · exact hfirst h
  · exact hfirst h
  · exact hfirst h

end

/-- The matcher finds a pattern exactly if one of the list matches: an exact one before the first
wildcard, and that before the first regular expression. -/
theorem matchPattern_tiers {compile : GoString → Option (GoString → Bool)} {texts : List GoString}
    {m : Matcher} (h : newMatcher compile texts = some m) (domain : GoString) :
    ∃ ps, texts.mapM (parsePattern compile) = some ps ∧
      ((m.matchPattern domain).isSome ↔ ∃ p ∈ ps, p.matches domain = true) ∧
      m.matchPattern domain =
        (firstOf .patternTypeExact ps domain).or
          ((firstOf .patternTypeWildcard ps domain).or (firstOf .patternTypeRegex ps domain)) := by
  obtain ⟨ps, hps, rfl⟩ := Option.map_eq_some_iff.mp h
  refine ⟨ps, hps, ?_, matchPattern_eq hps domain⟩
  constructor
  · intro hsome
    obtain ⟨p, hp⟩ := Option.isSome_iff_exists.mp hsome
    exact ⟨p, of_matchPattern hps hp⟩
  · rintro ⟨p, hp, hmatch⟩
    rw [← Option.ne_none_iff_isSome, matchPattern_eq hps, ne_eq, Option.or_eq_none_iff,
      Option.or_eq_none_iff]
    rintro ⟨hexact, hwildcard, hregex⟩
    cases htype : p.type with
    | patternTypeExact => exact firstOf_eq_none.mp hexact p hp htype hmatch
    | patternTypeWildcard => exact firstOf_eq_none.mp hwildcard p hp htype hmatch
    | patternTypeRegex => exact firstOf_eq_none.mp hregex p hp htype hmatch

theorem matchPattern_tiers_wildcard :
    ∃ m, newMatcher (fun _ => none) [lit "*.b.com", lit "a.b.com", lit "*.com"] = some m ∧
      ∃ p, m.matchPattern (lit "c.b.com") = some p ∧ p.raw = lit "*.b.com" := by
  refine ⟨_, rfl, ?_⟩
  obtain ⟨ps, hps, -, hanswer⟩ := @matchPattern_tiers (fun _ => none)
    [lit "*.b.com", lit "a.b.com", lit "*.com"] _ rfl (lit "c.b.com")
  cases hps
  exact ⟨_, hanswer, rfl⟩

/-! ## Wildcards and labels -/

def Labels (s : GoString) : Prop :=
  ∃ labels : List GoString, labels ≠ [] ∧ (∀ l ∈ labels, l ≠ [] ∧ byte '.' ∉ l) ∧
    s = labels.flatMap (· ++ [byte '.'])

/-- The text ends in a dot, and no dot follows another or comes first. -/
def DotEnded (s : GoString) : Prop :=
  s.getLast? = some (byte '.') ∧ ∀ l ∈ (splitByte (byte '.') s).dropLast, l ≠ []

theorem labels_iff (s : GoString) : Labels s ↔ DotEnded s := by
  constructor
  · rintro ⟨labels, hne, hlabels, rfl⟩
    have hsplit : splitByte (byte '.') (labels.flatMap (· ++ [byte '.'])) = labels ++ [[]] := by
      clear hne
      induction labels with
      | nil => rfl
      | cons l labels ih =>
        rw [List.forall_mem_cons] at hlabels
        rw [List.flatMap_cons, List.append_assoc, List.singleton_append,
          splitByte_append hlabels.1.2, ih hlabels.2, List.cons_append]
    refine ⟨?_, ?_⟩
    · obtain hnil | ⟨u, hu⟩ := flatMap_separated (byte '.') labels
      · exact absurd hnil hne
      · rw [hu, List.getLast?_concat]
    · rw [hsplit, List.dropLast_concat]
      exact fun l hl => (hlabels l hl).1
  · rintro ⟨hlast, hlabels⟩
    obtain ⟨u, rfl⟩ := List.getLast?_eq_some_iff.mp hlast
    have hsplit : splitByte (byte '.') (u ++ [byte '.']) = splitByte (byte '.') u ++ [[]] :=
      splitByte_concat _ u []
    rw [hsplit, List.dropLast_concat] at hlabels
    exact ⟨splitByte (byte '.') u, splitByte_ne_nil _ _,
      fun l hl => ⟨hlabels l hl, not_mem_of_mem_splitByte hl⟩, (flatMap_splitByte _ u).symm⟩

theorem parsePattern_wildcard (compile : GoString → Option (GoString → Bool)) (x : GoString) :
    parsePattern compile (lit "*." ++ x) =
      some { raw := lit "*." ++ x, type := .patternTypeWildcard } := by
  have hne : lit "*." ++ x ≠ [] := List.cons_ne_nil _ _
  rw [parsePattern, if_neg hne, if_pos]
  exact List.isPrefixOf_iff_prefix.mpr (List.prefix_append _ _)

/-- A wildcard matches what has more bytes before its name. -/
theorem wildcard_matches (x d : GoString) :
    Pattern.matches { raw := lit "*." ++ x, type := .patternTypeWildcard } d = true ↔
      ∃ pre, pre ≠ [] ∧ d = pre ++ x := by
  have htrim : trimPrefix (lit "*." ++ x) (lit "*.") = x := by
    rw [trimPrefix, if_pos, List.drop_left]
    exact List.isPrefixOf_iff_prefix.mpr (List.prefix_append _ _)
  simp only [Pattern.matches, htrim, Bool.and_eq_true, bne_iff_ne, hasSuffix,
    List.isSuffixOf_iff_suffix]
  constructor
  · rintro ⟨⟨pre, rfl⟩, hne⟩
    refine ⟨pre, ?_, rfl⟩
    rintro rfl
    exact hne (List.nil_append x)
  · rintro ⟨pre, hne, rfl⟩
    exact ⟨List.suffix_append _ _, fun heq => hne (List.append_left_eq_self.mp heq)⟩

/-- The wildcard of a name matches exactly its proper subdomains, for a domain in which what comes
before the name is nothing or ends in a dot and has no empty label. -/
theorem wildcard_matches_subdomains_iff (compile : GoString → Option (GoString → Bool))
    (x d : GoString) :
    ∃ p, parsePattern compile (lit "*." ++ x) = some p ∧
      ((p.matches d = true ↔ ∃ pre, Labels pre ∧ d = pre ++ x) ↔
        ∀ pre, d = pre ++ x → pre = [] ∨ DotEnded pre) := by
  refine ⟨_, parsePattern_wildcard compile x, ?_⟩
  rw [wildcard_matches]
  simp only [labels_iff]
  constructor
  · intro hiff pre hpre
    by_cases hne : pre = []
    · exact Or.inl hne
    · obtain ⟨pre', hdot, hpre'⟩ := hiff.mp ⟨pre, hne, hpre⟩
      rw [List.append_cancel_right (hpre.symm.trans hpre')]
      exact Or.inr hdot
  · intro hboundary
    constructor
    · rintro ⟨pre, hne, hpre⟩
      exact ⟨pre, (hboundary pre hpre).resolve_left hne, hpre⟩
    · rintro ⟨pre, hdot, hpre⟩
      refine ⟨pre, ?_, hpre⟩
      rintro rfl
      cases hdot.1

/-- `*.example.com` matches `badexample.com`, which ends in the name inside a label. -/
theorem wildcard_matches_inside_label :
    ∃ p, parsePattern (fun _ => none) (lit "*.example.com") = some p ∧
      p.matches (lit "badexample.com") = true ∧
      ¬ ∃ pre, Labels pre ∧ lit "badexample.com" = pre ++ lit "example.com" := by
  refine ⟨_, parsePattern_wildcard _ (lit "example.com"), by decide, ?_⟩
  rintro ⟨pre, hlabels, hpre⟩
  obtain rfl : lit "bad" = pre := List.append_cancel_right
    (show lit "bad" ++ lit "example.com" = pre ++ lit "example.com" from hpre)
  exact absurd ((labels_iff _).mp hlabels).1 (by decide)

end GloryHole.Pattern
