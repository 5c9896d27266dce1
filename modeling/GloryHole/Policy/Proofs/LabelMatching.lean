import GloryHole.Policy.Expr

/-!
# `DomainMatches` by labels

The tests of `DomainMatches` on whole strings together say one thing about the labels: those of the
pattern end those of the domain, or the pattern is one of them.
-/

namespace GloryHole.Policy

open Go

theorem contains_iff_occurs (s sub : GoString) : contains s sub = true ↔ sub <:+: s := by
  simp only [contains, List.any_eq_true, List.mem_tails, List.isPrefixOf_iff_prefix]
  rw [List.infix_iff_prefix_suffix]
  exact exists_congr fun t => and_comm

theorem contains_dot_iff (s : GoString) : contains s (lit ".") = true ↔ byte '.' ∈ s := by
  rw [contains_iff_occurs]
  exact List.singleton_infix_iff _ _

/-- A pattern with a dot in front names the labels after the dot. -/
theorem leading_dot_iff (d q : GoString) :
    (if d = byte '.' :: q then true else d == q || hasSuffix d (byte '.' :: q)) = true ↔
      splitByte (byte '.') q <:+ splitByte (byte '.') d := by
  rw [splitByte_suffix_iff]
  split
  · rename_i heq
    rw [heq]
    exact iff_of_true rfl (Or.inr List.suffix_rfl)
  · rw [Bool.or_eq_true, beq_iff_eq, hasSuffix, List.isSuffixOf_iff_suffix]

/-- A pattern without a dot in front. -/
theorem plain_iff (d p : GoString) :
    (if d = p then true
      else if hasSuffix d (lit "." ++ p) then true
      else if ¬ contains p (lit ".") then
        d == p || hasPrefix d (p ++ lit ".") || contains d (lit "." ++ p ++ lit ".") ||
          hasSuffix d (lit "." ++ p)
      else false) = true ↔
      splitByte (byte '.') p <:+ splitByte (byte '.') d ∨
        byte '.' ∉ p ∧ p ∈ splitByte (byte '.') d := by
  have hdot : lit "." = [byte '.'] := rfl
  have hends : hasSuffix d (lit "." ++ p) = true ↔ byte '.' :: p <:+ d :=
    List.isSuffixOf_iff_suffix
  rw [splitByte_suffix_iff]
  by_cases heq : d = p
  · rw [if_pos heq]
    exact iff_of_true rfl (Or.inl (Or.inl heq))
  rw [if_neg heq]
  by_cases hsuffix : byte '.' :: p <:+ d
  · rw [if_pos (hends.mpr hsuffix)]
    exact iff_of_true rfl (Or.inl (Or.inr hsuffix))
  rw [if_neg (mt hends.mp hsuffix)]
  by_cases hmem : byte '.' ∈ p
  · rw [if_neg (not_not.mpr ((contains_dot_iff p).mpr hmem))]
    simp [heq, hsuffix, hmem]
  · rw [if_pos (mt (contains_dot_iff p).mp hmem), mem_splitByte_iff hmem]
    simp only [Bool.or_eq_true, beq_iff_eq, hasPrefix, List.isPrefixOf_iff_prefix, hasSuffix,
      List.isSuffixOf_iff_suffix, contains_iff_occurs, hdot, List.singleton_append]
    simp [heq, hsuffix, hmem]

/-- `DomainMatches` is matching by labels. -/
theorem domainMatches_iff_labels (lower : Nat → Nat) (domain pattern : GoString) :
    domainMatches lower domain pattern = true ↔
      splitByte (byte '.')
          (trimPrefix (toLower lower (trimSuffix pattern (lit "."))) (lit ".")) <:+
        splitByte (byte '.') (toLower lower (trimSuffix domain (lit "."))) ∨
      byte '.' ∉ toLower lower (trimSuffix pattern (lit ".")) ∧
        toLower lower (trimSuffix pattern (lit ".")) ∈
          splitByte (byte '.') (toLower lower (trimSuffix domain (lit "."))) := by
  unfold domainMatches
  generalize toLower lower (trimSuffix domain (lit ".")) = d
  generalize toLower lower (trimSuffix pattern (lit ".")) = p
  by_cases hdotted : hasPrefix p (lit ".") = true
  · obtain ⟨q, rfl⟩ := List.isPrefixOf_iff_prefix.mp hdotted
    have htrim : trimPrefix (lit "." ++ q) (lit ".") = q := by
      rw [trimPrefix, if_pos hdotted, List.drop_left]
    have hmem : byte '.' ∈ lit "." ++ q := List.mem_cons_self
    simp only [hdotted, if_true, htrim, hmem, not_true_eq_false, false_and, or_false]
    exact leading_dot_iff d q
  · rw [trimPrefix, if_neg hdotted]
    simp only [hdotted, if_false, Bool.false_eq_true]
    exact plain_iff d p

end GloryHole.Policy
