import GloryHole.Go.Strings

/-!
# The pieces of a split string

`strings.Split` at a one-byte separator and what tests on whole strings (prefix, suffix, infix) say
about the pieces.
-/

namespace GloryHole.Go

variable {b : UInt8} {s t p : GoString}

theorem splitByte_ne_nil (b : UInt8) (s : GoString) : splitByte b s ≠ [] := by
  cases s with
  | nil => exact List.cons_ne_nil _ _
  | cons c s =>
    rw [splitByte]
    split
    · exact List.cons_ne_nil _ _
    · split <;> exact List.cons_ne_nil _ _

theorem splitByte_cons {c : UInt8} (hc : c ≠ b) :
    ∃ piece pieces, splitByte b s = piece :: pieces ∧
      splitByte b (c :: s) = (c :: piece) :: pieces := by
  obtain ⟨piece, pieces, hsplit⟩ := List.exists_cons_of_ne_nil (splitByte_ne_nil b s)
  refine ⟨piece, pieces, hsplit, ?_⟩
  rw [splitByte, if_neg hc, hsplit]

theorem splitByte_concat (b : UInt8) (s t : GoString) :
    splitByte b (s ++ b :: t) = splitByte b s ++ splitByte b t := by
  induction s with
  | nil => simp [splitByte]
  | cons c s ih =>
    by_cases hc : c = b
    · rw [List.cons_append, splitByte, splitByte, if_pos hc, if_pos hc, ih, List.cons_append]
    · obtain ⟨piece, pieces, hsplit, hcons⟩ := splitByte_cons (s := s) hc
      rw [hsplit, List.cons_append] at ih
      rw [List.cons_append, splitByte, if_neg hc, ih, hcons, List.cons_append]

theorem splitByte_of_not_mem (hs : b ∉ s) : splitByte b s = [s] := by
  induction s with
  | nil => rfl
  | cons c s ih =>
    rw [List.mem_cons, not_or] at hs
    rw [splitByte, if_neg (Ne.symm hs.1), ih hs.2]

theorem splitByte_append (hs : b ∉ s) : splitByte b (s ++ b :: t) = s :: splitByte b t := by
  rw [splitByte_concat, splitByte_of_not_mem hs, List.singleton_append]

theorem not_mem_of_mem_splitByte (h : p ∈ splitByte b s) : b ∉ p := by
  induction s generalizing p with
  | nil =>
    rw [List.mem_singleton.mp h]
    exact List.not_mem_nil
  | cons c s ih =>
    by_cases hc : c = b
    · rw [splitByte, if_pos hc] at h
      rcases List.mem_cons.mp h with rfl | h
      · exact List.not_mem_nil
      · exact ih h
    · obtain ⟨piece, pieces, hsplit, hcons⟩ := splitByte_cons (s := s) hc
      rw [hcons] at h
      rw [hsplit] at ih
      rcases List.mem_cons.mp h with rfl | h
      · rw [List.mem_cons, not_or]
        exact ⟨Ne.symm hc, ih List.mem_cons_self⟩
      · exact ih (List.mem_cons_of_mem _ h)

/-- The pieces, each with a separator after it, are the string with one. -/
theorem flatMap_splitByte (b : UInt8) (s : GoString) :
    (splitByte b s).flatMap (· ++ [b]) = s ++ [b] := by
  induction s with
  | nil => rfl
  | cons c s ih =>
    by_cases hc : c = b
    · rw [splitByte, if_pos hc, List.flatMap_cons, ih, hc]
      rfl
    · obtain ⟨piece, pieces, hsplit, hcons⟩ := splitByte_cons (s := s) hc
      rw [hsplit, List.flatMap_cons] at ih
      rw [hcons, List.flatMap_cons, List.cons_append, List.cons_append, ih, List.cons_append]

/-- Pieces before others give a string that is empty or ends in the separator. -/
theorem flatMap_separated (b : UInt8) (pieces : List GoString) :
    pieces = [] ∨ ∃ u, pieces.flatMap (· ++ [b]) = u ++ [b] := by
  induction pieces using List.reverseRecOn with
  | nil => exact Or.inl rfl
  | append_singleton pieces piece _ =>
    refine Or.inr ⟨pieces.flatMap (· ++ [b]) ++ piece, ?_⟩
    rw [List.flatMap_append, List.flatMap_singleton, List.append_assoc]

/-- The pieces of one string end those of another. -/
theorem splitByte_suffix_iff : splitByte b p <:+ splitByte b s ↔ s = p ∨ b :: p <:+ s := by
  constructor
  · rintro ⟨pieces, hsplit⟩
    have hjoin := flatMap_splitByte b s
    rw [← hsplit, List.flatMap_append, flatMap_splitByte, ← List.append_assoc] at hjoin
    have hs := List.append_cancel_right hjoin
    rcases flatMap_separated b pieces with rfl | ⟨u, hu⟩
    · exact Or.inl hs.symm
    · rw [hu, List.append_assoc, List.singleton_append] at hs
      exact Or.inr ⟨u, hs⟩
  · rintro (rfl | ⟨u, rfl⟩)
    · exact List.suffix_rfl
    · rw [splitByte_concat]
      exact List.suffix_append _ _

/-- A string without the separator is a piece: the whole string, the first piece, the last one or
one in between. -/
theorem mem_splitByte_iff (hp : b ∉ p) :
    p ∈ splitByte b s ↔
      s = p ∨ p ++ [b] <+: s ∨ b :: p ++ [b] <:+: s ∨ b :: p <:+ s := by
  constructor
  · intro hmem
    obtain ⟨before, after, hsplit⟩ := List.append_of_mem hmem
    have hjoin := flatMap_splitByte b s
    rw [hsplit, List.flatMap_append, List.flatMap_cons] at hjoin
    rcases flatMap_separated b after with rfl | ⟨v, hv⟩
    · rw [List.flatMap_nil, List.append_nil, ← List.append_assoc] at hjoin
      have hs := List.append_cancel_right hjoin
      rcases flatMap_separated b before with rfl | ⟨u, hu⟩
      · exact Or.inl hs.symm
      · rw [hu, List.append_assoc, List.singleton_append] at hs
        exact Or.inr (Or.inr (Or.inr ⟨u, hs⟩))
    · rw [hv, ← List.append_assoc, ← List.append_assoc] at hjoin
      have hs := List.append_cancel_right hjoin
      rcases flatMap_separated b before with rfl | ⟨u, hu⟩
      · exact Or.inr (Or.inl ⟨v, hs⟩)
      · rw [hu] at hs
        exact Or.inr (Or.inr (Or.inl ⟨u, v, by simpa using hs⟩))
  · have hself : splitByte b p = [p] := splitByte_of_not_mem hp
    rintro (rfl | ⟨v, rfl⟩ | ⟨u, v, rfl⟩ | ⟨u, rfl⟩)
    · simp [hself]
    · rw [List.append_assoc, List.singleton_append, splitByte_append hp]
      exact List.mem_cons_self
    · have happend : u ++ (b :: p ++ [b]) ++ v = u ++ b :: (p ++ b :: v) := by simp
      rw [happend, splitByte_concat, splitByte_append hp]
      exact List.mem_append_right _ List.mem_cons_self
    · rw [splitByte_concat, hself]
      exact List.mem_append_right _ List.mem_cons_self

end GloryHole.Go
