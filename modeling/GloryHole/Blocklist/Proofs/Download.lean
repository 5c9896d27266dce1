import GloryHole.Blocklist.Manager
import GloryHole.Blocklist.Proofs.Merge
import GloryHole.Go.Labels

/-!
# What a download yields

A downloaded list is strictly sorted, its names end in a dot, and the cut at 100 MB
bounds the bytes it takes up in the packed structure.
-/

namespace GloryHole.Blocklist

open Go FlatBlocklist

/-! ## Sorting and deduplication -/

variable {names : List GoString} {d text : GoString}

theorem mem_dedupSorted :
    d ∈ dedupSorted names ↔ d ∈ names := by
  induction names using dedupSorted.induct with
  | case1 | case2 e => rfl
  | case3 e rest ih =>
    simp only [dedupSorted, if_true, ih, List.mem_cons]
    exact or_self_left.symm
  | case4 e e' rest hne ih =>
    simp only [dedupSorted, if_neg hne, List.mem_cons, ih]

theorem dedupSorted_strict (hsorted : names.Pairwise (· ≤ ·)) :
    (dedupSorted names).Pairwise (· < ·) := by
  induction names using dedupSorted.induct with
  | case1 => exact List.Pairwise.nil
  | case2 e => exact List.pairwise_singleton _ _
  | case3 e rest ih =>
    simp only [dedupSorted, if_true]
    exact ih hsorted.tail
  | case4 e e' rest hne ih =>
    obtain ⟨hfirst, htail⟩ := List.pairwise_cons.mp hsorted
    simp only [dedupSorted, if_neg hne]
    refine List.pairwise_cons.mpr ⟨?_, ih htail⟩
    intro d hd
    have hlt : e < e' := Std.lt_of_le_of_ne (hfirst e' List.mem_cons_self) hne
    rcases List.mem_cons.mp (mem_dedupSorted.mp hd) with rfl | hd
    · exact hlt
    · exact Std.lt_of_lt_of_le hlt ((List.pairwise_cons.mp htail).1 d hd)

theorem dedupSorted_concat (names : List GoString) (d : GoString) :
    dedupSorted (names ++ [d]) =
      if names.getLast? = some d then dedupSorted names else dedupSorted names ++ [d] := by
  induction names using dedupSorted.induct with
  | case1 => rfl
  | case2 e =>
    simp only [List.cons_append, List.nil_append, dedupSorted, List.getLast?_singleton,
      Option.some.injEq]
    split
    · rename_i heq
      rw [heq]
    · rfl
  | case3 e rest ih =>
    rw [List.cons_append, List.cons_append, dedupSorted, if_pos rfl, ← List.cons_append, ih,
      List.getLast?_cons_cons, dedupSorted, if_pos rfl]
  | case4 e e' rest hne ih =>
    rw [List.cons_append, List.cons_append, dedupSorted, if_neg hne, ← List.cons_append, ih,
      List.getLast?_cons_cons, dedupSorted, if_neg hne]
    split
    · rfl
    · rfl

/-- After the rounds up to `n` the names from there on are still in place, so the next round
compares names of the sorted list. -/
theorem foldl_compactStep (names : List GoString) {n : Nat} (hn : n < names.length) :
    ∃ domains w, (List.range' 1 n).foldl compactStep (names, 1) = (domains, w) ∧
      domains.length = names.length ∧ w ≤ n + 1 ∧ (∀ i, n ≤ i → domains[i]? = names[i]?) ∧
      domains.take w = dedupSorted (names.take (n + 1)) := by
  induction n with
  | zero =>
    obtain ⟨d, rest, rfl⟩ := List.exists_cons_of_length_pos hn
    exact ⟨d :: rest, 1, rfl, rfl, Nat.le_refl _, fun i _ => rfl, rfl⟩
  | succ n ih =>
    obtain ⟨domains, w, hfold, hlength, hw, hrest, htake⟩ := ih (by omega)
    have hlast : (names.take (n + 1)).getLast? = names[n]? := by
      rw [List.getLast?_take, if_neg (Nat.succ_ne_zero n), Nat.add_sub_cancel,
        List.getElem?_eq_getElem (by omega), Option.some_or]
    have hnext : names[n + 1]? = some names[n + 1] := List.getElem?_eq_getElem hn
    have hconcat := dedupSorted_concat (names.take (n + 1)) names[n + 1]
    rw [List.take_concat_get', hlast] at hconcat
    rw [List.range'_1_concat, List.foldl_concat, hfold, compactStep, Nat.add_comm 1 n,
      Nat.add_sub_cancel, hrest (n + 1) (by omega), hrest n (Nat.le_refl n), hnext,
      Option.getD_some]
    by_cases hsame : names[n]? = some names[n + 1]
    · rw [if_neg (not_not.mpr hsame.symm)]
      rw [if_pos hsame] at hconcat
      exact ⟨domains, w, rfl, hlength, by omega, fun i hi => hrest i (by omega),
        htake.trans hconcat.symm⟩
    · rw [if_pos (Ne.symm hsame)]
      rw [if_neg hsame] at hconcat
      refine ⟨_, _, rfl, ?_, by omega, ?_, ?_⟩
      · rw [List.length_set, hlength]
      · intro i hi
        rw [List.getElem?_set]
        split
        · -- the write has caught up with the read and stores the name where it is
          obtain rfl : i = n + 1 := by omega
          rw [if_pos (by omega), hnext]
        · exact hrest i (by omega)
      · rw [hconcat, ← htake]
        have hlt : w < domains.length := by omega
        rw [List.take_add_one, List.take_set_of_le (Nat.le_refl w), List.getElem?_set_self hlt]
        rfl

theorem compact_eq_dedupSorted (names : List GoString) : compact names = dedupSorted names := by
  unfold compact
  by_cases hmany : names.length > 1
  · obtain ⟨domains, w, hfold, -, -, -, htake⟩ :=
      foldl_compactStep names (n := names.length - 1) (by omega)
    rw [if_pos hmany, hfold]
    simp only
    rw [htake, List.take_of_length_le (by omega)]
  · rw [if_neg hmany]
    match names with
    | [] => rfl
    | [d] => rfl
    | d :: e :: rest => exact absurd (by simp) hmany

theorem packedSize_dedupSorted_le (names : List GoString) :
    packedSize (dedupSorted names) ≤ packedSize names := by
  induction names using dedupSorted.induct with
  | case1 | case2 e => exact Nat.le_refl _
  | case3 e rest ih =>
    simp only [dedupSorted, if_true, packedSize, List.map_cons, List.sum_cons] at ih ⊢
    omega
  | case4 e e' rest hne ih =>
    simp only [dedupSorted, if_neg hne, packedSize, List.map_cons, List.sum_cons] at ih ⊢
    omega

theorem packedSize_sortStrings (names : List GoString) :
    packedSize (sortStrings names) = packedSize names :=
  ((sortStrings_perm names).map _).sum_nat

/-! ## Sizes -/

theorem length_acceptField_le (domain : GoString) :
    (acceptField domain).length ≤ domain.length := by
  unfold acceptField
  repeat' split
  all_goals simp

theorem length_stripComment_le (line : GoString) :
    (stripComment line).length ≤ line.length := by
  unfold stripComment
  split <;> simp

theorem length_adblockDomain_le (line : GoString) :
    (adblockDomain line).length ≤ line.length := by
  simp only [adblockDomain]
  split
  · simp
  · calc (trimSpace ((trimPrefix line (lit "||")).takeWhile (· != byte '^'))).length
        ≤ ((trimPrefix line (lit "||")).takeWhile (· != byte '^')).length :=
          length_trimSpace_le _
      _ ≤ (trimPrefix line (lit "||")).length := (List.takeWhile_prefix _).length_le
      _ ≤ line.length := length_trimPrefix_le _ _

theorem length_hostsDomain_le (line : GoString) :
    (hostsDomain line).length ≤ line.length := by
  have hfields : ∀ f ∈ fields (trimPrefix line (lit "*.")),
      (acceptField f).length ≤ line.length := fun f hf =>
    Nat.le_trans (length_acceptField_le f)
      (Nat.le_trans (length_fields_le hf) (length_trimPrefix_le _ _))
  unfold hostsDomain
  split
  · rename_i domain heq
    exact hfields domain (by simp [heq])
  · rename_i first domain rest heq
    split
    · exact hfields domain (by simp [heq])
    · simp
  · simp

theorem length_extractDomain_le (line : GoString) :
    (extractDomain line).length ≤ line.length := by
  have hstrip := length_stripComment_le line
  simp only [extractDomain]
  repeat' split
  · simp
  · exact Nat.le_trans (length_adblockDomain_le _) hstrip
  · exact Nat.le_trans (length_hostsDomain_le _) hstrip

/-- A line gives a name of at most its own length and a dot, an empty line none. -/
theorem length_parseLine (h : parseLine text = some d) :
    d.length ≤ text.length + 1 ∧ 0 < text.length := by
  simp only [parseLine] at h
  split at h
  · cases h
  · rename_i hline
    split at h
    · cases h
    · have hextract := length_extractDomain_le (trimSpace text)
      have htrim := length_trimSpace_le text
      have hpos : 0 < (trimSpace text).length := by
        rw [List.length_pos_iff]
        intro hnil
        simp [hnil] at hline
      cases h
      constructor
      · have hdot : (ensureDot (extractDomain (trimSpace text))).length ≤
            (extractDomain (trimSpace text)).length + 1 := by
          unfold ensureDot
          split <;> simp [lit]
        omega
      · omega

theorem parseLine_endsInDot (h : parseLine text = some d) :
    d.getLast? = some (byte '.') := by
  simp only [parseLine] at h
  split at h
  · cases h
  · split at h
    · cases h
    · cases h
      unfold ensureDot
      split
      · rename_i hsuffix
        obtain ⟨pre, hpre⟩ := List.isSuffixOf_iff_suffix.mp hsuffix
        rw [← hpre]
        simp [lit, byte]
      · simp [lit, byte]

theorem sum_length_splitByte (b : UInt8) (s : GoString) :
    ((splitByte b s).map fun p => p.length + 1).sum = s.length + 1 := by
  simpa [List.length_flatMap] using congrArg List.length (flatMap_splitByte b s)

theorem packedSize_parse_le (lines : List GoString) :
    2 * packedSize (lines.filterMap parseLine) ≤
      3 * (lines.map fun p => p.length + 1).sum := by
  induction lines with
  | nil => simp [packedSize]
  | cons line lines ih =>
    cases hline : parseLine line with
    | none =>
      simp only [List.filterMap_cons, hline, List.map_cons, List.sum_cons]
      omega
    | some d =>
      obtain ⟨hlen, hpos⟩ := length_parseLine hline
      simp only [packedSize, List.filterMap_cons, hline, List.map_cons,
        List.sum_cons] at ih ⊢
      omega

theorem length_trimSuffix_le (s suf : GoString) : (trimSuffix s suf).length ≤ s.length := by
  unfold trimSuffix
  split <;> simp

theorem sum_length_scanLines_le {lines : List GoString} (h : scanLines text = some lines) :
    (lines.map fun p => p.length + 1).sum ≤ text.length + 1 := by
  have htrim : ∀ pieces : List GoString,
      ((pieces.map fun l => trimSuffix l (lit "\r")).map fun p => p.length + 1).sum ≤
        (pieces.map fun p => p.length + 1).sum := by
    intro pieces
    induction pieces with
    | nil => exact Nat.le_refl _
    | cons p pieces ih =>
      have := length_trimSuffix_le p (lit "\r")
      simp only [List.map_cons, List.sum_cons] at ih ⊢
      omega
  have hraw : ((rawLines text).map fun p => p.length + 1).sum ≤ text.length + 1 := by
    rw [← sum_length_splitByte (byte '\n') text]
    simp only [rawLines]
    split
    · exact ((List.dropLast_sublist _).map _).sum_le_sum (by simp)
    · exact Nat.le_refl _
  unfold scanLines at h
  split at h
  · cases h
  · cases h
    exact Nat.le_trans (htrim _) hraw

def maxPackedList : Nat := 3 * (maxBlocklistSize + 1) / 2

theorem packedSize_downloadSorted_le (h : downloadSorted text = some names) :
    packedSize names ≤ maxPackedList := by
  simp only [downloadSorted, parseToSlice, Option.map_map, Option.map_eq_some_iff,
    Function.comp_apply] at h
  obtain ⟨lines, hlines, rfl⟩ := h
  have hscan := sum_length_scanLines_le hlines
  have hparse := packedSize_parse_le lines
  have htake : (text.take maxBlocklistSize).length ≤ maxBlocklistSize :=
    List.length_take_le _ _
  refine Nat.le_trans (packedSize_dedupSorted_le _) ?_
  rw [packedSize_sortStrings, maxPackedList]
  omega

/-! ## The downloaded lists -/

theorem downloadSorted_strict (h : downloadSorted text = some names) : names.Pairwise (· < ·) := by
  obtain ⟨domains, -, rfl⟩ := Option.map_eq_some_iff.mp h
  exact dedupSorted_strict (sortStrings_pairwise domains)

theorem downloadSorted_endsInDot (h : downloadSorted text = some names) (hd : d ∈ names) :
    d.getLast? = some (byte '.') := by
  simp only [downloadSorted, parseToSlice, Option.map_map, Option.map_eq_some_iff,
    Function.comp_apply] at h
  obtain ⟨lines, -, rfl⟩ := h
  rw [mem_dedupSorted, (sortStrings_perm _).mem_iff, List.mem_filterMap] at hd
  obtain ⟨line, -, hline⟩ := hd
  exact parseLine_endsInDot hline

theorem foldl_addLine (lines keys : List GoString) (hkeys : keys.Nodup) :
    (lines.foldl addLine keys).Nodup ∧
      ∀ d, d ∈ lines.foldl addLine keys ↔ d ∈ keys ∨ d ∈ lines.filterMap parseLine := by
  induction lines generalizing keys with
  | nil => exact ⟨hkeys, fun d => by simp⟩
  | cons line lines ih =>
    rw [List.foldl_cons, addLine]
    cases hline : parseLine line with
    | none =>
      rw [List.filterMap_cons_none hline]
      exact ih keys hkeys
    | some domain =>
      obtain ⟨hnodup, hmem⟩ := ih (keys.insert domain) hkeys.insert
      refine ⟨hnodup, fun d => ?_⟩
      rw [hmem, List.mem_insert_iff, List.filterMap_cons_some hline, List.mem_cons]
      tauto

/-- Sorting the slice and dropping duplicates in place gives the keys of the map in order. -/
theorem sorted_slice_eq_keys (text : GoString) (domains : List GoString)
    (h : parseToSlice text = some domains) :
    ∃ keys, parseHostsFile text = some keys ∧ compact (sortStrings domains) = sortStrings keys ∧
      (sortStrings keys).Pairwise (· < ·) ∧ ∀ d, d ∈ sortStrings keys ↔ d ∈ keys := by
  obtain ⟨lines, hlines, rfl⟩ := Option.map_eq_some_iff.mp h
  obtain ⟨hnodup, hkeys⟩ := foldl_addLine lines [] List.nodup_nil
  have hstrict := sortStrings_strict hnodup
  have hparse : parseHostsFile text = some (lines.foldl addLine []) := by
    rw [parseHostsFile, hlines, Option.map_some]
  refine ⟨_, hparse, ?_, hstrict, fun d => (sortStrings_perm _).mem_iff⟩
  rw [compact_eq_dedupSorted]
  refine eq_of_strictly_sorted (dedupSorted_strict (sortStrings_pairwise _)) hstrict ?_
  intro d
  rw [mem_dedupSorted, (sortStrings_perm _).mem_iff, (sortStrings_perm _).mem_iff, hkeys]
  simp

theorem sorted_slice_eq_keys_duplicates :
    ∃ keys, parseHostsFile (lit "b.com\n0.0.0.0 a.com\nb.com\n") = some keys ∧
      sortStrings keys = [lit "a.com.", lit "b.com."] := by
  obtain ⟨keys, hkeys, hcompact, -⟩ := sorted_slice_eq_keys
    (lit "b.com\n0.0.0.0 a.com\nb.com\n") [lit "b.com.", lit "a.com.", lit "b.com."] (by decide)
  exact ⟨keys, hkeys, hcompact.symm.trans (by decide)⟩

theorem mem_downloadLists {urls : List GoString} {responses : List Response}
    {l : SortedList} (hl : l ∈ downloadLists urls responses) :
    ∃ text, downloadSorted text = some l.domains := by
  simp only [downloadLists, List.mem_filterMap] at hl
  obtain ⟨entry, -, hentry⟩ := hl
  simp only [downloadList] at hentry
  split at hentry
  · cases hentry
  · rename_i sorted hsorted
    cases hentry
    obtain ⟨text, -, htext⟩ := Option.bind_eq_some_iff.mp hsorted
    exact ⟨text, htext⟩

theorem downloadLists_ordered (urls : List GoString) (responses : List Response) :
    ∀ l ∈ downloadLists urls responses, l.Ordered := by
  intro l hl
  obtain ⟨text, htext⟩ := mem_downloadLists hl
  refine ⟨downloadSorted_strict htext, ?_⟩
  rintro d hd rfl
  simpa using downloadSorted_endsInDot htext hd

/-- The names of the lists fit into the 32-bit offsets. -/
def ListsFit (urls : List GoString) (responses : List Response) : Prop :=
  ((downloadLists urls responses).map fun l => packedSize l.domains).sum < 2 ^ 32

/-- Up to 27 lists fit, whatever their texts. -/
theorem listsFit_of_length_le {urls : List GoString} {responses : List Response}
    (hcount : urls.length ≤ 27) : ListsFit urls responses := by
  have hlen : (downloadLists urls responses).length ≤ 27 := by
    refine Nat.le_trans (List.length_filterMap_le _ _) ?_
    simp only [List.length_zipIdx, List.length_zip]
    omega
  have hsum : ((downloadLists urls responses).map fun l => packedSize l.domains).sum ≤
      (downloadLists urls responses).length * maxPackedList := by
    have := List.sum_le_card_nsmul
      ((downloadLists urls responses).map fun l => packedSize l.domains) maxPackedList ?_
    · simpa using this
    · intro n hn
      obtain ⟨l, hl, rfl⟩ := List.mem_map.mp hn
      obtain ⟨text, htext⟩ := mem_downloadLists hl
      exact packedSize_downloadSorted_le htext
  have hmul : (downloadLists urls responses).length * maxPackedList ≤ 27 * maxPackedList :=
    Nat.mul_le_mul_right _ hlen
  have hconst : 27 * maxPackedList < 2 ^ 32 := by decide
  unfold ListsFit
  omega

end GloryHole.Blocklist
