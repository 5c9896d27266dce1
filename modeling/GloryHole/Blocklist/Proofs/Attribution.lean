import GloryHole.Blocklist.Concurrent
import GloryHole.Blocklist.Proofs.Blocking
import GloryHole.Support.Lists
import GloryHole.Support.Runs

/-!
# The sources of a match

The mask of a name has the bits of the lists it is on, for the first 64 sources.  `Match`
turns it back into sources by a table that is published after the list and holds the
configuration of that moment.  Here is when the sources of an answer are those of the generation
it was found in.
-/

namespace GloryHole.Blocklist

open Go FlatBlocklist Support.Runs

/-- The sources of a generation, each with the names on its list; there are none on a list
that could not be downloaded. -/
def Generation.lists (gen : Generation) : List (GoString × List GoString) :=
  (gen.urls.zip gen.responses).map fun e => (e.1, (e.2.bind downloadSorted).getD [])

/-- What an answer should name as the sources of `n`: those of the first 64 lists that have
it, and the marker if a later one does. -/
def Generation.sources (gen : Generation) (n : GoString) : List GoString :=
  ((gen.lists.take maxTrackedSources).filter fun l => n ∈ l.2).map (·.1) ++
    if ∃ l ∈ gen.lists.drop maxTrackedSources, n ∈ l.2 then [lit "additional sources"] else []

def Generation.Fits (gen : Generation) : Prop := ListsFit gen.urls gen.responses

/-- `n` is the listed name that a query for `fqdn` meets: the nearest one above it, and the
first of those that read the same. -/
structure IsMatched (names : List GoString) (fqdn n : GoString) : Prop where
  listed : n ∈ names
  covers : visible n = fqdn ∨ IsParent (visible n) fqdn
  nearest : ∀ n' ∈ names, visible n' = fqdn ∨ IsParent (visible n') fqdn →
    (visible n').length ≤ (visible n).length
  first : ∀ n' ∈ names, visible n' = visible n → n ≤ n'

/-- The table has the sources of all lists with `n`, at their places; or none of the lists
with `n` has a place in it, and it is not empty. -/
def Attributed (gen : Generation) (table : List GoString) (n : GoString) : Prop :=
  (∀ (i : Nat) (l : GoString × List GoString), gen.lists[i]? = some l → n ∈ l.2 →
      i < maxTrackedSources ∧ table[i]? = some l.1) ∨
    ((∀ l ∈ gen.lists.take maxTrackedSources, n ∉ l.2) ∧ table ≠ [])

/-! ## Masks by their bits -/

theorem toBitVec_sourceBit {i : Nat} (hi : i < maxTrackedSources) :
    (sourceBit i).toBitVec = BitVec.twoPow 64 i := by
  have hmod : i % 64 = i := Nat.mod_eq_of_lt hi
  rw [sourceBit, if_pos hi, BitVec.twoPow_eq, UInt64.toBitVec_shiftLeft]
  simp [hmod]

theorem getLsbD_sourceBit (j i : Nat) :
    (sourceBit j).toBitVec.getLsbD i = true ↔ j < maxTrackedSources ∧ i = j := by
  by_cases hj : j < maxTrackedSources
  · have hj64 : j < 64 := hj
    rw [toBitVec_sourceBit hj, BitVec.getLsbD_twoPow]
    simp [hj, hj64, eq_comm]
  · rw [sourceBit, if_neg hj]
    simp [hj]

theorem and_sourceBit_ne_zero (mask : UInt64) {i : Nat} (hi : i < maxTrackedSources) :
    (mask &&& sourceBit i != 0) = mask.toBitVec.getLsbD i := by
  have hbit : BitVec.twoPow 64 i ≠ 0#64 := by
    intro hzero
    have hset := congrArg (BitVec.getLsbD · i) hzero
    have hi64 : i < 64 := hi
    simp [hi64] at hset
  rw [Bool.eq_iff_iff, bne_iff_ne, ne_eq, ← UInt64.toBitVec_inj, UInt64.toBitVec_and,
    toBitVec_sourceBit hi, BitVec.and_twoPow]
  cases mask.toBitVec.getLsbD i with
  | true => simp [hbit]
  | false => simp

theorem eq_zero_iff_getLsbD (mask : UInt64) :
    mask = 0 ↔ ∀ i, mask.toBitVec.getLsbD i = false := by
  rw [← UInt64.toBitVec_inj]
  constructor
  · intro h i
    rw [h]
    simp
  · intro h
    apply BitVec.eq_of_getLsbD_eq
    intro i _
    rw [h i]
    simp

theorem getLsbD_foldl_or (masks : List UInt64) (start : UInt64) (i : Nat) :
    (masks.foldl (· ||| ·) start).toBitVec.getLsbD i = true ↔
      start.toBitVec.getLsbD i = true ∨ ∃ mask ∈ masks, mask.toBitVec.getLsbD i = true := by
  induction masks generalizing start with
  | nil => simp
  | cons mask masks ih =>
    rw [List.foldl_cons, ih]
    simp [or_assoc]

section

variable (gen : Generation) (n : GoString)

/-- The lists that came back with `n` on them are those of the generation that have it. -/
theorem exists_downloaded_iff (P : UInt64 → Prop) :
    (∃ l ∈ downloadLists gen.urls gen.responses, n ∈ l.domains ∧ P l.mask) ↔
      ∃ (i : Nat) (l : GoString × List GoString),
        gen.lists[i]? = some l ∧ n ∈ l.2 ∧ P (sourceBit i) := by
  unfold downloadLists Generation.lists
  constructor
  · rintro ⟨l, hl, hn, hmask⟩
    obtain ⟨⟨⟨url, response⟩, i⟩, hentry, hl⟩ := List.mem_filterMap.mp hl
    refine ⟨i, (url, l.domains), ?_⟩
    unfold downloadList at hl
    cases hresponse : response.bind downloadSorted with
    | none =>
      rw [hresponse] at hl
      cases hl
    | some sorted =>
      rw [hresponse] at hl
      cases hl
      rw [List.getElem?_map, List.mk_mem_zipIdx_iff_getElem?.mp hentry]
      exact ⟨by simp [hresponse], hn, hmask⟩
  · rintro ⟨i, l, hl, hn, hmask⟩
    rw [List.getElem?_map] at hl
    obtain ⟨⟨url, response⟩, hentry, rfl⟩ := Option.map_eq_some_iff.mp hl
    refine ⟨⟨(response.bind downloadSorted).getD [], sourceBit i⟩, ?_, hn, hmask⟩
    refine List.mem_filterMap.mpr
      ⟨((url, response), i), List.mk_mem_zipIdx_iff_getElem?.mpr hentry, ?_⟩
    unfold downloadList
    cases hresponse : response.bind downloadSorted with
    | none => simp [hresponse] at hn
    | some sorted => rfl

theorem mem_listedNames_iff :
    n ∈ listedNames gen.urls gen.responses ↔ ∃ l ∈ gen.lists, n ∈ l.2 := by
  have h := exists_downloaded_iff gen n fun _ => True
  simp only [and_true] at h
  rw [listedNames, List.mem_flatMap, h]
  simp only [List.mem_iff_getElem?]
  constructor
  · rintro ⟨i, l, hl, hn⟩
    exact ⟨l, ⟨i, hl⟩, hn⟩
  · rintro ⟨l, ⟨i, hl⟩, hn⟩
    exact ⟨i, l, hl, hn⟩

/-- The mask of a name marks the lists it is on among the first 64. -/
theorem marks_sourceMask :
    Support.Lists.Marks
      (fun i => (sourceMask (downloadLists gen.urls gen.responses) n).toBitVec.getLsbD i) 0
      (gen.lists.take maxTrackedSources) (fun l => n ∈ l.2) := by
  intro i
  have h := exists_downloaded_iff gen n fun mask => mask.toBitVec.getLsbD i = true
  simp only [getLsbD_sourceBit] at h
  have hmask : (sourceMask (downloadLists gen.urls gen.responses) n).toBitVec.getLsbD i = true ↔
      ∃ l ∈ downloadLists gen.urls gen.responses,
        n ∈ l.domains ∧ l.mask.toBitVec.getLsbD i = true := by
    rw [sourceMask, getLsbD_foldl_or]
    simp [and_assoc]
  simp only [Nat.zero_add]
  rw [hmask, h]
  simp only [List.getElem?_take, decide_eq_true_eq]
  constructor
  · rintro ⟨j, l, hl, hn, hj, rfl⟩
    exact ⟨l, by rw [if_pos hj]; exact hl, hn⟩
  · rintro ⟨l, hl, hn⟩
    split at hl
    · rename_i hi
      exact ⟨i, l, hl, hn, hi, rfl⟩
    · cases hl

theorem sourceMask_eq_zero_iff :
    sourceMask (downloadLists gen.urls gen.responses) n = 0 ↔
      ∀ l ∈ gen.lists.take maxTrackedSources, n ∉ l.2 := by
  have hmarks := marks_sourceMask gen n
  simp only [Support.Lists.Marks, Nat.zero_add, decide_eq_true_eq] at hmarks
  simp only [eq_zero_iff_getLsbD, ← Bool.not_eq_true, hmarks, List.mem_iff_getElem?]
  grind

/-! ## The table -/

theorem sourcesFromMask_eq (m : Manager) (mask : UInt64) :
    m.sourcesFromMask mask =
      ((m.sourceNames.zipIdx.filter fun e => mask.toBitVec.getLsbD e.2).map (·.1)) ++
        if mask = 0 ∧ m.sourceNames ≠ [] then [lit "additional sources"] else [] := by
  have hfilter : ∀ e ∈ m.sourceNames.zipIdx,
      (decide (e.2 < maxTrackedSources) && mask &&& sourceBit e.2 != 0) =
        mask.toBitVec.getLsbD e.2 := by
    intro e _
    by_cases hi : e.2 < maxTrackedSources
    · rw [and_sourceBit_ne_zero mask hi]
      simp [hi]
    · have hi64 : 64 ≤ e.2 := Nat.le_of_not_lt hi
      rw [BitVec.getLsbD_of_ge _ _ hi64]
      simp [hi]
  unfold Manager.sourcesFromMask
  rw [List.filter_congr hfilter]

/-- A name on none of the first 64 lists: its mask is empty. -/
theorem sources_eq_iff_of_late (m : Manager)
    (hlisted : n ∈ listedNames gen.urls gen.responses)
    (hlate : ∀ l ∈ gen.lists.take maxTrackedSources, n ∉ l.2) :
    m.sourcesFromMask (sourceMask (downloadLists gen.urls gen.responses) n) = gen.sources n ↔
      m.sourceNames ≠ [] := by
  have hshown := (marks_sourceMask gen n).filter_eq_nil (by simpa using hlate) m.sourceNames
  have hearly : (gen.lists.take maxTrackedSources).filter (fun l => n ∈ l.2) = [] := by
    simpa [List.filter_eq_nil_iff] using hlate
  have hsome : ∃ l ∈ gen.lists.drop maxTrackedSources, n ∈ l.2 := by
    obtain ⟨l, hl, hn⟩ := (mem_listedNames_iff gen n).mp hlisted
    rw [← List.take_append_drop maxTrackedSources gen.lists, List.mem_append] at hl
    rcases hl with hl | hl
    · exact absurd hn (hlate l hl)
    · exact ⟨l, hl, hn⟩
  rw [sourcesFromMask_eq, Generation.sources, hshown, hearly, if_pos hsome,
    (sourceMask_eq_zero_iff gen n).mpr hlate]
  by_cases hnil : m.sourceNames = []
  · simp [hnil]
  · simp [hnil]

/-- A name on one of the first 64 lists: its answer has no marker, so no later list may have
it. -/
theorem sources_eq_iff_of_early (m : Manager)
    (hearly : ¬ ∀ l ∈ gen.lists.take maxTrackedSources, n ∉ l.2) :
    m.sourcesFromMask (sourceMask (downloadLists gen.urls gen.responses) n) = gen.sources n ↔
      (∀ l ∈ gen.lists.drop maxTrackedSources, n ∉ l.2) ∧
        ∀ (i : Nat) (l : GoString × List GoString),
          (gen.lists.take maxTrackedSources)[i]? = some l → n ∈ l.2 →
            m.sourceNames[i]? = some l.1 := by
  have hmarks := marks_sourceMask gen n
  have hmask : ¬ (sourceMask (downloadLists gen.urls gen.responses) n = 0 ∧
      m.sourceNames ≠ []) := by
    rw [sourceMask_eq_zero_iff]
    exact fun h => hearly h.1
  have heq := hmarks.map_eq_iff (g := fun l => l.1) m.sourceNames
  simp only [decide_eq_true_eq] at heq
  rw [sourcesFromMask_eq, Generation.sources, if_neg hmask, List.append_nil, ← heq]
  by_cases hlate : ∃ l ∈ gen.lists.drop maxTrackedSources, n ∈ l.2
  · -- the marker makes the right answer longer than any that is given
    rw [if_pos hlate]
    refine iff_of_false (fun h => ?_) (fun h => ?_)
    · have hlen := congrArg List.length h
      have hle := hmarks.length_le m.sourceNames
      simp only [List.length_map, List.length_append, List.length_singleton] at hlen
      omega
    · obtain ⟨l, hl, hn⟩ := hlate
      exact h.1 l hl hn
  · rw [if_neg hlate, List.append_nil]
    refine ⟨fun h => ⟨fun l hl hn => hlate ⟨l, hl, hn⟩, h⟩, fun h => h.2⟩

/-- The sources decoded from the mask of a listed name are the right ones just if the table
has them. -/
theorem sourcesFromMask_eq_sources_iff (m : Manager)
    (hlisted : n ∈ listedNames gen.urls gen.responses) :
    m.sourcesFromMask (sourceMask (downloadLists gen.urls gen.responses) n) = gen.sources n ↔
      Attributed gen m.sourceNames n := by
  unfold Attributed
  by_cases hlate : ∀ l ∈ gen.lists.take maxTrackedSources, n ∉ l.2
  · rw [sources_eq_iff_of_late gen n m hlisted hlate]
    refine ⟨fun h => Or.inr ⟨hlate, h⟩, ?_⟩
    rintro (hplaces | ⟨-, hne⟩)
    · obtain ⟨l, hl, hn⟩ := (mem_listedNames_iff gen n).mp hlisted
      obtain ⟨i, hi⟩ := List.mem_iff_getElem?.mp hl
      have hearly : (gen.lists.take maxTrackedSources)[i]? = some l := by
        rw [List.getElem?_take, if_pos (hplaces i l hi hn).1, hi]
      exact absurd hn (hlate l (List.mem_of_getElem? hearly))
    · exact hne
  · rw [sources_eq_iff_of_early gen n m hlate]
    constructor
    · rintro ⟨hdrop, hplaces⟩
      refine Or.inl fun i l hl hn => ?_
      by_cases hi : i < maxTrackedSources
      · refine ⟨hi, hplaces i l ?_ hn⟩
        rw [List.getElem?_take, if_pos hi, hl]
      · have hlater : (gen.lists.drop maxTrackedSources)[i - maxTrackedSources]? = some l := by
          rw [List.getElem?_drop, Nat.add_sub_cancel' (Nat.le_of_not_lt hi), hl]
        exact absurd hn (hdrop l (List.mem_of_getElem? hlater))
    · rintro (hplaces | ⟨hnone, -⟩)
      · constructor
        · intro l hl hn
          obtain ⟨j, hj⟩ := List.mem_iff_getElem?.mp hl
          rw [List.getElem?_drop] at hj
          have hlt := (hplaces _ l hj hn).1
          omega
        · intro i l hl hn
          rw [List.getElem?_take] at hl
          split at hl
          · exact (hplaces i l hl hn).2
          · cases hl
      · exact absurd hnone hlate

end

/-! ## The name that is matched -/

theorem mem_of_lookup_pack {entries : List (GoString × UInt64)} {d : GoString} {mask : UInt64}
    (h : (pack entries).lookup d = some mask) : ∃ e ∈ entries, e.2 = mask := by
  unfold FlatBlocklist.lookup at h
  rw [pack_eq] at h
  simp only at h
  split at h
  · cases h
  · split at h
    · exact List.mem_map.mp (List.mem_of_getElem? h)
    · cases h

theorem downloadAndMerge_eq_pack {gen : Generation} {flat : FlatBlocklist}
    (h : downloadAndMerge gen.urls gen.responses = some flat) :
    flat = {} ∨ ∃ entries, Merged (downloadLists gen.urls gen.responses) entries ∧
      flat = pack entries := by
  unfold downloadAndMerge at h
  split at h
  · cases h
    exact Or.inl rfl
  · obtain ⟨entries, hmerged, hbuild⟩ := buildFromSortedLists_eq_pack
      (downloadLists_ordered gen.urls gen.responses)
    rw [hbuild] at h
    cases h
    exact Or.inr ⟨entries, hmerged, rfl⟩

/-- The entry of a merge that a look-up stops at is the first with that visible part. -/
theorem first_of_find? {lists : List SortedList} {entries : List (GoString × UInt64)}
    (hmerged : Merged lists entries) {d : GoString} {e : GoString × UInt64}
    (hfind : entries.find? (fun e => visible e.1 == d) = some e) {n : GoString}
    (hn : n ∈ entries.map (·.1)) (hvisible : visible n = d) : e.1 ≤ n := by
  obtain ⟨-, before, after, hsplit, hbefore⟩ := List.find?_eq_some_iff_append.mp hfind
  have hsorted := hmerged.sorted
  rw [hsplit] at hn hsorted
  rw [List.map_append, List.map_cons] at hn hsorted
  rcases List.mem_append.mp hn with hn | hn
  · obtain ⟨e', he', rfl⟩ := List.mem_map.mp hn
    have hne := hbefore e' he'
    simp [hvisible] at hne
  · rcases List.mem_cons.mp hn with rfl | hn
    · exact List.le_refl _
    · have hafter := (List.pairwise_append.mp hsorted).2.1
      exact List.le_of_lt ((List.pairwise_cons.mp hafter).1 n hn)

/-- What a search of a generation's list finds is the mask of a listed name, and that of the
name the query meets if the list is not too long for its offsets. -/
theorem exists_matched {gen : Generation} {flat : FlatBlocklist}
    (hflat : downloadAndMerge gen.urls gen.responses = some flat) {fqdn : GoString}
    {mask : UInt64} {kind : Kind} (h : flat.lookupSubdomains fqdn = some (mask, kind)) :
    ∃ n, n ∈ listedNames gen.urls gen.responses ∧
      mask = sourceMask (downloadLists gen.urls gen.responses) n ∧
      (gen.Fits → IsMatched (listedNames gen.urls gen.responses) fqdn n) := by
  rcases downloadAndMerge_eq_pack hflat with rfl | ⟨entries, hmerged, rfl⟩
  · cases h
  · obtain ⟨p, hp, hlookup, -, hnearest⟩ := lookupSubdomains_eq_some h
    have hlisted : ∀ n, n ∈ listedNames gen.urls gen.responses ↔ n ∈ entries.map (·.1) := by
      intro n
      rw [hmerged.mem, listedNames, List.mem_flatMap]
    by_cases hfits : gen.Fits
    · have hsize : packedSize (entries.map (·.1)) < 2 ^ 32 :=
        Nat.lt_of_le_of_lt hmerged.size hfits
      rw [lookup_pack ((packedSize_dropLast_le _).trans_lt hsize) hmerged.sorted] at hlookup
      obtain ⟨e, hfind, rfl⟩ := Option.map_eq_some_iff.mp hlookup
      have he := List.mem_of_find?_eq_some hfind
      have hvisible : visible e.1 = p := by simpa using List.find?_some hfind
      have hmem := List.mem_map_of_mem (f := (·.1)) he
      refine ⟨e.1, (hlisted e.1).mpr hmem, hmerged.mask e he, fun _ => ⟨?_, ?_, ?_, ?_⟩⟩
      · exact (hlisted e.1).mpr hmem
      · rw [hvisible]
        exact hp
      · intro n' hn' hcovers
        rw [hvisible]
        refine hnearest _ hcovers ?_
        rw [lookup_isSome_merged hmerged hsize]
        exact ⟨n', hn', rfl⟩
      · intro n' hn' hsame
        exact first_of_find? hmerged hfind ((hlisted n').mp hn') (hsame.trans hvisible)
    · -- beyond the offsets the search may stop anywhere, but at an entry
      obtain ⟨e, he, rfl⟩ := mem_of_lookup_pack hlookup
      exact ⟨e.1, (hlisted e.1).mpr (List.mem_map_of_mem he), hmerged.mask e he,
        fun h => absurd h hfits⟩

/-! ## Runs -/

/-- Every list in use or about to be is the merge of its generation, and a match that has
found a name has found it in one. -/
structure Sourced (lower : Nat → Nat) (w : World) : Prop where
  current : downloadAndMerge w.generation.urls w.generation.responses = some w.manager.current
  merged : ∀ t gen flat, w.updates t = .merged gen flat →
    downloadAndMerge gen.urls gen.responses = some flat
  found : ∀ t query gen mask kind, w.matching t = .found query gen mask kind →
    ∃ flat, downloadAndMerge gen.urls gen.responses = some flat ∧
      flat.lookupSubdomains (queryName lower query) = some (mask, kind)

section

variable {lower : Nat → Nat} {w : World}

theorem sourced_start (urls : List GoString) (patterns : Option Pattern.Matcher) :
    Sourced lower (World.start urls patterns) where
  current := rfl
  merged _ _ _ h := by cases h
  found _ _ _ _ _ h := by cases h

/-- A step of a call of `Update` that has merged nothing. -/
theorem Sourced.setUpdate (h : Sourced lower w) (t : Nat) {phase : UpdatePhase}
    (hphase : ∀ gen flat, phase = .merged gen flat →
      downloadAndMerge gen.urls gen.responses = some flat) :
    Sourced lower (w.setUpdate t phase) where
  current := h.current
  merged t' gen flat hmerged := by
    by_cases heq : t' = t
    · rw [heq] at hmerged
      exact hphase gen flat (by simpa [World.setUpdate] using hmerged)
    · refine h.merged t' gen flat ?_
      simpa [World.setUpdate, heq] using hmerged
  found := h.found

theorem Sourced.setMatching (h : Sourced lower w) (t : Nat) {phase : MatchPhase}
    (hphase : ∀ query gen mask kind, phase = .found query gen mask kind →
      ∃ flat, downloadAndMerge gen.urls gen.responses = some flat ∧
        flat.lookupSubdomains (queryName lower query) = some (mask, kind)) :
    Sourced lower (w.setMatching t phase) where
  current := h.current
  merged := h.merged
  found t' query gen mask kind hfound := by
    by_cases heq : t' = t
    · rw [heq] at hfound
      exact hphase query gen mask kind (by simpa [World.setMatching] using hfound)
    · refine h.found t' query gen mask kind ?_
      simpa [World.setMatching, heq] using hfound

theorem Sourced.search (h : Sourced lower w) (t : Nat) (query : GoString) :
    Sourced lower (w.search lower t query) := by
  unfold World.search
  split
  · exact h.setMatching t (by simp)
  · split
    · rename_i mask kind hlookup
      refine h.setMatching t ?_
      rintro _ _ _ _ ⟨⟩
      exact ⟨w.manager.current, h.current, hlookup⟩
    · exact h.setMatching t (by simp)

theorem Sourced.step (h : Sourced lower w) (a : Action) : Sourced lower (w.step lower a) := by
  cases a with
  | updateConfig urls => exact ⟨h.current, h.merged, h.found⟩
  | begin t =>
    rw [World.step]
    split
    · split
      · exact h
      · exact h.setUpdate t (by simp)
    · exact h
  | tryLock t =>
    rw [World.step]
    split
    · split
      · exact h.setUpdate t (by simp)
      · have hset : Sourced lower (w.setUpdate t .holding) := h.setUpdate t (by simp)
        exact ⟨hset.current, hset.merged, hset.found⟩
    · exact h
  | readURLs t | readNames t =>
    rw [World.step]
    split
    · exact h.setUpdate t (by simp)
    · exact h
  | download t responses =>
    rw [World.step]
    split
    · split
      · rename_i flat hflat
        refine h.setUpdate t ?_
        rintro _ _ ⟨⟩
        exact hflat
      · exact h
    · exact h
  | publish t =>
    rw [World.step]
    split
    · rename_i gen flat hphase
      have hset : Sourced lower (w.setUpdate t .published) := h.setUpdate t (by simp)
      exact ⟨h.merged t gen flat hphase, hset.merged, hset.found⟩
    · exact h
  | storeNames t =>
    rw [World.step]
    split
    · have hset : Sourced lower (w.setUpdate t .named) := h.setUpdate t (by simp)
      exact ⟨hset.current, hset.merged, hset.found⟩
    · exact h
  | finish t =>
    rw [World.step]
    split
    · have hset : Sourced lower (w.setUpdate t .idle) := h.setUpdate t (by simp)
      exact ⟨hset.current, hset.merged, hset.found⟩
    · exact h
  | search t query =>
    rw [World.step]
    split
    · exact h
    · exact h.search t query
  | answer t =>
    rw [World.step]
    split
    · exact h.setMatching t (by simp)
    · exact h

end

/-- A match that has found a listed name, in any run, answers with the sources of its
generation just if the table it reads has them. -/
theorem match_sources_iff (lower : Nat → Nat) (urls : List GoString)
    (patterns : Option Pattern.Matcher) (actions : List Action) (t : Nat) (query : GoString)
    (gen : Generation) (mask : UInt64) (kind : Kind)
    (hfound : (exec (World.step lower) (World.start urls patterns) actions).matching t =
      .found query gen mask kind) :
    ∃ n ∈ listedNames gen.urls gen.responses,
      (gen.Fits → IsMatched (listedNames gen.urls gen.responses) (queryName lower query) n) ∧
      ∃ result,
        (exec (World.step lower) (World.start urls patterns)
          (actions ++ [Action.answer t])).matching t =
          .answered query gen
            (exec (World.step lower) (World.start urls patterns) actions).manager.sourceNames
            result ∧
        (result.sources = gen.sources n ↔ Attributed gen
          (exec (World.step lower) (World.start urls patterns) actions).manager.sourceNames n) := by
  have hstep : ∀ w a, True → Sourced lower w → Sourced lower (w.step lower a) :=
    fun w a _ hw => hw.step a
  have hsourced := invariant_exec hstep
    (allSteps_of_forall (fun _ _ => trivial) (World.start urls patterns) actions)
    (sourced_start urls patterns)
  rw [exec_append]
  generalize exec (World.step lower) (World.start urls patterns) actions = w at hfound hsourced ⊢
  obtain ⟨flat, hflat, hlookup⟩ := hsourced.found t query gen mask kind hfound
  obtain ⟨n, hlisted, hmask, hmatched⟩ := exists_matched hflat hlookup
  refine ⟨n, hlisted, hmatched, w.manager.listResult mask kind, ?_, ?_⟩
  · change (w.step lower (.answer t)).matching t = _
    simp only [World.step, hfound, World.setMatching, Function.update_self]
  · rw [hmask]
    exact sourcesFromMask_eq_sources_iff gen n w.manager hlisted

def askedSteps : List Action :=
  updateSteps 0 [some (lit "a.com")] ++ [Action.search 0 (lit "www.a.com")]

/-- The answer names the list. -/
theorem match_names_its_list :
    ∃ n ∈ listedNames [lit "one"] [some (lit "a.com")],
      (Generation.Fits ⟨[lit "one"], [some (lit "a.com")]⟩ →
        IsMatched (listedNames [lit "one"] [some (lit "a.com")])
          (queryName id (lit "www.a.com")) n) ∧
      ∃ result,
        (exec (World.step id) (World.start [lit "one"] none)
          (askedSteps ++ [Action.answer 0])).matching
            0 =
          .answered (lit "www.a.com") ⟨[lit "one"], [some (lit "a.com")]⟩ [lit "one"] result ∧
        (result.sources = Generation.sources ⟨[lit "one"], [some (lit "a.com")]⟩ n ↔
          Attributed ⟨[lit "one"], [some (lit "a.com")]⟩ [lit "one"] n) := by
  have hfound : (exec (World.step id) (World.start [lit "one"] none) askedSteps).matching 0 =
      .found (lit "www.a.com") ⟨[lit "one"], [some (lit "a.com")]⟩ 1 .subdomain := by
    decide +kernel
  have htable : (exec (World.step id) (World.start [lit "one"] none)
      askedSteps).manager.sourceNames = [lit "one"] := by
    decide +kernel
  have hiff := match_sources_iff id [lit "one"] none askedSteps 0 (lit "www.a.com")
    ⟨[lit "one"], [some (lit "a.com")]⟩ 1 .subdomain hfound
  rw [htable] at hiff
  exact hiff

def answerSources (w : World) (t : Nat) (n : GoString) :
    Option (List GoString × List GoString) :=
  match w.matching t with
  | .answered _ gen _ result => some (result.sources, gen.sources n)
  | _ => none

def manySources : List GoString := lit "first" :: List.replicate 63 (lit "more") ++ [lit "last"]

def manyResponses : List Response :=
  some (lit "a.com") :: List.replicate 63 none ++ [some (lit "a.com")]

/-- A match between the publication of the list and that of the table names no source; and a
name on the first and on the 65th list gets no marker. -/
theorem match_misses_sources :
    answerSources (exec (World.step id) (World.start [lit "one"] none)
        ((updateSteps 0 [some (lit "a.com")]).take 5 ++
          [Action.search 0 (lit "a.com"), .answer 0])) 0
        (lit "a.com.") = some ([], [lit "one"]) ∧
      answerSources (exec (World.step id) (World.start manySources none)
        (updateSteps 0 manyResponses ++ [Action.search 0 (lit "a.com"), .answer 0])) 0
        (lit "a.com.") = some ([lit "first"], [lit "first", lit "additional sources"]) := by
  decide +kernel

end GloryHole.Blocklist
