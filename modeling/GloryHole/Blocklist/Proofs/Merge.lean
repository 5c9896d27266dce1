import GloryHole.Blocklist.Proofs.Packed

/-!
# The k-way merge

One round of the merge takes the least name under a cursor off every list that
has it there.  A round therefore turns the lists into shorter sorted lists, and by
induction on the rounds the names come out in strictly increasing order, each once
and with the masks of the lists it is in.
-/

namespace GloryHole.Blocklist

open Go FlatBlocklist

def sourceMask (lists : List SortedList) (d : GoString) : UInt64 :=
  ((lists.filter fun l => d ∈ l.domains).map (·.mask)).foldl (· ||| ·) 0

/-- The list is sorted without duplicates, and `""` (the merge's mark for exhausted
lists) is not on it. -/
structure SortedList.Ordered (l : SortedList) : Prop where
  sorted : l.domains.Pairwise (· < ·)
  nonempty : ∀ d ∈ l.domains, d ≠ []

def remaining (lists : List SortedList) (cursors : List Nat) : List SortedList :=
  (lists.zip cursors).map fun lc => { lc.1 with domains := lc.1.domains.drop lc.2 }

def SortedList.dropHead (name : GoString) (l : SortedList) : SortedList :=
  if l.domains.head? = some name then { l with domains := l.domains.tail } else l

structure Merged (lists : List SortedList) (entries : List (GoString × UInt64)) : Prop where
  sorted : (entries.map (·.1)).Pairwise (· < ·)
  mem : ∀ d, d ∈ entries.map (·.1) ↔ ∃ l ∈ lists, d ∈ l.domains
  mask : ∀ e ∈ entries, e.2 = sourceMask lists e.1
  size : packedSize (entries.map (·.1)) ≤ (lists.map fun l => packedSize l.domains).sum

/-! ## One round -/

section Round

variable {lists : List SortedList} {cursors : List Nat} {name : GoString}

theorem head?_drop_eq (l : SortedList) (c : Nat) : (l.domains.drop c).head? = l.head c :=
  List.head?_drop

theorem minDomain_eq :
    minDomain lists cursors =
      (remaining lists cursors).foldl (fun best l => lesser best l.domains.head?) [] := by
  simp only [minDomain, remaining, List.foldl_map, head?_drop_eq]

theorem mergeMask_eq :
    mergeMask name lists cursors =
      (remaining lists cursors).foldl (fun mask l =>
        if l.domains.head? = some name then mask ||| l.mask else mask) 0 := by
  simp only [mergeMask, remaining, List.foldl_map, head?_drop_eq]

theorem remaining_advance :
    remaining lists (advanceCursors name lists cursors) =
      (remaining lists cursors).map (SortedList.dropHead name) := by
  induction lists generalizing cursors with
  | nil => rfl
  | cons l lists ih =>
    cases cursors with
    | nil => rfl
    | cons c cursors =>
      have ih := @ih cursors
      simp only [remaining, advanceCursors, List.zipWith_cons_cons, List.zip_cons_cons,
        List.map_cons] at ih ⊢
      rw [ih]
      congr 1
      simp only [SortedList.dropHead, head?_drop_eq]
      split <;> simp [List.tail_drop]

/-- The new best is never empty and at most both the old one and `d`. -/
theorem lesser_some (best : GoString) {d : GoString} (hd : d ≠ []) :
    lesser best (some d) ≠ [] ∧ lesser best (some d) ≤ d ∧
      (best ≠ [] → lesser best (some d) ≤ best) ∧
      (lesser best (some d) = d ∨ lesser best (some d) = best) := by
  by_cases hc : best = [] ∨ d < best
  · simp only [lesser, if_pos hc]
    refine ⟨hd, List.le_refl _, fun hb => ?_, Or.inl trivial⟩
    exact List.le_of_lt (hc.resolve_left hb)
  · simp only [lesser, if_neg hc]
    obtain ⟨hb, hlt⟩ := not_or.mp hc
    exact ⟨hb, List.not_lt.mp hlt, fun _ => List.le_refl _, Or.inr trivial⟩

/-- The scan for the least name, started from `best`. -/
theorem minScan_spec (hne : ∀ l ∈ lists, l.Ordered) (best : GoString) :
    let least := lists.foldl (fun best l => lesser best l.domains.head?) best
    (least = best ∨ ∃ l ∈ lists, l.domains.head? = some least) ∧
      (best ≠ [] → least ≠ [] ∧ least ≤ best) ∧
      ∀ l ∈ lists, ∀ d, l.domains.head? = some d → least ≠ [] ∧ least ≤ d := by
  induction lists generalizing best with
  | nil => simp
  | cons l lists ih =>
    have hrest : ∀ l ∈ lists, l.Ordered := fun l hl => hne l (List.mem_cons_of_mem _ hl)
    simp only [List.foldl_cons]
    cases hhead : l.domains.head? with
    | none =>
      obtain ⟨hfrom, hbest, hall⟩ := ih hrest best
      refine ⟨?_, hbest, ?_⟩
      · exact hfrom.imp id fun ⟨l', hl', h⟩ => ⟨l', List.mem_cons_of_mem _ hl', h⟩
      · intro l' hl' d hd
        rcases List.mem_cons.mp hl' with rfl | hl'
        · simp [hhead] at hd
        · exact hall l' hl' d hd
    | some d =>
      have hd : d ≠ [] :=
        (hne l List.mem_cons_self).nonempty d (List.mem_of_head? hhead)
      obtain ⟨hn, hnd, hnb, hcase⟩ := lesser_some best hd
      generalize lesser best (some d) = next at hn hnd hnb hcase ⊢
      obtain ⟨hfrom, hbest, hall⟩ := ih hrest next
      obtain ⟨hleast, hle⟩ := hbest hn
      refine ⟨?_, fun hb => ⟨hleast, List.le_trans hle (hnb hb)⟩, ?_⟩
      · rcases hfrom with hfrom | ⟨l', hl', h⟩
        · rcases hcase with rfl | rfl
          · exact Or.inr ⟨l, List.mem_cons_self, by rw [hfrom]; exact hhead⟩
          · exact Or.inl hfrom
        · exact Or.inr ⟨l', List.mem_cons_of_mem _ hl', h⟩
      · intro l' hl' d' hd'
        rcases List.mem_cons.mp hl' with rfl | hl'
        · obtain rfl : d = d' := by simpa [hhead] using hd'
          exact ⟨hleast, List.le_trans hle hnd⟩
        · exact hall l' hl' d' hd'

/-- The name a round picks is under some cursor and at most every name under one; it
is `""` only when all lists are exhausted. -/
theorem minDomain_spec (hord : ∀ l ∈ remaining lists cursors, l.Ordered) :
    (minDomain lists cursors = [] →
        ∀ l ∈ remaining lists cursors, l.domains = []) ∧
      (minDomain lists cursors ≠ [] →
        (∃ l ∈ remaining lists cursors, l.domains.head? = some (minDomain lists cursors)) ∧
          ∀ l ∈ remaining lists cursors, ∀ d, l.domains.head? = some d →
            minDomain lists cursors ≤ d) := by
  obtain ⟨hfrom, -, hall⟩ := minScan_spec hord []
  rw [← minDomain_eq] at hfrom hall
  constructor
  · intro hempty l hl
    cases hdom : l.domains with
    | nil => rfl
    | cons d ds => exact absurd hempty (hall l hl d (by simp [hdom])).1
  · intro hne
    exact ⟨hfrom.resolve_left hne, fun l hl d hd => (hall l hl d hd).2⟩

/-! ## A list at the least name -/

variable {l : SortedList} {d : GoString}

theorem SortedList.Ordered.dropHead (hord : l.Ordered) (name : GoString) :
    (l.dropHead name).Ordered := by
  unfold SortedList.dropHead
  split
  · exact ⟨hord.sorted.tail, fun d hd => hord.nonempty d (List.mem_of_mem_tail hd)⟩
  · exact hord

/-- In a sorted list whose first name is at least `name`, only the first can be it and
all others are above. -/
theorem mem_at_least (hord : l.Ordered)
    (hmin : ∀ h, l.domains.head? = some h → name ≤ h) :
    (name ∈ l.domains ↔ l.domains.head? = some name) ∧
      (d ∈ (l.dropHead name).domains ↔ d ∈ l.domains ∧ name < d) := by
  obtain ⟨domains, mask⟩ := l
  cases domains with
  | nil => simp [SortedList.dropHead]
  | cons h rest =>
    have hle : name ≤ h := hmin h rfl
    obtain ⟨hfirst, -⟩ := List.pairwise_cons.mp hord.sorted
    have habove : ∀ d ∈ rest, name < d := fun d hd => Std.lt_of_le_of_lt hle (hfirst d hd)
    by_cases heq : h = name
    · subst heq
      simp only [SortedList.dropHead, List.head?_cons, if_true, List.tail_cons,
        List.mem_cons, true_or, true_and]
      constructor
      · exact fun hd => ⟨Or.inr hd, habove d hd⟩
      · rintro ⟨rfl | hd, hlt⟩
        · exact absurd hlt (List.lt_irrefl _)
        · exact hd
    · have hlt : name < h := Std.lt_of_le_of_ne hle (Ne.symm heq)
      simp only [SortedList.dropHead, List.head?_cons, Option.some.injEq, heq, if_false,
        List.mem_cons]
      constructor
      · constructor
        · rintro (rfl | hmem)
          · exact absurd rfl heq
          · exact absurd (habove name hmem) (List.lt_irrefl _)
        · exact False.elim
      · constructor
        · rintro (rfl | hmem)
          · exact ⟨Or.inl rfl, hlt⟩
          · exact ⟨Or.inr hmem, habove d hmem⟩
        · exact And.left

/-- Any weight of the names: a round takes off at least the weight of its name. -/
theorem weight_dropHead (w : GoString → Nat) :
    (lists.map fun l => ((l.dropHead name).domains.map w).sum).sum ≤
        (lists.map fun l => (l.domains.map w).sum).sum ∧
      ((∃ l ∈ lists, l.domains.head? = some name) →
        (lists.map fun l => ((l.dropHead name).domains.map w).sum).sum + w name ≤
          (lists.map fun l => (l.domains.map w).sum).sum) := by
  induction lists with
  | nil => simp
  | cons l lists ih =>
    obtain ⟨hle, hdrop⟩ := ih
    have hhead : l.domains.head? = some name →
        ((l.dropHead name).domains.map w).sum + w name = (l.domains.map w).sum := by
      intro h
      obtain ⟨tail, htail⟩ : ∃ tail, l.domains = name :: tail :=
        ⟨l.domains.tail, (List.cons_head?_tail h).symm⟩
      simp [SortedList.dropHead, htail, Nat.add_comm]
    have hother : l.domains.head? ≠ some name → l.dropHead name = l := fun h => if_neg h
    simp only [List.map_cons, List.sum_cons]
    by_cases h : l.domains.head? = some name
    · have := hhead h
      exact ⟨by omega, fun _ => by omega⟩
    · rw [hother h]
      refine ⟨by omega, ?_⟩
      rintro ⟨l', hl', h'⟩
      rcases List.mem_cons.mp hl' with rfl | hl'
      · exact absurd h' h
      · have := hdrop ⟨l', hl', h'⟩
        omega

end Round

/-! ## All rounds -/

theorem sourceMask_eq_foldl (lists : List SortedList) (d : GoString) :
    sourceMask lists d =
      lists.foldl (fun mask l => if d ∈ l.domains then mask ||| l.mask else mask) 0 := by
  rw [sourceMask, List.foldl_map, List.foldl_filter]
  simp

theorem foldl_mask_congr {lists : List SortedList} {p q : SortedList → Prop}
    [DecidablePred p] [DecidablePred q] (h : ∀ l ∈ lists, p l ↔ q l) (start : UInt64) :
    lists.foldl (fun mask l => if p l then mask ||| l.mask else mask) start =
      lists.foldl (fun mask l => if q l then mask ||| l.mask else mask) start := by
  refine List.foldl_ext _ _ _ ?_
  intro mask l hl
  simp only [h l hl]

/-- One round in front of a merge of what it leaves. -/
theorem Merged.cons {lists : List SortedList} {name : GoString}
    {entries : List (GoString × UInt64)} {mask : UInt64}
    (hord : ∀ l ∈ lists, l.Ordered)
    (hmin : ∀ l ∈ lists, ∀ h, l.domains.head? = some h → name ≤ h)
    (hsome : ∃ l ∈ lists, l.domains.head? = some name)
    (hmask : mask = lists.foldl (fun mask l =>
      if l.domains.head? = some name then mask ||| l.mask else mask) 0)
    (hrest : Merged (lists.map (SortedList.dropHead name)) entries) :
    Merged lists ((name, mask) :: entries) := by
  have hleast : ∀ l ∈ lists, ∀ d, (name ∈ l.domains ↔ l.domains.head? = some name) ∧
      (d ∈ (l.dropHead name).domains ↔ d ∈ l.domains ∧ name < d) :=
    fun l hl d => mem_at_least (hord l hl) (hmin l hl)
  have hmem : ∀ d, d ∈ entries.map (·.1) ↔ ∃ l ∈ lists, d ∈ l.domains ∧ name < d := by
    intro d
    rw [hrest.mem]
    simp only [List.mem_map, exists_exists_and_eq_and]
    exact exists_congr fun l => and_congr_right fun hl => (hleast l hl d).2
  refine ⟨?_, ?_, ?_, ?_⟩
  · refine List.pairwise_cons.mpr ⟨?_, hrest.sorted⟩
    intro d hd
    obtain ⟨l, -, -, hlt⟩ := (hmem d).mp hd
    exact hlt
  · intro d
    rw [List.map_cons, List.mem_cons, hmem]
    constructor
    · rintro (rfl | ⟨l, hl, hd, -⟩)
      · obtain ⟨l, hl, hhead⟩ := hsome
        exact ⟨l, hl, List.mem_of_head? hhead⟩
      · exact ⟨l, hl, hd⟩
    · rintro ⟨l, hl, hd⟩
      by_cases heq : d = name
      · exact Or.inl heq
      · refine Or.inr ⟨l, hl, hd, ?_⟩
        -- the first name of `l` is between `name` and `d`
        obtain ⟨h, hhead⟩ : ∃ h, l.domains.head? = some h := by
          cases hdom : l.domains with
          | nil => simp [hdom] at hd
          | cons h rest => exact ⟨h, rfl⟩
        have hle := hmin l hl h hhead
        have htail : h = d ∨ h < d := by
          have hsorted := (hord l hl).sorted
          rw [(List.cons_head?_tail hhead).symm] at hsorted hd
          rcases List.mem_cons.mp hd with rfl | hd
          · exact Or.inl rfl
          · exact Or.inr ((List.pairwise_cons.mp hsorted).1 d hd)
        rcases htail with rfl | hlt
        · exact Std.lt_of_le_of_ne hle (Ne.symm heq)
        · exact Std.lt_of_le_of_lt hle hlt
  · intro e he
    rcases List.mem_cons.mp he with rfl | he
    · rw [sourceMask_eq_foldl, hmask]
      exact foldl_mask_congr (fun l hl => ((hleast l hl name).1).symm) 0
    · obtain ⟨l, -, -, hlt⟩ := (hmem e.1).mp (List.mem_map_of_mem he)
      rw [hrest.mask e he, sourceMask_eq_foldl, sourceMask_eq_foldl, List.foldl_map]
      have hsame : ∀ l : SortedList, (l.dropHead name).mask = l.mask := by
        intro l
        unfold SortedList.dropHead
        split <;> rfl
      simp only [hsame]
      refine foldl_mask_congr ?_ 0
      intro l hl
      rw [(hleast l hl e.1).2]
      exact and_iff_left hlt
  · have hdrop := (weight_dropHead fun d => d.length + 1).2 hsome
    have hsize := hrest.size
    simp only [packedSize, List.map_map, Function.comp_def, List.map_cons,
      List.sum_cons] at hsize hdrop ⊢
    omega

theorem totalDomains_eq (lists : List SortedList) :
    totalDomains lists = (lists.map fun l => (l.domains.map fun _ => 1).sum).sum := by
  simp [totalDomains]

/-- With more rounds than names left the loop ends, and what it appends is the merge
of what the lists still hold. -/
theorem mergeLoop_spec (lists : List SortedList) (fuel : Nat) :
    ∀ cursors out, (∀ l ∈ remaining lists cursors, l.Ordered) →
      totalDomains (remaining lists cursors) < fuel →
      ∃ entries, Merged (remaining lists cursors) entries ∧
        mergeLoop lists fuel cursors out =
          some (entries.foldl (fun f e => f.appendEntry e.1 e.2) out) := by
  induction fuel with
  | zero =>
    intro cursors out hord hfuel
    omega
  | succ fuel ih =>
    intro cursors out hord hfuel
    obtain ⟨hexhausted, hround⟩ := minDomain_spec hord
    by_cases hname : minDomain lists cursors = []
    · have hempty := hexhausted hname
      refine ⟨[], ⟨List.Pairwise.nil, ?_, ?_, ?_⟩, ?_⟩
      · intro d
        simp only [List.map_nil, List.not_mem_nil, false_iff]
        rintro ⟨l, hl, hd⟩
        simp [hempty l hl] at hd
      · simp
      · simp [packedSize]
      · simp [mergeLoop, hname]
    · obtain ⟨hsome, hmin⟩ := hround hname
      have hdrop := (weight_dropHead fun _ => 1).2 hsome
      have hless : totalDomains
          (remaining lists (advanceCursors (minDomain lists cursors) lists cursors)) <
            fuel := by
        rw [remaining_advance]
        rw [totalDomains_eq] at hfuel ⊢
        simp only [List.map_map, Function.comp_def] at hfuel hdrop ⊢
        omega
      obtain ⟨entries, hmerged, hloop⟩ := ih
        (advanceCursors (minDomain lists cursors) lists cursors)
        (out.appendEntry (minDomain lists cursors)
          (mergeMask (minDomain lists cursors) lists cursors)) (by
            rw [remaining_advance]
            intro l hl
            obtain ⟨l', hl', rfl⟩ := List.mem_map.mp hl
            exact (hord l' hl').dropHead _) hless
      rw [remaining_advance] at hmerged
      refine ⟨_ :: entries, Merged.cons hord hmin hsome mergeMask_eq hmerged, ?_⟩
      simp only [mergeLoop, hname, if_false, hloop, List.foldl_cons]

theorem remaining_zero (lists : List SortedList) :
    remaining lists (lists.map fun _ => 0) = lists := by
  induction lists with
  | nil => rfl
  | cons l lists ih =>
    simp only [remaining, List.map_cons, List.zip_cons_cons, List.drop_zero] at ih ⊢
    rw [ih]

/-- The merge of sorted lists terminates, and its result is the packing of their merge. -/
theorem buildFromSortedLists_eq_pack {lists : List SortedList}
    (hord : ∀ l ∈ lists, l.Ordered) :
    ∃ entries, Merged lists entries ∧ buildFromSortedLists lists = some (pack entries) := by
  have hall : ∀ l ∈ remaining lists (lists.map fun _ => 0), l.Ordered := by
    rw [remaining_zero]
    exact hord
  obtain ⟨entries, hmerged, hloop⟩ := mergeLoop_spec lists (totalDomains lists + 1)
    (lists.map fun _ => 0) {} hall (by rw [remaining_zero]; omega)
  rw [remaining_zero] at hmerged
  refine ⟨entries, hmerged, ?_⟩
  unfold buildFromSortedLists
  split
  · -- without names there is nothing to merge
    rename_i hzero
    have hnil : entries = [] := by
      refine List.eq_nil_iff_forall_not_mem.mpr ?_
      intro e he
      obtain ⟨l, hl, hd⟩ := (hmerged.mem e.1).mp (List.mem_map_of_mem he)
      have hlen : l.domains.length = 0 := by
        refine List.sum_eq_zero_iff_forall_eq_nat.mp hzero _ ?_
        exact List.mem_map_of_mem hl
      simp [List.length_eq_zero_iff.mp hlen] at hd
    rw [hnil]
    rfl
  · exact hloop

/-! ## The finished structure -/

section Finished

variable {lists : List SortedList} {entries : List (GoString × UInt64)}

/-- The map that has the names of the lists as keys, with their masks, packs to the
same bytes. -/
theorem buildFlatBlocklist_eq_pack (hmerged : Merged lists entries)
    {m : List (GoString × UInt64)} (hkeys : (m.map (·.1)).Nodup)
    (hmap : ∀ d, m.lookup d =
      if ∃ l ∈ lists, d ∈ l.domains then some (sourceMask lists d) else none) :
    buildFlatBlocklist m = pack entries := by
  have hmem : ∀ d, d ∈ m.map (·.1) ↔ ∃ l ∈ lists, d ∈ l.domains := by
    intro d
    have hsome : d ∈ m.map (·.1) ↔ (m.lookup d).isSome := by
      rw [List.lookup_isSome_iff, List.mem_map]
      simp only [beq_iff_eq, eq_comm (a := d)]
    rw [hsome, hmap d]
    split <;> simp_all
  have hsort : sortStrings (m.map (·.1)) = entries.map (·.1) := by
    refine eq_of_strictly_sorted (sortStrings_strict hkeys) hmerged.sorted ?_
    intro d
    rw [(sortStrings_perm _).mem_iff, hmem, hmerged.mem]
  rw [buildFlatBlocklist, hsort, List.foldl_map, pack]
  refine List.foldl_ext _ _ _ ?_
  intro f e he
  have hin : ∃ l ∈ lists, e.1 ∈ l.domains :=
    (hmerged.mem e.1).mp (List.mem_map_of_mem he)
  rw [hmap, if_pos hin, Option.getD_some, hmerged.mask e he]

/-- Names without NUL bytes are found exactly as they were listed. -/
theorem lookup_merged (hmerged : Merged lists entries)
    (hnul : ∀ l ∈ lists, ∀ d ∈ l.domains, (0 : UInt8) ∉ d)
    (hsize : packedSize (entries.map (·.1)).dropLast < 2 ^ 32) (d : GoString) :
    (pack entries).lookup d =
      if ∃ l ∈ lists, d ∈ l.domains then some (sourceMask lists d) else none := by
  have hvisible : ∀ e ∈ entries, visible e.1 = e.1 := by
    intro e he
    obtain ⟨l, hl, hd⟩ := (hmerged.mem e.1).mp (List.mem_map_of_mem he)
    exact visible_eq_self (hnul l hl e.1 hd)
  rw [lookup_pack hsize hmerged.sorted]
  cases hfind : entries.find? fun e => visible e.1 == d with
  | some e =>
    have he := List.mem_of_find?_eq_some hfind
    have heq : e.1 = d := by
      rw [← hvisible e he]
      simpa using List.find?_some hfind
    subst heq
    rw [if_pos ((hmerged.mem e.1).mp (List.mem_map_of_mem he)), ← hmerged.mask e he]
    rfl
  | none =>
    rw [if_neg ?_]
    · rfl
    · rw [← hmerged.mem]
      intro hd
      obtain ⟨e, he, rfl⟩ := List.mem_map.mp hd
      have := List.find?_eq_none.mp hfind e he
      simp [hvisible e he] at this

/-- The names read back from the packed bytes. -/
theorem names_pack (hmerged : Merged lists entries)
    (hnul : ∀ l ∈ lists, ∀ d ∈ l.domains, (0 : UInt8) ∉ d)
    (hsize : packedSize (entries.map (·.1)) < 2 ^ 32) :
    (List.range (pack entries).len).map (pack entries).domainAt = entries.map (·.1) := by
  have hlen : (pack entries).len = entries.length := by
    rw [pack_eq]
    simp [FlatBlocklist.len, length_offsets]
  refine List.ext_getElem (by simp [hlen]) ?_
  intro i hi hi'
  have hi'' : i < entries.length := by simpa using hi'
  rw [List.getElem_map, List.getElem_map, List.getElem_range, domainAt_pack hsize hi'']
  obtain ⟨l, hl, hd⟩ := (hmerged.mem entries[i].1).mp
    (List.mem_map_of_mem (List.getElem_mem hi''))
  exact visible_eq_self (hnul l hl _ hd)

end Finished

/-- The merge of sorted lists of non-empty NUL-free names terminates; the structure it
gives finds exactly the listed names, each with the masks of the lists it is on, stores
the names in strictly increasing order, and answers as the structure built from the
equivalent map. -/
theorem buildFromSortedLists_correct (lists : List SortedList)
    (hsorted : ∀ l ∈ lists, l.domains.Pairwise (· < ·))
    (hnames : ∀ l ∈ lists, ∀ d ∈ l.domains, d ≠ [] ∧ (0 : UInt8) ∉ d)
    (hsize : (lists.map fun l => packedSize l.domains).sum < 2 ^ 32) :
    ∃ f, buildFromSortedLists lists = some f ∧
      (∀ d, f.lookup d =
        if ∃ l ∈ lists, d ∈ l.domains then some (sourceMask lists d) else none) ∧
      ((List.range f.len).map f.domainAt).Pairwise (· < ·) ∧
      ∀ m : List (GoString × UInt64), (m.map (·.1)).Nodup →
        (∀ d, m.lookup d =
          if ∃ l ∈ lists, d ∈ l.domains then some (sourceMask lists d) else none) →
        ∀ d, (buildFlatBlocklist m).lookup d = f.lookup d := by
  have hord : ∀ l ∈ lists, l.Ordered :=
    fun l hl => ⟨hsorted l hl, fun d hd => (hnames l hl d hd).1⟩
  have hnul : ∀ l ∈ lists, ∀ d ∈ l.domains, (0 : UInt8) ∉ d :=
    fun l hl d hd => (hnames l hl d hd).2
  obtain ⟨entries, hmerged, hbuild⟩ := buildFromSortedLists_eq_pack hord
  have hfits : packedSize (entries.map (·.1)) < 2 ^ 32 :=
    Nat.lt_of_le_of_lt hmerged.size hsize
  refine ⟨pack entries, hbuild,
    lookup_merged hmerged hnul ((packedSize_dropLast_le _).trans_lt hfits), ?_, ?_⟩
  · rw [names_pack hmerged hnul hfits]
    exact hmerged.sorted
  · intro m hkeys hmap d
    rw [buildFlatBlocklist_eq_pack hmerged hkeys hmap]

theorem buildFromSortedLists_correct_shared :
    ∃ f, buildFromSortedLists
        [⟨[lit "a.com.", lit "b.com."], 1⟩, ⟨[lit "b.com."], 2⟩] = some f ∧
      f.lookup (lit "b.com.") = some 3 ∧ f.lookup (lit "com.") = none := by
  obtain ⟨f, hbuild, hlookup, -, -⟩ := buildFromSortedLists_correct
    [⟨[lit "a.com.", lit "b.com."], 1⟩, ⟨[lit "b.com."], 2⟩]
    (by decide) (by decide) (by decide)
  refine ⟨f, hbuild, ?_, ?_⟩
  · rw [hlookup]
    decide
  · rw [hlookup]
    decide

end GloryHole.Blocklist
