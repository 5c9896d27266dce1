import GloryHole.Blocklist.Proofs.Blocking

/-!
# The longest listed name

`LookupSubdomains` answers for the longest listed name at or above the query if every packed name
starts below 4 GiB.  Past that the offsets, which are 32 bits wide, start again at 0.
-/

namespace GloryHole.Blocklist

open Go FlatBlocklist

/-- The list is what one of the two builders makes of the names that have a mask. -/
inductive BuiltFrom : (GoString → Option UInt64) → FlatBlocklist → Prop where
  | merge (lists : List SortedList) (f : FlatBlocklist) (hord : ∀ l ∈ lists, l.Ordered)
      (hbuild : buildFromSortedLists lists = some f) :
      BuiltFrom (fun d =>
        if ∃ l ∈ lists, d ∈ l.domains then some (sourceMask lists d) else none) f
  | map (m : List (GoString × UInt64)) (hkeys : (m.map (·.1)).Nodup) :
      BuiltFrom (fun d => m.lookup d) (buildFlatBlocklist m)

variable {masks : GoString → Option UInt64} {f : FlatBlocklist}

/-- The names in their order are packed one after the other, and the last one starts below
4 GiB. -/
def StartsFit (masks : GoString → Option UInt64) : Prop :=
  ∀ names : List GoString, names.Pairwise (· < ·) → (∀ d, d ∈ names ↔ (masks d).isSome) →
    packedSize names.dropLast < 2 ^ 32

theorem buildFlatBlocklist_eq_pack_sorted (m : List (GoString × UInt64)) :
    buildFlatBlocklist m =
      pack ((sortStrings (m.map (·.1))).map fun k => (k, (m.lookup k).getD 0)) := by
  rw [buildFlatBlocklist, pack, List.foldl_map]

theorem lookup_isSome_iff_mem {m : List (GoString × UInt64)} {k : GoString} :
    (m.lookup k).isSome ↔ k ∈ m.map (·.1) := by
  rw [List.lookup_isSome_iff, List.mem_map]
  exact exists_congr fun e => and_congr_right fun _ => beq_iff_eq.trans eq_comm

theorem lookup_buildFlatBlocklist {m : List (GoString × UInt64)} (hkeys : (m.map (·.1)).Nodup)
    (hnul : ∀ k ∈ m.map (·.1), (0 : UInt8) ∉ k)
    (hstarts : StartsFit fun d => m.lookup d) (d : GoString) :
    (buildFlatBlocklist m).lookup d = m.lookup d := by
  have hmem (k : GoString) : k ∈ sortStrings (m.map (·.1)) ↔ k ∈ m.map (·.1) :=
    (sortStrings_perm _).mem_iff
  rw [buildFlatBlocklist_eq_pack_sorted]
  have hnames : ((sortStrings (m.map (·.1))).map fun k => (k, (m.lookup k).getD 0)).map (·.1) =
      sortStrings (m.map (·.1)) := by
    rw [List.map_map]
    exact List.map_id _
  have hstrict := sortStrings_strict hkeys
  have hsize := hstarts _ hstrict fun k => (hmem k).trans lookup_isSome_iff_mem.symm
  rw [← hnames] at hstrict hsize
  rw [lookup_pack hsize hstrict, List.find?_map]
  cases hfind : (sortStrings (m.map (·.1))).find? _ with
  | some k =>
    have hk := (hmem k).mp (List.mem_of_find?_eq_some hfind)
    have hvisible : visible k = d := by simpa using List.find?_some hfind
    rw [visible_eq_self (hnul k hk)] at hvisible
    subst hvisible
    obtain ⟨mask, hmask⟩ := Option.isSome_iff_exists.mp (lookup_isSome_iff_mem.mpr hk)
    simp [hmask]
  | none =>
    apply Eq.symm
    rw [Option.map_none, Option.map_none, List.lookup_eq_none_iff]
    intro e he
    have hk : e.1 ∈ m.map (·.1) := List.mem_map_of_mem he
    have hne := List.find?_eq_none.mp hfind e.1 ((hmem e.1).mpr hk)
    rw [Function.comp_apply, visible_eq_self (hnul e.1 hk)] at hne
    rw [bne_iff_ne]
    rintro rfl
    exact hne (beq_self_eq_true _)

/-- Either builder gives a list that knows its names by their masks. -/
theorem BuiltFrom.lookup (hbuilt : BuiltFrom masks f)
    (hnames : ∀ d, (masks d).isSome → d ≠ [] ∧ (0 : UInt8) ∉ d)
    (hstarts : StartsFit masks) (d : GoString) : f.lookup d = masks d := by
  cases hbuilt with
  | merge lists f hord hbuild =>
    obtain ⟨entries, hmerged, hpack⟩ := buildFromSortedLists_eq_pack hord
    obtain rfl : f = pack entries := Option.some.inj (hbuild.symm.trans hpack)
    have hsize := hstarts _ hmerged.sorted fun d => by simp [hmerged.mem]
    refine lookup_merged hmerged ?_ hsize d
    intro l hl n hn
    refine (hnames n ?_).2
    simp only [if_pos (show ∃ l ∈ lists, n ∈ l.domains from ⟨l, hl, hn⟩), Option.isSome_some]
  | map m hkeys =>
    refine lookup_buildFlatBlocklist hkeys ?_ hstarts d
    intro k hk
    exact (hnames k (lookup_isSome_iff_mem.mpr hk)).2

theorem lookupSubdomains_eq_none (h : f.lookupSubdomains q = none) {d : GoString}
    (hd : AtOrAbove d q) : f.lookup d = none := by
  have hnot := (not_congr (lookupSubdomains_isSome f q)).mp (by simp [h])
  obtain ⟨hself, habove⟩ := not_or.mp hnot
  rcases hd with rfl | hd
  · simpa using hself
  · by_contra hne
    exact habove ⟨d, hd, Option.isSome_iff_ne_none.mpr hne⟩

/-- The search answers for the longest listed name at or above the query, and for none exactly if
there is none. -/
theorem lookupSubdomains_longest (hbuilt : BuiltFrom masks f)
    (hnames : ∀ d, (masks d).isSome → d ≠ [] ∧ (0 : UInt8) ∉ d)
    (hstarts : StartsFit masks) (q : GoString) :
    match f.lookupSubdomains q with
    | some (mask, kind) =>
      ∃ d, AtOrAbove d q ∧ masks d = some mask ∧ (kind = if d = q then .exact else .subdomain) ∧
        ∀ d', AtOrAbove d' q → (masks d').isSome → d'.length ≤ d.length
    | none => ∀ d, AtOrAbove d q → masks d = none := by
  have hlookup := hbuilt.lookup hnames hstarts
  cases hfound : f.lookupSubdomains q with
  | none =>
    intro d hd
    rw [← hlookup d]
    exact lookupSubdomains_eq_none hfound hd
  | some found =>
    simpa only [hlookup] using lookupSubdomains_eq_some hfound

theorem lookupSubdomains_longest_parent :
    ∃ d, AtOrAbove d (lit "a.b.com.") ∧
      [(lit "com.", (1 : UInt64)), (lit "b.com.", 2)].lookup d = some 2 := by
  have hall : ∀ e ∈ [(lit "com.", (1 : UInt64)), (lit "b.com.", 2)],
      e.1 ≠ [] ∧ (0 : UInt8) ∉ e.1 := by decide
  have hstarts : StartsFit fun d => [(lit "com.", (1 : UInt64)), (lit "b.com.", 2)].lookup d := by
    intro names hsorted hmem
    obtain rfl : names = [lit "b.com.", lit "com."] := by
      refine eq_of_strictly_sorted hsorted (by decide) fun d => ?_
      rw [hmem, lookup_isSome_iff_mem]
      simp [or_comm]
    decide
  have hlongest := lookupSubdomains_longest
    (.map [(lit "com.", (1 : UInt64)), (lit "b.com.", 2)] (by decide))
    (fun d hd => by
      obtain ⟨e, he, heq⟩ := List.lookup_isSome_iff.mp hd
      rw [eq_of_beq heq]
      exact hall e he)
    hstarts (lit "a.b.com.")
  have hfound : (buildFlatBlocklist [(lit "com.", 1), (lit "b.com.", 2)]).lookupSubdomains
      (lit "a.b.com.") = some (2, .subdomain) := by decide
  rw [hfound] at hlongest
  obtain ⟨d, habove, hmask, -⟩ := hlongest
  exact ⟨d, habove, hmask⟩

/-! ## A name past 4 GiB -/

theorem lookup_eq_none {d : GoString} (h : ∀ i, f.cmpDomainAt i d ≠ 0) : f.lookup d = none := by
  unfold FlatBlocklist.lookup
  split
  · rfl
  · exact if_neg fun hfound => h _ hfound.2

/-- The second of two names that starts at offset 2^32 is not found. -/
theorem lookup_wrapped {k : Nat} (hk : k + 2 = 2 ^ 32) {entries : List (GoString × UInt64)}
    (hentries : entries.map (·.1) = [List.replicate (k + 1) (byte 'a'), lit "b"]) :
    (pack entries).lookup (lit "b") = none := by
  apply lookup_eq_none
  intro i
  have hoffs : (pack entries).offs = [0, 0] := by
    simp only [pack_eq, hentries, offsets, List.length_replicate, Nat.zero_add]
    rw [show k + 1 + 1 = 2 ^ 32 from hk]
    rfl
  have hstart : (pack entries).start i = 0 := by
    rw [start, hoffs]
    rcases i with _ | _ | i <;> rfl
  rw [cmpDomainAt, hstart, pack_eq, hentries, bytes, List.flatMap_cons, List.replicate_succ]
  exact (by decide : (-1 : Int) ≠ 0)

theorem wrapped_not_found {k : Nat} (hk : k + 2 = 2 ^ 32) :
    ∃ f, buildFromSortedLists [⟨[List.replicate (k + 1) (byte 'a'), lit "b"], 1⟩] = some f ∧
      f.lookupSubdomains (lit "b") = none := by
  have hsorted : [List.replicate (k + 1) (byte 'a'), lit "b"].Pairwise (· < ·) := by
    rw [List.replicate_succ]
    exact List.pairwise_pair.mpr (List.Lex.rel (by decide))
  have hord : ∀ l ∈ [(⟨[List.replicate (k + 1) (byte 'a'), lit "b"], 1⟩ : SortedList)],
      l.Ordered := by
    intro l hl
    rw [List.mem_singleton.mp hl]
    refine ⟨hsorted, ?_⟩
    intro d hd
    rcases List.mem_pair.mp hd with rfl | rfl
    · exact List.cons_ne_nil _ _
    · exact List.cons_ne_nil _ _
  obtain ⟨entries, hmerged, hbuild⟩ := buildFromSortedLists_eq_pack hord
  have hentries : entries.map (·.1) = [List.replicate (k + 1) (byte 'a'), lit "b"] := by
    refine eq_of_strictly_sorted hmerged.sorted hsorted ?_
    intro d
    rw [hmerged.mem]
    simp only [List.mem_singleton, exists_eq_left]
  refine ⟨pack entries, hbuild, ?_⟩
  unfold lookupSubdomains
  rw [lookup_wrapped hk hentries]
  exact ite_self _

/-- A name of 2^32 - 1 bytes fills the offsets, and the name after it is listed and not found. -/
theorem name_past_offsets_lost :
    ∃ f, buildFromSortedLists [⟨[List.replicate (2 ^ 32 - 1) (byte 'a'), lit "b"], 1⟩] = some f ∧
      f.lookupSubdomains (lit "b") = none := by
  obtain ⟨k, hk⟩ : ∃ k, k + 2 = 2 ^ 32 := ⟨2 ^ 32 - 2, by norm_num⟩
  have hlength : 2 ^ 32 - 1 = k + 1 := by omega
  rw [hlength]
  exact wrapped_not_found hk

end GloryHole.Blocklist
