import GloryHole.Blocklist.Proofs.Download

/-!
# End-to-end blocking

What a query name meets after an update: it is lower-cased and completed by a dot, and it is
blocked when it or a parent of it is the visible part of a listed name, or when a pattern matches.
The names are stored as they are spelled in the text, so the two sides meet only for names that
lower-casing leaves alone.
-/

namespace GloryHole.Blocklist

open Go FlatBlocklist

/-- `p` is what follows some dot of `fqdn`, other than the root name. -/
def IsParent (p fqdn : GoString) : Prop :=
  (∃ label, fqdn = label ++ byte '.' :: p) ∧ p ≠ [] ∧ p ≠ lit "."

/-- The purpose of the blocklist: a listed name covers itself and the names below it,
and a pattern the names it matches. -/
def Covers (names : List GoString) (patterns : Option Pattern.Matcher) (fqdn : GoString) :
    Prop :=
  (∃ n ∈ names, visible n = fqdn ∨ IsParent (visible n) fqdn) ∨
    (patterns.bind (·.matchPattern fqdn.dropLast)).isSome

def listedNames (urls : List GoString) (responses : List Response) : List GoString :=
  (downloadLists urls responses).flatMap (·.domains)

/-- A query for the listed name `d`: the case of ASCII letters is free, and the final
dot may be missing. -/
def IsQueryFor (d q : GoString) : Prop := SameSpelling q d ∨ SameSpelling q d.dropLast

/-! ## The walk over the parents -/

/-- The suffixes after a dot are the one after the first dot and those of it. -/
theorem suffix_after_dot {pre next p : GoString} (hpre : byte '.' ∉ pre) :
    (∃ label, pre ++ byte '.' :: next = label ++ byte '.' :: p) ↔
      p = next ∨ ∃ label, next = label ++ byte '.' :: p := by
  constructor
  · rintro ⟨label, heq⟩
    rcases List.append_eq_append_iff.mp heq with ⟨mid, hlabel, htail⟩ | ⟨mid, hpre', htail⟩
    · cases mid with
      | nil => exact Or.inl (by simpa using htail.symm)
      | cons c mid =>
        obtain ⟨-, htail⟩ := List.cons.inj htail
        exact Or.inr ⟨mid, htail⟩
    · cases mid with
      | nil => exact Or.inl (by simpa using htail)
      | cons c mid =>
        obtain ⟨rfl, -⟩ := List.cons.inj htail
        exact absurd (by simp [hpre']) hpre
  · rintro (rfl | ⟨label, rfl⟩)
    · exact ⟨pre, rfl⟩
    · exact ⟨pre ++ byte '.' :: label, by simp⟩

/-- A round of the walk: the name has no parent, or the walk looks up the nearest one and
goes on from it. -/
theorem parentWalk_succ (f : FlatBlocklist) (fuel : Nat) (s : GoString) :
    ((∀ p, ¬ IsParent p s) ∧ f.parentWalk (fuel + 1) s = none) ∨
      ∃ next, next.length < s.length ∧ (∀ p, IsParent p s ↔ p = next ∨ IsParent p next) ∧
        f.parentWalk (fuel + 1) s = (f.lookup next).or (f.parentWalk fuel next) := by
  rw [parentWalk]
  cases hdot : indexByte s (byte '.') with
  | none =>
    refine Or.inl ⟨?_, rfl⟩
    rintro p ⟨⟨label, rfl⟩, -⟩
    exact indexByte_eq_none.mp hdot (by simp)
  | some idx =>
    obtain ⟨hsplit, hpre, hidx⟩ := eq_of_indexByte hdot
    simp only [ge_iff_le]
    generalize hnext : s.drop (idx + 1) = next at hsplit ⊢
    have hlen : next.length = s.length - (idx + 1) := by rw [← hnext, List.length_drop]
    -- the parents of `s` are `next` and the parents of `next`
    have hparent : ∀ p, IsParent p s ↔
        (p = next ∧ p ≠ [] ∧ p ≠ lit ".") ∨ IsParent p next := by
      intro p
      rw [IsParent, hsplit, suffix_after_dot hpre, IsParent, or_and_right]
    have hroot : next = lit "." ∨ next = [] → ∀ p, ¬ IsParent p s := by
      intro hcase p hp
      rcases (hparent p).mp hp with ⟨rfl, hne, hdot⟩ | ⟨⟨label, heq⟩, hne, -⟩
      · exact hcase.elim hdot hne
      · rcases hcase with rfl | rfl
        · cases label with
          | nil => exact hne (by simpa [lit, byte] using heq.symm)
          | cons c label => simp [lit, byte] at heq
        · simp at heq
    by_cases hshort : s.length ≤ idx + 1
    · have hempty : next = [] := List.length_eq_zero_iff.mp (by omega)
      rw [if_pos hshort]
      exact Or.inl ⟨hroot (Or.inr hempty), rfl⟩
    · rw [if_neg hshort]
      by_cases hstop : next = lit "." ∨ next = []
      · rw [if_pos hstop]
        exact Or.inl ⟨hroot hstop, rfl⟩
      · rw [if_neg hstop]
        obtain ⟨hne1, hne2⟩ := not_or.mp hstop
        refine Or.inr ⟨next, by omega, ?_, ?_⟩
        · intro p
          rw [hparent]
          refine or_congr_left ⟨fun h => h.1, fun h => ⟨h, ?_, ?_⟩⟩
          · rwa [h]
          · rwa [h]
        · cases f.lookup next with
          | some mask | none => rfl

theorem IsParent.length_lt {p s : GoString} (h : IsParent p s) : p.length < s.length := by
  obtain ⟨⟨label, rfl⟩, -⟩ := h
  rw [List.length_append, List.length_cons]
  omega

theorem parentWalk_isSome (f : FlatBlocklist) (fuel : Nat) (s : GoString)
    (hfuel : s.length ≤ fuel) :
    (f.parentWalk fuel s).isSome ↔ ∃ p, IsParent p s ∧ (f.lookup p).isSome := by
  induction fuel generalizing s with
  | zero =>
    have hnil : s = [] := List.length_eq_zero_iff.mp (by omega)
    simp [parentWalk, hnil, IsParent]
  | succ fuel ih =>
    rcases parentWalk_succ f fuel s with ⟨hnone, hwalk⟩ | ⟨next, hlen, hparents, hwalk⟩
    · rw [hwalk]
      exact iff_of_false (by simp) (fun ⟨p, hp, _⟩ => hnone p hp)
    · rw [hwalk, Option.isSome_or, Bool.or_eq_true, ih next (by omega)]
      simp only [hparents, or_and_right, exists_or, exists_eq_left]

/-- What the walk finds is what the nearest parent on the list has. -/
theorem parentWalk_nearest (f : FlatBlocklist) (fuel : Nat) {s : GoString} {mask : UInt64}
    (h : f.parentWalk fuel s = some mask) :
    ∃ p, IsParent p s ∧ f.lookup p = some mask ∧
      ∀ p', IsParent p' s → (f.lookup p').isSome → p'.length ≤ p.length := by
  induction fuel generalizing s with
  | zero => cases h
  | succ fuel ih =>
    rcases parentWalk_succ f fuel s with ⟨-, hwalk⟩ | ⟨next, hlen, hparents, hwalk⟩
    · rw [hwalk] at h
      cases h
    · rw [hwalk] at h
      rcases Option.or_eq_some_iff.mp h with hnext | ⟨hnext, hrest⟩
      · refine ⟨next, (hparents next).mpr (Or.inl rfl), hnext, fun p' hp' _ => ?_⟩
        rcases (hparents p').mp hp' with rfl | hp'
        · exact Nat.le_refl _
        · exact hp'.length_lt.le
      · obtain ⟨p, hp, hlookup, hnearest⟩ := ih hrest
        refine ⟨p, (hparents p).mpr (Or.inr hp), hlookup, fun p' hp' hsome => ?_⟩
        rcases (hparents p').mp hp' with rfl | hp'
        · rw [hnext] at hsome
          cases hsome
        · exact hnearest p' hp' hsome

def AtOrAbove (d q : GoString) : Prop := d = q ∨ IsParent d q

/-- What the search finds is the mask of the longest name the list has at or above the query. -/
theorem lookupSubdomains_eq_some {f : FlatBlocklist} {q : GoString} {mask : UInt64} {kind : Kind}
    (h : f.lookupSubdomains q = some (mask, kind)) :
    ∃ d, AtOrAbove d q ∧ f.lookup d = some mask ∧
      (kind = if d = q then .exact else .subdomain) ∧
      ∀ d', AtOrAbove d' q → (f.lookup d').isSome → d'.length ≤ d.length := by
  unfold lookupSubdomains at h
  split at h
  · cases h
  · cases hexact : f.lookup q with
    | some mask' =>
      simp only [hexact, Option.some.injEq, Prod.mk.injEq] at h
      obtain ⟨rfl, rfl⟩ := h
      refine ⟨q, Or.inl rfl, hexact, by rw [if_pos rfl], ?_⟩
      rintro d' (rfl | hd') -
      · exact Nat.le_refl _
      · exact hd'.length_lt.le
    | none =>
      simp only [hexact, Option.map_eq_some_iff, Prod.mk.injEq] at h
      obtain ⟨mask', hwalk, rfl, rfl⟩ := h
      obtain ⟨p, hp, hlookup, hnearest⟩ := parentWalk_nearest f _ hwalk
      have hne : p ≠ q := fun heq => (heq ▸ hp.length_lt).false
      refine ⟨p, Or.inr hp, hlookup, by rw [if_neg hne], ?_⟩
      rintro d' (rfl | hd') hsome
      · simp [hexact] at hsome
      · exact hnearest d' hd' hsome

theorem lookupSubdomains_isSome (f : FlatBlocklist) (fqdn : GoString) :
    (f.lookupSubdomains fqdn).isSome ↔
      (f.lookup fqdn).isSome ∨ ∃ p, IsParent p fqdn ∧ (f.lookup p).isSome := by
  unfold lookupSubdomains
  by_cases hempty : f.len = 0
  · simp [hempty, FlatBlocklist.lookup]
  · simp only [hempty, if_false]
    cases hexact : f.lookup fqdn with
    | some mask => simp
    | none =>
      simp only [Option.isSome_map, Option.isSome_none, Bool.false_eq_true, false_or]
      exact parentWalk_isSome f _ fqdn (Nat.le_refl _)

/-! ## After an update -/

theorem lookup_isSome_merged {lists : List SortedList} {entries : List (GoString × UInt64)}
    (hmerged : Merged lists entries) (hsize : packedSize (entries.map (·.1)) < 2 ^ 32)
    (d : GoString) :
    ((pack entries).lookup d).isSome ↔ ∃ n ∈ lists.flatMap (·.domains), visible n = d := by
  rw [lookup_pack ((packedSize_dropLast_le _).trans_lt hsize) hmerged.sorted, Option.isSome_map,
    List.find?_isSome]
  simp only [beq_iff_eq, List.mem_flatMap]
  constructor
  · rintro ⟨e, he, hvis⟩
    exact ⟨e.1, (hmerged.mem e.1).mp (List.mem_map_of_mem he), hvis⟩
  · rintro ⟨n, hn, hvis⟩
    obtain ⟨e, he, rfl⟩ := List.mem_map.mp ((hmerged.mem n).mpr hn)
    exact ⟨e, he, hvis⟩

/-- An update with lists that fit goes through, and the manager then blocks what the listed names
and its patterns cover. -/
theorem update_blocks (lower : Nat → Nat) (m : Manager) (responses : List Response)
    (hsome : m.blocklists ≠ []) (hfits : ListsFit m.blocklists responses) :
    ∃ m', m.update responses = some m' ∧
      ∀ q, (m'.matchDomain lower q).blocked ↔
        q ≠ [] ∧
          Covers (listedNames m.blocklists responses) m.patterns (queryName lower q) := by
  obtain ⟨entries, hmerged, hbuild⟩ := buildFromSortedLists_eq_pack
    (downloadLists_ordered m.blocklists responses)
  have hsize : packedSize (entries.map (·.1)) < 2 ^ 32 :=
    Nat.lt_of_le_of_lt hmerged.size hfits
  refine ⟨_, by simp only [Manager.update, downloadAndMerge, hsome, if_false, hbuild,
    Option.map_some]; rfl, ?_⟩
  intro q
  have hlist := lookupSubdomains_isSome (pack entries) (queryName lower q)
  simp only [lookup_isSome_merged hmerged hsize] at hlist
  have hcovers : Covers (listedNames m.blocklists responses) m.patterns (queryName lower q) ↔
      ((pack entries).lookupSubdomains (queryName lower q)).isSome ∨
        (m.patterns.bind (·.matchPattern (queryName lower q).dropLast)).isSome := by
    rw [hlist, Covers, listedNames]
    refine or_congr_left ?_
    constructor
    · rintro ⟨n, hn, hvis | hparent⟩
      · exact Or.inl ⟨n, hn, hvis⟩
      · exact Or.inr ⟨visible n, hparent, n, hn, rfl⟩
    · rintro (⟨n, hn, hvis⟩ | ⟨p, hparent, n, hn, rfl⟩)
      · exact ⟨n, hn, Or.inl hvis⟩
      · exact ⟨n, hn, Or.inr hparent⟩
  rw [hcovers]
  by_cases hq : q = []
  · simp [Manager.matchDomain, hq]
  · simp only [Manager.matchDomain, hq, if_false, ne_eq, not_false_eq_true, true_and]
    cases (pack entries).lookupSubdomains (queryName lower q) with
    | some found => simp
    | none =>
      cases m.patterns.bind (·.matchPattern (queryName lower q).dropLast) with
      | some p | none => simp

theorem queryName_eq_of_sameSpelling (lower : Nat → Nat) {s t : GoString}
    (h : SameSpelling s t) : queryName lower s = queryName lower t := by
  rw [queryName, queryName, toLower_eq_of_sameSpelling lower h]

theorem eq_nil_of_sameSpelling {s t : GoString} (h : SameSpelling s t) :
    s = [] ↔ t = [] := by
  have hlen : s.length = t.length := by simpa using congrArg List.length h
  rw [← List.length_eq_zero_iff, ← List.length_eq_zero_iff, hlen]

/-- A query for `d` in every spelling, reduced to the two forms the lookup sees. -/
theorem forall_isQueryFor {P : GoString → Prop} (lower : Nat → Nat) (d : GoString) :
    (∀ q, IsQueryFor d q → q ≠ [] ∧ P (queryName lower q)) ↔
      ∀ s ∈ [d, d.dropLast], s ≠ [] ∧ P (queryName lower s) := by
  constructor
  · intro h s hs
    refine h s ?_
    rcases List.mem_cons.mp hs with rfl | hs
    · exact Or.inl rfl
    · obtain rfl := List.mem_singleton.mp hs
      exact Or.inr rfl
  · intro h q hq
    obtain ⟨s, hs, hsame⟩ : ∃ s ∈ [d, d.dropLast], SameSpelling q s :=
      hq.elim (fun h => ⟨d, by simp, h⟩) fun h => ⟨d.dropLast, by simp, h⟩
    rw [queryName_eq_of_sameSpelling lower hsame, ne_eq, eq_nil_of_sameSpelling hsame]
    exact h s hs

/-- A name that lower-casing leaves alone is looked up as it is listed. -/
theorem queryName_eq_self (lower : Nat → Nat) {d : GoString}
    (hlower : ∀ b ∈ d, b < 0x80 ∧ asciiLower b = b) (hdot : d.getLast? = some (byte '.')) :
    queryName lower d = d := by
  have hascii : d.all (· < 0x80) = true := by
    simpa using fun b hb => (hlower b hb).1
  have hsuffix : hasSuffix d (lit ".") = true := by
    obtain ⟨pre, rfl⟩ := List.getLast?_eq_some_iff.mp hdot
    exact List.isSuffixOf_iff_suffix.mpr ⟨pre, rfl⟩
  rw [queryName, toLower, mapCase, if_pos hascii, List.map_congr_left fun b hb => (hlower b hb).2,
    List.map_id', ensureDot, if_pos hsuffix]

/-- The final dot is put back, unless the name ends in two. -/
theorem queryName_dropLast (lower : Nat → Nat) {d : GoString}
    (hlower : ∀ b ∈ d, b < 0x80 ∧ asciiLower b = b) (hdot : d.getLast? = some (byte '.'))
    (hone : ¬ hasSuffix d.dropLast (lit ".")) : queryName lower d.dropLast = d := by
  have hsub : ∀ b ∈ d.dropLast, b < 0x80 ∧ asciiLower b = b :=
    fun b hb => hlower b ((List.dropLast_sublist d).subset hb)
  have hascii : d.dropLast.all (· < 0x80) = true := by
    simpa using fun b hb => (hsub b hb).1
  rw [queryName, toLower, mapCase, if_pos hascii, List.map_congr_left fun b hb => (hsub b hb).2,
    List.map_id', ensureDot, if_neg hone]
  obtain ⟨pre, rfl⟩ := List.getLast?_eq_some_iff.mp hdot
  rw [List.dropLast_concat]
  rfl

/-- Names in ASCII lower case, without NUL bytes and with a single final dot, are blocked
in every spelling. -/
theorem lower_case_name_blocked (lower : Nat → Nat) (m : Manager)
    (responses : List Response) (hfits : ListsFit m.blocklists responses) {d : GoString}
    (hd : d ∈ listedNames m.blocklists responses)
    (hlower : ∀ b ∈ d, b < 0x80 ∧ asciiLower b = b ∧ b ≠ 0)
    (hroot : d ≠ lit ".") (hone : ¬ hasSuffix d.dropLast (lit ".")) :
    ∃ m', m.update responses = some m' ∧
      ∀ q, IsQueryFor d q → (m'.matchDomain lower q).blocked := by
  obtain ⟨l, hl, hdl⟩ := List.mem_flatMap.mp hd
  obtain ⟨text, htext⟩ := mem_downloadLists hl
  have hdot := downloadSorted_endsInDot htext hdl
  have hbytes : ∀ b ∈ d, b < 0x80 ∧ asciiLower b = b :=
    fun b hb => ⟨(hlower b hb).1, (hlower b hb).2.1⟩
  have hvisible : visible d = d :=
    visible_eq_self fun hzero => (hlower 0 hzero).2.2 rfl
  have hcovers : Covers (listedNames m.blocklists responses) m.patterns d :=
    Or.inl ⟨d, hd, Or.inl hvisible⟩
  have hsome : m.blocklists ≠ [] := by
    intro hnil
    simp [listedNames, downloadLists, hnil] at hd
  obtain ⟨m', hupdate, hblocked⟩ := update_blocks lower m responses hsome hfits
  refine ⟨m', hupdate, ?_⟩
  simp only [hblocked]
  refine (forall_isQueryFor lower d).mpr ?_
  intro s hs
  rcases List.mem_cons.mp hs with rfl | hs
  · rw [queryName_eq_self lower hbytes hdot]
    refine ⟨?_, hcovers⟩
    rintro rfl
    simp at hdot
  · obtain rfl := List.mem_singleton.mp hs
    rw [queryName_dropLast lower hbytes hdot hone]
    refine ⟨?_, hcovers⟩
    intro hnil
    obtain ⟨pre, rfl⟩ := List.getLast?_eq_some_iff.mp hdot
    rw [List.dropLast_concat] at hnil
    exact hroot (by rw [hnil]; rfl)

/-- After an update a name extracted from one of the lists is blocked in every spelling
exactly when the lists and the patterns cover its lower-case form, both as it stands and
without its final dot. -/
theorem listed_name_blocked_iff (lower : Nat → Nat) (m : Manager)
    (responses : List Response) (hfits : ListsFit m.blocklists responses) {d : GoString}
    (hd : d ∈ listedNames m.blocklists responses) :
    ∃ m', m.update responses = some m' ∧
      ((∀ q, IsQueryFor d q → (m'.matchDomain lower q).blocked) ↔
        ∀ s ∈ [d, d.dropLast], s ≠ [] ∧
          Covers (listedNames m.blocklists responses) m.patterns (queryName lower s)) := by
  have hsome : m.blocklists ≠ [] := by
    intro hnil
    simp [listedNames, downloadLists, hnil] at hd
  obtain ⟨m', hupdate, hblocked⟩ := update_blocks lower m responses hsome hfits
  refine ⟨m', hupdate, ?_⟩
  simp only [hblocked]
  exact forall_isQueryFor lower d

theorem listed_name_blocked_iff_hosts_line :
    ∃ m', Manager.update { blocklists := [lit "list"] } [some (lit "0.0.0.0 ads.com")] =
        some m' ∧
      ((∀ q, IsQueryFor (lit "ads.com.") q → (m'.matchDomain id q).blocked) ↔
        ∀ s ∈ [lit "ads.com.", (lit "ads.com.").dropLast], s ≠ [] ∧
          Covers (listedNames [lit "list"] [some (lit "0.0.0.0 ads.com")]) none
            (queryName id s)) :=
  listed_name_blocked_iff id { blocklists := [lit "list"] } [some (lit "0.0.0.0 ads.com")]
    (listsFit_of_length_le (by decide)) (by decide)

/-- The entry `Example.com` is stored as spelled; the query is lower-cased and misses it. -/
theorem mixed_case_entry_not_blocked :
    lit "Example.com." ∈ listedNames [lit "list"] [some (lit "Example.com")] ∧
      ∃ m', Manager.update { blocklists := [lit "list"] } [some (lit "Example.com")] =
          some m' ∧
        IsQueryFor (lit "Example.com.") (lit "Example.com.") ∧
        (m'.matchDomain id (lit "Example.com.")).blocked = false := by
  refine ⟨by decide, _, rfl, Or.inl rfl, ?_⟩
  decide

end GloryHole.Blocklist
