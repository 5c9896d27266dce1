import GloryHole.LocalRecords.Proofs.Chains

/-!
# Wildcard records

What a wildcard matches, and when the wildcards and the exact records of a name keep out of each
other's way.  The matcher cuts the suffix off the name without asking for a dot before it.  The
lookups of addresses give way to any exact record, a disabled one too; the others add the wildcards
to the exact records of the name.
-/

namespace GloryHole.LocalRecords

open Go

/-! ## One label -/

def OneLabel (s d : GoString) : Prop :=
  ∃ label, label ≠ [] ∧ byte '.' ∉ label ∧ d = label ++ lit "." ++ s

theorem trimSuffix_dot (label : GoString) : trimSuffix (label ++ lit ".") (lit ".") = label := by
  have hsuffix : hasSuffix (label ++ lit ".") (lit ".") = true :=
    List.isSuffixOf_iff_suffix.mpr (List.suffix_append _ _)
  rw [trimSuffix, if_pos hsuffix, List.length_append, Nat.add_sub_cancel, List.take_left]

theorem trimSuffix_of_notMem {front : GoString} (h : byte '.' ∉ front) :
    trimSuffix front (lit ".") = front := by
  apply if_neg
  intro hsuffix
  exact h ((List.isSuffixOf_iff_suffix.mp hsuffix).subset List.mem_cons_self)

/-- A text with a dot that is trimmed to one without ends in its only dot. -/
theorem eq_append_dot {front : GoString} (h : byte '.' ∈ front)
    (htrim : byte '.' ∉ trimSuffix front (lit ".")) :
    front = trimSuffix front (lit ".") ++ lit "." := by
  by_cases hsuffix : hasSuffix front (lit ".") = true
  · obtain ⟨label, rfl⟩ := List.isSuffixOf_iff_suffix.mp hsuffix
    rw [trimSuffix_dot]
  · rw [trimSuffix, if_neg hsuffix] at htrim
    exact absurd h htrim

theorem matchesWildcard_iff (s d : GoString) :
    matchesWildcard d (lit "*." ++ s) = true ↔
      ∃ front, d = front ++ s ∧ front ≠ [] ∧ byte '.' ∉ trimSuffix front (lit ".") := by
  have hprefix : hasPrefix (lit "*." ++ s) (lit "*.") = true :=
    List.isPrefixOf_iff_prefix.mpr (List.prefix_append _ _)
  have hdrop : (lit "*." ++ s).drop 2 = s := rfl
  rw [matchesWildcard, if_pos hprefix, hdrop]
  by_cases hsuffix : hasSuffix d s = true
  · obtain ⟨front, rfl⟩ := List.isSuffixOf_iff_suffix.mp hsuffix
    have htake : (front ++ s).take ((front ++ s).length - s.length) = front := by
      rw [List.length_append, Nat.add_sub_cancel, List.take_left]
    have hself : (front ++ s == s) = decide (front = []) := by
      rw [Bool.eq_iff_iff, beq_iff_eq, decide_eq_true_eq, List.append_left_eq_self]
    simp only [hsuffix, htake, hself, Bool.not_true, Bool.false_or, List.append_cancel_right_eq,
      exists_eq_left']
    by_cases hnil : front = []
    · simp [hnil]
    · simp [hnil, containsByte]
  · simp only [hsuffix, Bool.not_false, Bool.true_or, if_true, Bool.false_eq_true, false_iff]
    rintro ⟨front, rfl, -⟩
    exact hsuffix (List.isSuffixOf_iff_suffix.mpr (List.suffix_append _ _))

/-- The wildcard of a suffix matches a name as it should exactly if what stands before the suffix in
the name, if there is anything, has a dot and is not only a dot. -/
theorem wildcard_one_label_iff (s d : GoString) :
    (matchesWildcard d (lit "*." ++ s) = true ↔ OneLabel s d) ↔
      ∀ front, d = front ++ s → front ≠ [] → byte '.' ∈ front ∧ front ≠ lit "." := by
  rw [matchesWildcard_iff]
  constructor
  · intro h front hd hne
    have hlabel : byte '.' ∉ trimSuffix front (lit ".") →
        ∃ label, label ≠ [] ∧ front = label ++ lit "." := by
      intro htrim
      obtain ⟨label, hne, -, hlabel⟩ := h.mp ⟨front, hd, hne, htrim⟩
      exact ⟨label, hne, List.append_cancel_right (hd.symm.trans hlabel)⟩
    constructor
    · by_contra hdot
      obtain ⟨label, -, rfl⟩ := hlabel (by rwa [trimSuffix_of_notMem hdot])
      exact hdot (List.mem_append_right _ List.mem_cons_self)
    · rintro rfl
      obtain ⟨label, hne, heq⟩ := hlabel (by decide)
      have hlength := congrArg List.length heq
      rw [List.length_append] at hlength
      have hpos := List.length_pos_iff.mpr hne
      omega
  · intro h
    constructor
    · rintro ⟨front, rfl, hne, htrim⟩
      obtain ⟨hdot, hlone⟩ := h front rfl hne
      have heq := eq_append_dot hdot htrim
      refine ⟨_, ?_, htrim, by rw [← heq]⟩
      intro hnil
      rw [hnil] at heq
      exact hlone heq
    · rintro ⟨label, hne, hdot, rfl⟩
      exact ⟨label ++ lit ".", rfl, by simp [lit], by rwa [trimSuffix_dot]⟩

theorem wildcard_matches_inside_a_label :
    normalizeDomain id (lit "home.") = lit "home." ∧
      normalizeDomain id (lit "nothome.") = lit "nothome." ∧
      matchesWildcard (lit "nothome.") (lit "*." ++ lit "home.") = true ∧
      ¬ OneLabel (lit "home.") (lit "nothome.") := by
  refine ⟨by decide +kernel, by decide +kernel, by decide +kernel, ?_⟩
  rintro ⟨label, -, -, heq⟩
  have hfront : lit "not" = label ++ lit "." :=
    List.append_cancel_right (heq : lit "not" ++ lit "home." = label ++ lit "." ++ lit "home.")
  have hdot : byte '.' ∈ lit "not" := hfront ▸ List.mem_append_right _ List.mem_cons_self
  exact absurd hdot (by decide)

/-! ## Exact records first -/

namespace Manager

variable (lower : Nat → Nat) (m : Manager) (t : RecordType) (name : GoString)

def exactRecords : List LocalRecord :=
  (m.records.lookup (normalizeDomain lower name)).getD []

def wildcardsFor : List LocalRecord :=
  m.wildcards.filter fun wc => wc.isOf t && matchesWildcard (normalizeDomain lower name) wc.domain

/-- Wildcards have no part in the answer for a name with an enabled exact record, and they are the
answer for a name whose exact records are disabled. -/
structure Precedence : Prop where
  exact : (∃ r ∈ m.exactRecords lower name, r.enabled = true) →
    m.answers lower t name = ({ m with wildcards := [] } : Manager).answers lower t name
  fallback : (∀ r ∈ m.exactRecords lower name, r.enabled = false) →
    m.wildcardsFor lower t name ≠ [] →
    m.answers lower t name ≠ [] ∧
      m.answers lower t name = ({ m with records := [] } : Manager).answers lower t name

/-- No wildcard of the type matches, or the exact records of the name and the wildcards do not meet:
for addresses there is no exact record or an enabled one, for aliases the exact records are disabled
or one of them is an alias, for the other types the exact records are disabled. -/
def Apart : Prop :=
  m.wildcardsFor lower t name = [] ∨
    match t with
    | .a | .aaaa =>
      m.records.lookup (normalizeDomain lower name) = none ∨
        ∃ r ∈ m.exactRecords lower name, r.enabled = true
    | .cname =>
      (∀ r ∈ m.exactRecords lower name, r.enabled = false) ∨
        ∃ r ∈ m.exactRecords lower name, r.isOf .cname = true
    | _ => ∀ r ∈ m.exactRecords lower name, r.enabled = false

variable {lower m t name}

theorem exists_enabled_iff :
    (∃ r ∈ m.exactRecords lower name, r.enabled = true) ↔
      ¬ ∀ r ∈ m.exactRecords lower name, r.enabled = false := by
  simp

theorem filter_isOf_of_disabled {rs : List LocalRecord} (h : ∀ r ∈ rs, r.enabled = false) :
    rs.filter (·.isOf t) = [] := by
  rw [List.filter_eq_nil_iff]
  intro r hr
  simp [LocalRecord.isOf, h r hr]

/-- The types whose lookups collect exact records and wildcards, sorted or not. -/
theorem answers_collect (ht : t ≠ .a ∧ t ≠ .aaaa ∧ t ≠ .cname) :
    ∃ order : List LocalRecord → List LocalRecord, (∀ l, (order l).length = l.length) ∧
      ∀ (m : Manager), m.answers lower t name = (order (m.collect lower t name)).map served := by
  cases t with
  | a => exact absurd rfl ht.1
  | aaaa => exact absurd rfl ht.2.1
  | cname => exact absurd rfl ht.2.2
  | mx | srv => exact ⟨fun l => _, fun l => (swapSort_perm _ l.length l).length_eq, fun _ => rfl⟩
  | txt | ptr | ns | soa | caa => exact ⟨id, fun _ => rfl, fun _ => rfl⟩

theorem precedence_collect_iff (ht : t ≠ .a ∧ t ≠ .aaaa ∧ t ≠ .cname) :
    m.Precedence lower t name ↔ m.wildcardsFor lower t name = [] ∨
      ∀ r ∈ m.exactRecords lower name, r.enabled = false := by
  obtain ⟨order, hlength, hanswers⟩ := @answers_collect lower t name ht
  have hcollect : m.collect lower t name =
      (m.exactRecords lower name).filter (·.isOf t) ++ m.wildcardsFor lower t name := rfl
  have hexact : ({ m with wildcards := [] } : Manager).collect lower t name =
      (m.exactRecords lower name).filter (·.isOf t) := List.append_nil _
  have hwild : ({ m with records := [] } : Manager).collect lower t name =
      m.wildcardsFor lower t name := rfl
  constructor
  · intro h
    by_contra hboth
    rw [not_or] at hboth
    have hanswer := congrArg List.length (h.exact (exists_enabled_iff.mpr hboth.2))
    rw [hanswers, hanswers, List.length_map, List.length_map, hlength, hlength, hcollect, hexact,
      List.length_append] at hanswer
    have hpos := List.length_pos_iff.mpr hboth.1
    omega
  · intro h
    constructor
    · intro henabled
      have hnone := h.resolve_right (exists_enabled_iff.mp henabled)
      rw [hanswers, hanswers, hcollect, hexact, hnone, List.append_nil]
    · intro hdisabled hne
      rw [hanswers, hanswers, hcollect, hwild, filter_isOf_of_disabled hdisabled, List.nil_append]
      refine ⟨?_, rfl⟩
      rw [← List.length_pos_iff, List.length_map, hlength]
      exact List.length_pos_iff.mpr hne

theorem lookupCNAME_eq (m : Manager) :
    m.lookupCNAME lower name =
      (((m.exactRecords lower name).find? (·.isOf .cname)).or
        (m.wildcardsFor lower .cname name).head?).map fun r => (r.target, r.ttl) := by
  simp only [lookupCNAME, exactRecords, wildcardsFor, List.head?_filter]
  cases ((m.records.lookup (normalizeDomain lower name)).getD []).find? (·.isOf .cname) with
  | some r => rfl
  | none =>
    simp only [Option.none_or]
    cases m.wildcards.find? _ <;> rfl

theorem precedence_cname_iff :
    m.Precedence lower .cname name ↔ m.wildcardsFor lower .cname name = [] ∨
      (∀ r ∈ m.exactRecords lower name, r.enabled = false) ∨
        ∃ r ∈ m.exactRecords lower name, r.isOf .cname = true := by
  have hanswers {m m' : Manager} (h : m.lookupCNAME lower name = m'.lookupCNAME lower name) :
      m.answers lower .cname name = m'.answers lower .cname name := by
    rw [answers, answers, h]
  have hempty (m : Manager) :
      m.answers lower .cname name = [] ↔ m.lookupCNAME lower name = none := by
    rw [answers, List.map_eq_nil_iff, Option.toList_eq_nil_iff]
  have hexact : ({ m with wildcards := [] } : Manager).lookupCNAME lower name =
      ((m.exactRecords lower name).find? (·.isOf .cname)).map fun r => (r.target, r.ttl) := by
    rw [lookupCNAME_eq]
    exact congrArg _ (Option.or_none)
  constructor
  · intro h
    by_contra hall
    simp only [not_or, not_exists, not_and] at hall
    obtain ⟨hwild, henabled, hnone⟩ := hall
    have hfind : (m.exactRecords lower name).find? (·.isOf .cname) = none :=
      List.find?_eq_none.mpr hnone
    have hnil : m.answers lower .cname name = [] := by
      rw [h.exact (exists_enabled_iff.mpr henabled), hempty, hexact, hfind]
      rfl
    rw [hempty, lookupCNAME_eq, hfind, Option.none_or, Option.map_eq_none_iff,
      List.head?_eq_none_iff] at hnil
    exact hwild hnil
  · intro h
    constructor
    · intro henabled
      apply hanswers
      rw [hexact, lookupCNAME_eq]
      rcases h with hnone | hdisabled | ⟨r, hr, hof⟩
      · rw [hnone, List.head?_nil, Option.or_none]
      · exact absurd hdisabled (exists_enabled_iff.mp henabled)
      · have hfound : ((m.exactRecords lower name).find? (·.isOf .cname)).isSome = true :=
          List.find?_isSome.mpr ⟨r, hr, hof⟩
        obtain ⟨first, hfirst⟩ := Option.isSome_iff_exists.mp hfound
        rw [hfirst, Option.some_or]
    · intro hdisabled hne
      have hfind : (m.exactRecords lower name).find? (·.isOf .cname) = none := by
        rw [← List.head?_filter, filter_isOf_of_disabled hdisabled, List.head?_nil]
      refine ⟨?_, hanswers ?_⟩
      · rw [ne_eq, hempty, lookupCNAME_eq, hfind, Option.none_or, Option.map_eq_none_iff,
          List.head?_eq_none_iff]
        exact hne
      · rw [lookupCNAME_eq, lookupCNAME_eq, hfind]
        rfl

theorem matchWildcard_eq_none_iff (hm : m.Validated) (ht : t.isAddress = true) :
    m.matchWildcard (normalizeDomain lower name) t = none ↔ m.wildcardsFor lower t name = [] := by
  rw [wildcardsFor, ← List.head?_eq_none_iff, List.head?_filter, matchWildcard]
  split
  · rename_i hnone
    exact iff_of_true rfl hnone
  · rename_i wc hwc
    have hfound := List.find?_some hwc
    rw [Bool.and_eq_true] at hfound
    have hne : wc.ips ≠ [] :=
      (ips_of_validateData (hm.wildcards wc (List.mem_of_find?_eq_some hwc))
        (type_of_isOf hfound.1 ▸ ht)).1
    rw [if_neg hne, hwc]
    exact iff_of_false (Option.some_ne_none _) (Option.some_ne_none _)

theorem precedence_address_iff (hm : m.Validated) (ht : t.isAddress = true) :
    m.Precedence lower t name ↔ m.wildcardsFor lower t name = [] ∨
      m.records.lookup (normalizeDomain lower name) = none ∨
        ∃ r ∈ m.exactRecords lower name, r.enabled = true := by
  have hanswers (m : Manager) : m.answers lower t name =
      (sixteenAll (m.lookupAddresses lower t name)).toList.map
        fun found => .addresses found.1 found.2 := by
    cases t with
    | a | aaaa => rfl
    | _ => cases ht
  have hempty : m.answers lower t name = [] ↔ m.lookupAddresses lower t name = none := by
    rw [hanswers, List.map_eq_nil_iff, Option.toList_eq_nil_iff, sixteenAll, Option.map_eq_none_iff]
  cases hlookup : m.records.lookup (normalizeDomain lower name) with
  | none =>
    have hexact : m.exactRecords lower name = [] := by
      rw [exactRecords, hlookup]
      rfl
    have hwild : m.lookupAddresses lower t name =
        m.matchWildcard (normalizeDomain lower name) t := by
      simp only [lookupAddresses, hlookup]
    refine iff_of_true ⟨?_, ?_⟩ (Or.inr (Or.inl rfl))
    · rintro ⟨r, hr, -⟩
      rw [hexact] at hr
      cases hr
    · intro _ hne
      refine ⟨?_, ?_⟩
      · rw [ne_eq, hempty, hwild, matchWildcard_eq_none_iff hm ht]
        exact hne
      · rw [hanswers, hanswers, hwild]
        rfl
  | some rs =>
    have hexact : m.exactRecords lower name = rs := by
      rw [exactRecords, hlookup]
      rfl
    have hfound (wildcards : List LocalRecord) :
        ({ m with wildcards } : Manager).lookupAddresses lower t name = extractIPs rs t := by
      simp only [lookupAddresses, hlookup]
    have hsame : m.answers lower t name =
        ({ m with wildcards := [] } : Manager).answers lower t name := by
      rw [hanswers, hanswers, hfound []]
      exact congrArg _ (congrArg _ (congrArg _ (hfound m.wildcards)))
    constructor
    · intro h
      by_contra hall
      simp only [not_or, exists_enabled_iff, not_not] at hall
      obtain ⟨hwild, -, hdisabled⟩ := hall
      have hnone : m.lookupAddresses lower t name = none := by
        rw [show m.lookupAddresses lower t name = extractIPs rs t from hfound m.wildcards,
          extractIPs, filter_isOf_of_disabled (hexact ▸ hdisabled)]
        rfl
      exact (h.fallback hdisabled hwild).1 (hempty.mpr hnone)
    · intro h
      refine ⟨fun _ => hsame, ?_⟩
      intro hdisabled hne
      rcases h with hnone | hnone | henabled
      · exact absurd hnone hne
      · cases hnone
      · exact absurd hdisabled (exists_enabled_iff.mp henabled)

theorem precedence_iff (hm : m.Validated) :
    m.Precedence lower t name ↔ m.Apart lower t name := by
  cases t with
  | a | aaaa => exact precedence_address_iff hm rfl
  | cname => exact precedence_cname_iff
  | mx | srv | txt | ptr | ns | soa | caa => exact precedence_collect_iff (by decide)

end Manager

def overlapping : Manager :=
  ⟨[(lit "host.home.",
      [{ domain := lit "host.home.", type := .a, ips := [[192, 0, 2, 1]] }]),
    (lit "old.home.",
      [{ domain := lit "old.home.", type := .a, ips := [[192, 0, 2, 2]], enabled := false }])],
    [{ domain := lit "*.home.", type := .a, ips := [[192, 0, 2, 9]], wildcard := true },
     { domain := lit "*.home.", type := .txt, txtRecords := [lit "any"], wildcard := true }]⟩

theorem overlapping_validated : overlapping.Validated := by
  constructor <;> decide +kernel

theorem precedence_iff_overlapping : overlapping.Precedence id .a (lit "host.home.") :=
  (Manager.precedence_iff overlapping_validated).mpr (Or.inr (Or.inr (by decide +kernel)))

/-- A TXT query for a name with an enabled A record is answered by a wildcard, and an A query for a
name whose only record is disabled is not answered by one. -/
theorem wildcard_beside_exact_record :
    (∃ r ∈ overlapping.exactRecords id (lit "host.home."), r.enabled = true) ∧
      overlapping.answers id .txt (lit "host.home.") ≠
        ({ overlapping with wildcards := [] } : Manager).answers id .txt (lit "host.home.") ∧
      (∀ r ∈ overlapping.exactRecords id (lit "old.home."), r.enabled = false) ∧
      overlapping.wildcardsFor id .a (lit "old.home.") ≠ [] ∧
      overlapping.answers id .a (lit "old.home.") = [] := by
  decide +kernel

end GloryHole.LocalRecords
