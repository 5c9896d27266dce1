import GloryHole.Cache.Cache
import GloryHole.Support.Lists

/-!
# The lifetime of a positive answer

`determineTTL` looks for the least TTL of the answer section with 0 in the place of "none yet".  A
record with a TTL of zero therefore makes it start again with the records behind it.
-/

namespace GloryHole.Cache

open Go Dns Support.Lists
open Config (CacheConfig)

theorem minAnswerTTL_append_zero {rr : RR} (hzero : rr.ttl = 0) (front rest : List RR) :
    minAnswerTTL (front ++ rr :: rest) = minAnswerTTL rest := by
  rw [minAnswerTTL, List.foldl_append, List.foldl_cons, hzero]
  split
  · rfl
  · rename_i hleast
    rw [not_or, UInt32.not_lt, UInt32.le_iff_toNat_le] at hleast
    exact absurd (UInt32.toNat_inj.mp (Nat.le_zero.mp hleast.2)) hleast.1

theorem foldl_ttl (rest : List RR) {first : RR} (h : ∀ rr ∈ first :: rest, rr.ttl ≠ 0) :
    rest.foldl (fun least rr => if least = 0 ∨ rr.ttl < least then rr.ttl else least) first.ttl =
      (rest.foldl (fun best rr => if rr.ttl.toNat < best.ttl.toNat then rr else best)
        first).ttl := by
  induction rest generalizing first with
  | nil => rfl
  | cons second rest ih =>
    rw [List.forall_mem_cons, List.forall_mem_cons] at h
    simp only [List.foldl_cons, h.1, false_or, UInt32.lt_iff_toNat_lt]
    split
    · exact ih (List.forall_mem_cons.mpr h.2)
    · exact ih (List.forall_mem_cons.mpr ⟨h.1, h.2.2⟩)

theorem minAnswerTTL_of_positive {answer : List RR} (h : ∀ rr ∈ answer, rr.ttl ≠ 0)
    (hne : answer ≠ []) :
    ∃ rr ∈ answer, minAnswerTTL answer = rr.ttl ∧ ∀ other ∈ answer, rr.ttl ≤ other.ttl := by
  cases answer with
  | nil => exact absurd rfl hne
  | cons first rest =>
    obtain ⟨hmem, hleast⟩ := foldl_least (fun rr => rr.ttl.toNat) rest first
    refine ⟨_, hmem, foldl_ttl rest h, ?_⟩
    intro other hother
    exact UInt32.le_iff_toNat_le.mpr (hleast other hother)

theorem exists_last_zero {answer : List RR} (h : ¬ ∀ rr ∈ answer, rr.ttl ≠ 0) :
    ∃ front rr rest, answer = front ++ rr :: rest ∧ rr.ttl = 0 ∧ ∀ rr ∈ rest, rr.ttl ≠ 0 := by
  induction answer with
  | nil => simp at h
  | cons first answer ih =>
    by_cases hrest : ∀ rr ∈ answer, rr.ttl ≠ 0
    · refine ⟨[], first, answer, rfl, ?_, hrest⟩
      by_contra hfirst
      exact h (List.forall_mem_cons.mpr ⟨hfirst, hrest⟩)
    · obtain ⟨front, rr, rest, rfl, hrr⟩ := ih hrest
      exact ⟨first :: front, rr, rest, rfl, hrr⟩

/-- The answer is kept for the least TTL of its records, limited to the configured range. -/
def LeastLifetime (cfg : CacheConfig) (resp : Msg) : Prop :=
  ∃ rr ∈ resp.answer, (∀ other ∈ resp.answer, rr.ttl ≤ other.ttl) ∧
    determineTTL cfg resp = max cfg.minTTL (min cfg.maxTTL (rr.ttl.toNat * second))

/-- The last zero TTL does not show: the records behind it give the least lifetime as well. -/
def ZeroHidden (cfg : CacheConfig) (answer : List RR) : Prop :=
  ∃ front rr rest, answer = front ++ rr :: rest ∧ rr.ttl = 0 ∧ (∀ rr ∈ rest, rr.ttl ≠ 0) ∧
    ((rest = [] ∧ cfg.negativeTTL = cfg.minTTL) ∨
      (rest ≠ [] ∧ (cfg.minTTL = cfg.maxTTL ∨
        ∃ rr ∈ rest, rr.ttl.toNat * second ≤ cfg.minTTL)))

section Positive

variable {cfg : CacheConfig} {resp : Msg}

theorem determineTTL_of_least (hpositive : resp.rcode ≠ rcodeNameError ∧ resp.answer ≠ [])
    (hmax : cfg.minTTL ≤ cfg.maxTTL) {rr : RR} (hmin : minAnswerTTL resp.answer = rr.ttl)
    (hrr : rr.ttl ≠ 0) :
    determineTTL cfg resp = max cfg.minTTL (min cfg.maxTTL (rr.ttl.toNat * second)) := by
  rw [determineTTL, if_neg (not_or.mpr hpositive)]
  simp only [hmin, if_neg hrr]
  split_ifs <;> omega

theorem leastLifetime_iff_of_zero {rr : RR} (hrr : rr ∈ resp.answer) (hzero : rr.ttl = 0)
    (hmin : 0 < cfg.minTTL) :
    LeastLifetime cfg resp ↔ determineTTL cfg resp = cfg.minTTL := by
  have hclamp : max cfg.minTTL (min cfg.maxTTL (((0 : UInt32).toNat : Int) * second)) =
      cfg.minTTL := by
    rw [UInt32.toNat_zero]
    omega
  constructor
  · rintro ⟨other, -, hleast, hkept⟩
    have hother : other.ttl = 0 := by
      have hle := hleast rr hrr
      rw [hzero, UInt32.le_iff_toNat_le] at hle
      exact UInt32.toNat_inj.mp (Nat.le_zero.mp hle)
    rw [hkept, hother, hclamp]
  · intro hkept
    refine ⟨rr, hrr, ?_, by rw [hkept, hzero, hclamp]⟩
    intro other _
    rw [hzero, UInt32.le_iff_toNat_le]
    exact Nat.zero_le _

/-- A positive answer is kept for its least TTL exactly if no TTL is zero or the last zero does not
show. -/
theorem determineTTL_least_iff (hpositive : resp.rcode ≠ rcodeNameError ∧ resp.answer ≠ [])
    (hmin : 0 < cfg.minTTL) (hmax : cfg.minTTL ≤ cfg.maxTTL) :
    LeastLifetime cfg resp ↔
      (∀ rr ∈ resp.answer, rr.ttl ≠ 0) ∨ ZeroHidden cfg resp.answer := by
  have hlast {front rest : List RR} {rr : RR} (hanswer : resp.answer = front ++ rr :: rest)
      (hzero : rr.ttl = 0) (hrest : ∀ rr ∈ rest, rr.ttl ≠ 0) :
      LeastLifetime cfg resp ↔ (rest = [] ∧ cfg.negativeTTL = cfg.minTTL) ∨
        (rest ≠ [] ∧ (cfg.minTTL = cfg.maxTTL ∨
          ∃ rr ∈ rest, rr.ttl.toNat * second ≤ cfg.minTTL)) := by
    have hsame : minAnswerTTL resp.answer = minAnswerTTL rest := by
      rw [hanswer, minAnswerTTL_append_zero hzero]
    rw [leastLifetime_iff_of_zero (by simp [hanswer]) hzero hmin]
    by_cases hne : rest = []
    · have hkept : determineTTL cfg resp = cfg.negativeTTL := by
        rw [determineTTL, if_neg (not_or.mpr hpositive), hsame, hne]
        rfl
      simp [hkept, hne]
    · obtain ⟨least, hmem, heq, hleast⟩ := minAnswerTTL_of_positive hrest hne
      rw [determineTTL_of_least hpositive hmax (hsame.trans heq) (hrest least hmem)]
      have hexists : (∃ rr ∈ rest, rr.ttl.toNat * second ≤ cfg.minTTL) ↔
          least.ttl.toNat * second ≤ cfg.minTTL := by
        constructor
        · rintro ⟨rr, hrr, hle⟩
          have hnat := UInt32.le_iff_toNat_le.mp (hleast rr hrr)
          rw [second] at hle ⊢
          omega
        · intro hle
          exact ⟨least, hmem, hle⟩
      simp only [hne, false_and, ne_eq, not_false_eq_true, true_and, false_or, hexists]
      omega
  by_cases hall : ∀ rr ∈ resp.answer, rr.ttl ≠ 0
  · obtain ⟨rr, hrr, heq, hleast⟩ := minAnswerTTL_of_positive hall hpositive.2
    refine iff_of_true ⟨rr, hrr, hleast, ?_⟩ (Or.inl hall)
    exact determineTTL_of_least hpositive hmax heq (hall rr hrr)
  · rw [or_iff_right hall]
    constructor
    · intro h
      obtain ⟨front, rr, rest, hanswer, hzero, hrest⟩ := exists_last_zero hall
      exact ⟨front, rr, rest, hanswer, hzero, hrest, (hlast hanswer hzero hrest).mp h⟩
    · rintro ⟨front, rr, rest, hanswer, hzero, hrest, hhidden⟩
      exact (hlast hanswer hzero hrest).mpr hhidden

end Positive

def answeredWith (ttls : List UInt32) : Msg :=
  { answer := ttls.map fun ttl => ⟨lit "host.home.", 1, 1, ttl, []⟩ }

def hourConfig : CacheConfig :=
  { enabled := true, maxEntries := 10, minTTL := 60 * second, maxTTL := 3600 * second }

theorem determineTTL_least_iff_hour : LeastLifetime hourConfig (answeredWith [300, 120]) :=
  (determineTTL_least_iff (by decide) (by decide) (by decide)).mpr (Or.inl (by decide))

/-- The order of the records decides, and a zero TTL is kept for the hour of the record behind. -/
theorem zero_ttl_kept_for_an_hour :
    0 < hourConfig.minTTL ∧ hourConfig.minTTL ≤ hourConfig.maxTTL ∧
      determineTTL hourConfig (answeredWith [0, 3600]) = 3600 * second ∧
      determineTTL hourConfig (answeredWith [3600, 0]) = hourConfig.negativeTTL ∧
      hourConfig.negativeTTL ≠ hourConfig.minTTL := by
  decide +kernel

end GloryHole.Cache
