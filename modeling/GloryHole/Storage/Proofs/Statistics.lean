import GloryHole.Storage.Proofs.Accounting
import GloryHole.Storage.Statistics
import GloryHole.Support.Lists

/-!
# Whether the statistics are right

The hours are texts with a blank where the limit has a `T`, so `GetStatistics` sums up the rows of
a later date than the limit.  Besides, a committed query may not be counted yet, or never.  If no
row is left, the log is asked by the exact time, and if that finds nothing, the call fails.
-/

namespace GloryHole.Storage

open Go Support.Runs Support.Tally

/-! ## Reachable contents -/

def history (sessions : List (Limits × List Event)) : List Statement :=
  sessions.flatMap fun session => Pipeline.opened.statements session.1 session.2

def contentOf (zoneName : Time → GoString) (sessions : List (Limits × List Event)) : Database :=
  Database.empty.applyAll zoneName (history sessions)

theorem countP_counted_le (limits : Limits) (summary : Summary) (p : QueryLog → Bool)
    (run : List Event) :
    (counted summary (Pipeline.opened.statements limits run)).countP p ≤
      (committed (Pipeline.opened.statements limits run)).countP p := by
  have hconserves := Pipeline.run_conserves limits summary p Pipeline.opened run
  have hopened : Pipeline.opened.awaiting summary = [] := rfl
  rw [hopened, List.countP_nil] at hconserves
  omega

/-- Only committed queries are counted. -/
theorem countP_counted_history_le (summary : Summary) (p : QueryLog → Bool)
    (sessions : List (Limits × List Event)) :
    (counted summary (history sessions)).countP p ≤ (committed (history sessions)).countP p := by
  induction sessions with
  | nil => exact Nat.le_refl 0
  | cons session sessions ih =>
    have hfirst := countP_counted_le session.1 summary p session.2
    unfold history counted committed at *
    simp only [List.flatMap_cons, List.flatMap_append, List.countP_append]
    omega

def standings (statements : List Statement) : List (QueryLog × Bool) :=
  (counted .hours statements).map (fun q => (q, true)) ++
    ((committed statements).diff (counted .hours statements)).map fun q => (q, false)

theorem countP_standings (sessions : List (Limits × List Event)) (p : QueryLog → Bool) :
    (standings (history sessions)).countP (fun e => p e.1) =
      (committed (history sessions)).countP p := by
  have hperm : (counted .hours (history sessions) ++
      (committed (history sessions)).diff (counted .hours (history sessions))).Perm
      (committed (history sessions)) := by
    apply List.subperm_append_diff_self_of_count_le
    intro q _
    exact countP_counted_history_le .hours (· == q) sessions
  unfold standings
  rw [List.countP_append, List.countP_map, List.countP_map, ← hperm.countP_eq, List.countP_append]
  rfl

theorem countP_standings_counted (statements : List Statement) (p : QueryLog → Bool) :
    (standings statements).countP (fun e => e.2 && p e.1) =
      (counted .hours statements).countP p := by
  unfold standings
  rw [List.countP_append, List.countP_map, List.countP_map]
  simp [Function.comp_def]

/-! ## What is asked for and what is counted -/

def fromHour (since : Time) (q : QueryLog) : Bool :=
  decide (¬ q.timestamp.hourStart.Before since.hourStart)

/-- The call succeeds with the counts of the committed queries from the hour of the limit on. -/
def StatisticsRight (db : Database) (since : Time) : Prop :=
  ∃ stats, db.getStatistics false since = .ok stats ∧
    Database.CountsOf stats db.queries (fromHour since)

def inLaterHour (since : Time) (e : QueryLog × Bool) : Bool :=
  e.2 && decide (DateBelow since e.1.timestamp.hourStart)

def inLog (since : Time) (e : QueryLog × Bool) : Bool := decide (¬ Below e.1.timestamp since)

/-- As many queries are missed as are counted without being asked for, of those that meet `q`. -/
def Evens (since : Time) (shown : QueryLog × Bool → Bool) (q : QueryLog → Bool)
    (entries : List (QueryLog × Bool)) : Prop :=
  entries.countP (fun e => q e.1 && fromHour since e.1 && !shown e) =
    entries.countP (fun e => q e.1 && shown e && !fromHour since e.1)

def EvensAll (since : Time) (shown : QueryLog × Bool → Bool)
    (entries : List (QueryLog × Bool)) : Prop :=
  Evens since shown (fun _ => true) entries ∧ Evens since shown QueryLog.blocked entries ∧
    Evens since shown QueryLog.cached entries

def StatisticsSound (since : Time) (entries : List (QueryLog × Bool)) : Prop :=
  if ∃ e ∈ entries, inLaterHour since e = true then EvensAll since (inLaterHour since) entries
  else (∃ e ∈ entries, inLog since e = true) ∧ EvensAll since (inLog since) entries

theorem evens_iff (since : Time) (shown : QueryLog × Bool → Bool) (q : QueryLog → Bool)
    (entries : List (QueryLog × Bool)) :
    Evens since shown q entries ↔
      entries.countP (fun e => shown e && q e.1) =
        entries.countP (fun e => fromHour since e.1 && q e.1) := by
  have hmissed : ∀ e : QueryLog × Bool, (q e.1 && fromHour since e.1 && !shown e) =
      (fromHour since e.1 && q e.1 && !(shown e && q e.1)) := fun e => by
    cases q e.1 <;> cases fromHour since e.1 <;> cases shown e <;> rfl
  have hextra : ∀ e : QueryLog × Bool, (q e.1 && shown e && !fromHour since e.1) =
      (shown e && q e.1 && !(fromHour since e.1 && q e.1)) := fun e => by
    cases q e.1 <;> cases fromHour since e.1 <;> cases shown e <;> rfl
  unfold Evens
  simp only [hmissed, hextra]
  exact (Support.Lists.countP_eq_iff _ _ entries).symm

theorem evens_all_iff (since : Time) (shown : QueryLog × Bool → Bool)
    (entries : List (QueryLog × Bool)) :
    Evens since shown (fun _ => true) entries ↔
      entries.countP shown = entries.countP (fun e => fromHour since e.1) := by
  rw [evens_iff]
  simp only [Bool.and_true]

/-- Counts over the entries are the counts over the committed queries. -/
theorem countsOf_iff_evensAll {since : Time} {shown : QueryLog × Bool → Bool}
    (sessions : List (Limits × List Event)) {stats : Statistics}
    (htotal : stats.totalQueries = (standings (history sessions)).countP shown)
    (hblocked : stats.blockedQueries =
      (standings (history sessions)).countP fun e => shown e && e.1.blocked)
    (hcached : stats.cachedQueries =
      (standings (history sessions)).countP fun e => shown e && e.1.cached) :
    Database.CountsOf stats (committed (history sessions)) (fromHour since) ↔
      EvensAll since shown (standings (history sessions)) := by
  unfold Database.CountsOf EvensAll
  rw [evens_all_iff, evens_iff, evens_iff, htotal, hblocked, hcached, ← countP_standings,
    ← countP_standings, ← countP_standings]

/-! ## The hours -/

theorem hourText_from_iff (since : Time) (q : QueryLog) :
    formatTimestamp since ≤ q.hourText ↔ DateBelow since q.timestamp.hourStart :=
  le_formatDateTime_iff _ _

/-- A sum over the hours from a text on counts the queries of a later date. -/
theorem sum_hours_eq (zoneName : Time → GoString) (statements : List Statement) (since : Time)
    {column : HourStat → Nat} {q : QueryLog → Bool} (hcounts : hourlyStats.Counts column q) :
    (sqlSum column ((Database.empty.applyAll zoneName statements).hourlyStats.filter fun r =>
        decide (formatTimestamp since ≤ r.hourText))).getD 0 =
      (standings statements).countP fun e => inLaterHour since e && q e.1 := by
  have htotal := (isTable_hourlyStats zoneName).total_applyAll hcounts
    (fun k => decide (formatTimestamp since ≤ k)) .empty statements
  have hkey : ∀ x, (decide (formatTimestamp since ≤ hourlyStats.keyOf x) && q x) =
      (decide (DateBelow since x.timestamp.hourStart) && q x) := fun x => by
    rw [← decide_eq_decide.mpr (hourText_from_iff since x)]
    rfl
  rw [sqlSum_getD]
  refine htotal.trans ?_
  rw [← countP_standings_counted]
  simp only [hkey, inLaterHour, Bool.and_assoc]
  exact Nat.zero_add _

section Content

variable (zoneName : Time → GoString) (sessions : List (Limits × List Event)) (since : Time)

theorem content_queries : (contentOf zoneName sessions).queries = committed (history sessions) :=
  applyAll_queries zoneName .empty _

theorem hourly_total :
    ((contentOf zoneName sessions).hourlyStatistics since).totalQueries =
      (standings (history sessions)).countP (inLaterHour since) := by
  refine (sum_hours_eq zoneName (history sessions) since hourlyStats_counts_all).trans ?_
  simp only [Bool.and_true]

theorem hourly_countsOf_iff :
    Database.CountsOf ((contentOf zoneName sessions).hourlyStatistics since)
        (committed (history sessions)) (fromHour since) ↔
      EvensAll since (inLaterHour since) (standings (history sessions)) :=
  countsOf_iff_evensAll sessions (hourly_total zoneName sessions since)
    (sum_hours_eq zoneName (history sessions) since hourlyStats_counts_blocked)
    (sum_hours_eq zoneName (history sessions) since hourlyStats_counts_cached)

/-! ## The log -/

theorem inLog_iff (q : QueryLog) :
    decide (formatTimestamp since ≤ formatTimestamp q.timestamp) =
      decide (¬ Below q.timestamp since) := by
  apply decide_eq_decide.mpr
  rw [← List.not_lt]
  exact not_congr (formatRFC3339Nano_lt_iff _ _)

theorem queryStatistics_right_iff :
    (∃ stats, (contentOf zoneName sessions).queryStatistics since = .ok stats ∧
        Database.CountsOf stats (committed (history sessions)) (fromHour since)) ↔
      (∃ e ∈ standings (history sessions), inLog since e = true) ∧
        EvensAll since (inLog since) (standings (history sessions)) := by
  have hcases := (contentOf zoneName sessions).queryStatistics_cases since
  rw [content_queries] at hcases
  simp only [inLog_iff] at hcases
  have hcount : (committed (history sessions)).countP
      (fun q => decide (¬ Below q.timestamp since)) =
      (standings (history sessions)).countP (inLog since) :=
    (countP_standings sessions _).symm
  rw [hcount] at hcases
  rcases hcases with ⟨hnone, herror⟩ | ⟨hsome, stats, hok, htotal, hblocked, hcached⟩
  · rw [herror]
    constructor
    · rintro ⟨stats, hok, _⟩
      cases hok
    · rintro ⟨hex, _⟩
      exact absurd (List.countP_pos_iff.mpr hex) (by omega)
  · have hiff : Database.CountsOf stats (committed (history sessions)) (fromHour since) ↔
        EvensAll since (inLog since) (standings (history sessions)) :=
    countsOf_iff_evensAll sessions
      (htotal.trans (countP_standings sessions _).symm)
      (hblocked.trans (countP_standings sessions _).symm)
      (hcached.trans (countP_standings sessions _).symm)
    rw [hok, ← hiff]
    constructor
    · rintro ⟨other, hother, hcounts⟩
      cases hother
      exact ⟨List.countP_pos_iff.mp hsome, hcounts⟩
    · rintro ⟨_, hcounts⟩
      exact ⟨stats, rfl, hcounts⟩

theorem statisticsRight_iff :
    StatisticsRight (contentOf zoneName sessions) since ↔
      StatisticsSound since (standings (history sessions)) := by
  unfold StatisticsRight StatisticsSound Database.getStatistics
  simp only [Bool.false_eq_true, if_false]
  have htotal := hourly_total zoneName sessions since
  rw [content_queries]
  by_cases hlater : ∃ e ∈ standings (history sessions), inLaterHour since e = true
  · have hpos := List.countP_pos_iff.mpr hlater
    rw [if_pos hlater, if_neg (by omega), ← hourly_countsOf_iff zoneName]
    constructor
    · rintro ⟨stats, hok, hcounts⟩
      cases hok
      exact hcounts
    · intro hcounts
      exact ⟨_, rfl, hcounts⟩
  · have hzero := mt List.countP_pos_iff.mp hlater
    rw [if_neg hlater, if_pos (by omega)]
    exact queryStatistics_right_iff zoneName sessions since

end Content

def twoDaysRun : List Event :=
  [.logQuery newYearQuery newYear false,
    .logQuery { newYearQuery with timestamp := newYear.add (24 * nanosPerHour) } newYear false,
    .receive, .receive, .tick, .insert, .send, .take, .count fun _ => 0, .count fun _ => 0,
    .count fun _ => 0]

/-- Both queries are committed and counted, and the statistics since New Year show one. -/
theorem statistics_miss_rest_of_day :
    ¬ StatisticsRight (contentOf (fun _ => []) [(.validate 0 0, twoDaysRun)]) newYear := by
  rintro ⟨stats, hok, hcounts⟩
  have hshown : (contentOf (fun _ => []) [(.validate 0 0, twoDaysRun)]).getStatistics false
      newYear = .ok ⟨1, 1, 0, 1, 1⟩ := by
    decide +kernel
  rw [hshown] at hok
  cases hok
  have htotal := hcounts.1
  revert htotal
  decide +kernel

end GloryHole.Storage
