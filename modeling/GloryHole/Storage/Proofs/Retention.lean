import GloryHole.Storage.Summaries

/-!
# Whether a cleanup keeps the right rows

The texts decide.  A row of `queries` is deleted if its date is before that of the limit, an hour if
its date is not after it, and an Unbound query if its text is below that of the limit; the last two
tables are left alone unless a query was deleted, and of the Unbound queries one batch goes at most.
-/

namespace GloryHole.Storage

open Go Support.Purge

/-! ## What is old -/

theorem oldQuery_iff (zoneName : Time → GoString) (olderThan : Time) (q : QueryLog) :
    Database.oldQuery zoneName olderThan q = decide (DateBelow q.timestamp olderThan) :=
  decide_eq_decide.mpr (lt_formatString_iff _ _ _)

theorem oldHour_iff (olderThan : Time) (r : HourStat) :
    Database.oldHour olderThan r =
      decide (DateBelow r.hour olderThan ∨ r.hour.localDay = olderThan.localDay) :=
  decide_eq_decide.mpr (formatDateTime_lt_iff _ _)

theorem oldUnbound_iff (olderThan timestamp : Time) :
    Database.oldUnbound olderThan timestamp = decide (Below timestamp olderThan) :=
  decide_eq_decide.mpr (formatRFC3339Nano_lt_iff _ _)

/-! ## What should be left -/

structure Retained (olderThan : Time) (before after : Database) : Prop where
  queries : after.queries =
    before.queries.filter fun q => !decide (q.timestamp.Before olderThan)
  hours : after.hourlyStats =
    before.hourlyStats.filter fun r => !decide (r.hour.Before olderThan)
  unbound : after.unboundQueries =
    before.unboundQueries.filter fun t => !decide (t.Before olderThan)

def CleanupRight (zoneName : Time → GoString) (faults : CleanupFaults) (db : Database)
    (olderThan : Time) : Prop :=
  ∀ orders, (db.cleanup zoneName faults orders false olderThan).1 = .ok () →
    Retained olderThan db (db.cleanup zoneName faults orders false olderThan).2

def HoursSound (fails : Bool) (olderThan : Time) (hours : List HourStat) : Prop :=
  if fails then ∀ r ∈ hours, ¬ r.hour.Before olderThan
  else ∀ r ∈ hours, (DateBelow r.hour olderThan ∨ r.hour.localDay = olderThan.localDay) ↔
    r.hour.Before olderThan

def UnboundSound (fails : Bool) (olderThan : Time) (timestamps : List Time) : Prop :=
  if fails then ∀ t ∈ timestamps, ¬ t.Before olderThan
  else (∀ t ∈ timestamps, Below t olderThan ↔ t.Before olderThan) ∧
    timestamps.countP (fun t => decide (Below t olderThan)) ≤ cleanupBatch

def datedBefore (olderThan : Time) (db : Database) : Nat :=
  db.queries.countP fun q => decide (DateBelow q.timestamp olderThan)

/-- When a cleanup leaves the right rows: a batch fails, so that it returns an error, or dates
decide as times do. -/
def CleanupSound (faults : CleanupFaults) (db : Database) (olderThan : Time) : Prop :=
  (∃ i ≤ datedBefore olderThan db / cleanupBatch, faults.interrupted i = true) ∨
    ((∀ q ∈ db.queries, DateBelow q.timestamp olderThan ↔ q.timestamp.Before olderThan) ∧
      if ∃ q ∈ db.queries, DateBelow q.timestamp olderThan then
        HoursSound faults.hours olderThan db.hourlyStats ∧
          UnboundSound faults.unbound olderThan db.unboundQueries
      else
        (∀ r ∈ db.hourlyStats, ¬ r.hour.Before olderThan) ∧
          ∀ t ∈ db.unboundQueries, ¬ t.Before olderThan)

/-! ## Each table -/

theorem filter_eq_filter_iff {ν : Type} {p q : ν → Bool} {rows : List ν} :
    rows.filter p = rows.filter q ↔ ∀ x ∈ rows, p x = q x := by
  constructor
  · intro h x hx
    have hmem : x ∈ rows.filter p ↔ x ∈ rows.filter q := by rw [h]
    simp only [List.mem_filter, hx, true_and] at hmem
    exact Bool.eq_iff_iff.mpr hmem
  · exact List.filter_congr

theorem self_eq_filter_iff {ν : Type} {old : ν → Prop} [DecidablePred old] {rows : List ν} :
    rows = rows.filter (fun x => !decide (old x)) ↔ ∀ x ∈ rows, ¬ old x := by
  rw [eq_comm, List.filter_eq_self]
  simp

theorem hours_retained_iff (fails : Bool) (olderThan : Time) (hours : List HourStat) :
    (if fails then hours else hours.filter fun r => !Database.oldHour olderThan r) =
        hours.filter (fun r => !decide (r.hour.Before olderThan)) ↔
      HoursSound fails olderThan hours := by
  unfold HoursSound
  cases fails with
  | true => exact self_eq_filter_iff
  | false =>
    simp only [Bool.false_eq_true, if_false]
    rw [filter_eq_filter_iff]
    refine forall₂_congr fun r _ => ?_
    rw [oldHour_iff, Bool.not_inj_iff, decide_eq_decide]

theorem unbound_retained_iff (fails : Bool) (olderThan : Time) (timestamps : List Time) :
    (∀ order, (if fails then timestamps else
        deleteLimit order (Database.oldUnbound olderThan) cleanupBatch timestamps) =
        timestamps.filter fun t => !decide (t.Before olderThan)) ↔
      UnboundSound fails olderThan timestamps := by
  unfold UnboundSound
  cases fails with
  | true =>
    simp only [if_true]
    rw [forall_const]
    exact self_eq_filter_iff
  | false =>
    simp only [Bool.false_eq_true, if_false]
    have hold : Database.oldUnbound olderThan = fun t => decide (Below t olderThan) :=
      funext (oldUnbound_iff olderThan)
    rw [hold, deleteLimit_eq_filter_iff cleanupBatch_pos]
    simp only [decide_eq_true_eq, Bool.not_eq_false']

theorem queries_retained_iff (zoneName : Time → GoString) (olderThan : Time)
    (queries : List QueryLog) :
    queries.filter (fun q => !Database.oldQuery zoneName olderThan q) =
        queries.filter (fun q => !decide (q.timestamp.Before olderThan)) ↔
      ∀ q ∈ queries, DateBelow q.timestamp olderThan ↔ q.timestamp.Before olderThan := by
  rw [filter_eq_filter_iff]
  refine forall₂_congr fun q _ => ?_
  rw [oldQuery_iff, Bool.not_inj_iff, decide_eq_decide]

/-! ## The outcomes -/

/-- The orphaned summaries are dropped without a change to the other tables. -/
theorem attempt_orphaned (domains clients : Bool) (db : Database) :
    let after := (db.attempt domains Database.dropOrphanedDomains).attempt clients
      Database.dropOrphanedClients
    after.queries = db.queries ∧ after.hourlyStats = db.hourlyStats ∧
      after.unboundQueries = db.unboundQueries := by
  cases domains <;> cases clients <;> exact ⟨rfl, rfl, rfl⟩

theorem attempt_old (hours unbound : Bool) (order : Nat → Nat) (olderThan : Time)
    (db : Database) :
    let after := (db.attempt hours (Database.dropOldHours olderThan)).attempt unbound
      (Database.dropOldUnbound order olderThan)
    after.queries = db.queries ∧
      after.hourlyStats = (if hours then db.hourlyStats
        else db.hourlyStats.filter fun r => !Database.oldHour olderThan r) ∧
      after.unboundQueries = (if unbound then db.unboundQueries
        else deleteLimit order (Database.oldUnbound olderThan) cleanupBatch db.unboundQueries) := by
  cases hours <;> cases unbound <;> exact ⟨rfl, rfl, rfl⟩

section Outcomes

variable {zoneName : Time → GoString} {faults : CleanupFaults} {db : Database} {olderThan : Time}

theorem countP_oldQuery :
    db.queries.countP (Database.oldQuery zoneName olderThan) = datedBefore olderThan db :=
  List.countP_congr fun q _ => by rw [oldQuery_iff]

theorem cleanup_of_interrupted
    (h : ∃ i ≤ datedBefore olderThan db / cleanupBatch, faults.interrupted i = true)
    (orders : ScanOrders) :
    (db.cleanup zoneName faults orders false olderThan).1 = .error .interrupted := by
  have hpurge : ∃ rest, purge cleanupBatch_pos (Database.oldQuery zoneName olderThan)
      faults.interrupted orders.queries 0 0 db.queries = .failed rest :=
    purge_eq_failed (by simpa only [countP_oldQuery, Nat.zero_add] using h)
  obtain ⟨rest, hfailed⟩ := hpurge
  simp [Database.cleanup, hfailed]

structure Outcome (faults : CleanupFaults) (orders : ScanOrders) (olderThan : Time)
    (zoneName : Time → GoString) (before after : Database) : Prop where
  queries : after.queries =
    before.queries.filter fun q => !Database.oldQuery zoneName olderThan q
  hours : after.hourlyStats =
    if datedBefore olderThan before = 0 ∨ faults.hours = true then before.hourlyStats
    else before.hourlyStats.filter fun r => !Database.oldHour olderThan r
  unbound : after.unboundQueries =
    if datedBefore olderThan before = 0 ∨ faults.unbound = true then before.unboundQueries
    else deleteLimit orders.unbound (Database.oldUnbound olderThan) cleanupBatch
      before.unboundQueries

theorem cleanup_of_not_interrupted
    (h : ∀ i ≤ datedBefore olderThan db / cleanupBatch, faults.interrupted i = false)
    (orders : ScanOrders) :
    (db.cleanup zoneName faults orders false olderThan).1 = .ok () ∧
      Outcome faults orders olderThan zoneName db
        (db.cleanup zoneName faults orders false olderThan).2 := by
  have hpurge : purge cleanupBatch_pos (Database.oldQuery zoneName olderThan)
      faults.interrupted orders.queries 0 0 db.queries =
      .finished (db.queries.filter fun q => !Database.oldQuery zoneName olderThan q)
        (0 + db.queries.countP (Database.oldQuery zoneName olderThan)) :=
    purge_eq_finished (by simpa only [countP_oldQuery, Nat.zero_add] using h)
  rw [countP_oldQuery, Nat.zero_add] at hpurge
  simp only [Database.cleanup, hpurge, Bool.false_eq_true, if_false]
  by_cases hzero : datedBefore olderThan db = 0
  · rw [if_pos hzero]
    exact ⟨rfl, rfl, (if_pos (Or.inl hzero)).symm, (if_pos (Or.inl hzero)).symm⟩
  · rw [if_neg hzero]
    obtain ⟨hqueries, hhours, hunbound⟩ := attempt_orphaned faults.domains faults.clients
      { db with queries := db.queries.filter fun q => !Database.oldQuery zoneName olderThan q }
    obtain ⟨hqueries', hhours', hunbound'⟩ := attempt_old faults.hours faults.unbound orders.unbound
      olderThan (Database.attempt faults.clients Database.dropOrphanedClients
        (Database.attempt faults.domains Database.dropOrphanedDomains
          { db with
            queries := db.queries.filter fun q => !Database.oldQuery zoneName olderThan q }))
    refine ⟨rfl, hqueries'.trans hqueries, ?_, ?_⟩
    · rw [hhours', hhours]
      simp only [hzero, false_or]
    · rw [hunbound', hunbound]
      simp only [hzero, false_or]

/-- The three tables can be judged one by one. -/
theorem cleanupRight_iff_tables
    (h : ∀ i ≤ datedBefore olderThan db / cleanupBatch, faults.interrupted i = false) :
    CleanupRight zoneName faults db olderThan ↔
      (db.queries.filter (fun q => !Database.oldQuery zoneName olderThan q) =
          db.queries.filter fun q => !decide (q.timestamp.Before olderThan)) ∧
        ((if datedBefore olderThan db = 0 ∨ faults.hours = true then db.hourlyStats
            else db.hourlyStats.filter fun r => !Database.oldHour olderThan r) =
          db.hourlyStats.filter fun r => !decide (r.hour.Before olderThan)) ∧
        ∀ order, (if datedBefore olderThan db = 0 ∨ faults.unbound = true then db.unboundQueries
            else deleteLimit order (Database.oldUnbound olderThan) cleanupBatch
              db.unboundQueries) =
          db.unboundQueries.filter fun t => !decide (t.Before olderThan) := by
  constructor
  · intro hright
    have hretained (order : Nat → Nat) := hright ⟨fun _ => id, order⟩
      (cleanup_of_not_interrupted h _).1
    have houtcome (order : Nat → Nat) :
        Outcome faults ⟨fun _ => id, order⟩ olderThan zoneName db _ :=
      (cleanup_of_not_interrupted h _).2
    refine ⟨?_, ?_, fun order => ?_⟩
    · rw [← (houtcome id).queries, (hretained id).queries]
    · rw [← (houtcome id).hours, (hretained id).hours]
    · rw [← (houtcome order).unbound, (hretained order).unbound]
  · rintro ⟨hqueries, hhours, hunbound⟩ orders -
    have houtcome : Outcome faults orders olderThan zoneName db _ :=
      (cleanup_of_not_interrupted h orders).2
    exact ⟨houtcome.queries.trans hqueries, houtcome.hours.trans hhours,
      houtcome.unbound.trans (hunbound orders.unbound)⟩

theorem datedBefore_eq_zero_iff :
    datedBefore olderThan db = 0 ↔ ¬ ∃ q ∈ db.queries, DateBelow q.timestamp olderThan := by
  unfold datedBefore
  rw [List.countP_eq_zero]
  simp

end Outcomes

theorem cleanupRight_iff (zoneName : Time → GoString) (faults : CleanupFaults) (db : Database)
    (olderThan : Time) :
    CleanupRight zoneName faults db olderThan ↔ CleanupSound faults db olderThan := by
  unfold CleanupSound
  by_cases hfails : ∃ i ≤ datedBefore olderThan db / cleanupBatch, faults.interrupted i = true
  · refine iff_of_true (fun orders hok => ?_) (Or.inl hfails)
    rw [cleanup_of_interrupted hfails] at hok
    cases hok
  · have hnone : ∀ i ≤ datedBefore olderThan db / cleanupBatch, faults.interrupted i = false := by
      intro i hi
      by_contra hi'
      exact hfails ⟨i, hi, by simpa using hi'⟩
    rw [cleanupRight_iff_tables hnone, or_iff_right hfails, queries_retained_iff]
    refine and_congr_right fun _ => ?_
    by_cases hsome : ∃ q ∈ db.queries, DateBelow q.timestamp olderThan
    · have hpos : datedBefore olderThan db ≠ 0 := fun hzero =>
        datedBefore_eq_zero_iff.mp hzero hsome
      rw [if_pos hsome, ← hours_retained_iff, ← unbound_retained_iff]
      simp only [hpos, false_or]
    · have hzero : datedBefore olderThan db = 0 := datedBefore_eq_zero_iff.mpr hsome
      rw [if_neg hsome]
      simp only [hzero, true_or, if_true, forall_const]
      rw [self_eq_filter_iff, self_eq_filter_iff]

def newYearContent : Database where
  queries := [⟨newYear.add (1800 * nanosPerSecond), lit "192.0.2.1", lit "example.", 0, false,
    false⟩]
  domainStats := []
  clientStats := []
  hourlyStats := [⟨newYear, 1, 0, 0, 0, 1, 1⟩]
  unboundQueries := [newYear.add (1800 * nanosPerSecond)]

/-- A cleanup at noon of the same day keeps all of them. -/
theorem cleanup_keeps_old_rows :
    ¬ CleanupRight (fun _ => lit "UTC") ⟨fun _ => false, false, false, false, false⟩ newYearContent
      ⟨63839707200, 0, 0, by decide, by decide⟩ := by
  intro hright
  have hretained := hright ⟨fun _ => id, id⟩ (cleanup_of_not_interrupted (fun _ _ => rfl) _).1
  have hqueries := hretained.queries
  rw [(cleanup_of_not_interrupted (fun _ _ => rfl) _).2.queries] at hqueries
  have hlength := congrArg List.length hqueries
  revert hlength
  decide +kernel

end GloryHole.Storage
