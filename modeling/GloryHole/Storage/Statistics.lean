import GloryHole.Storage.Summaries

/-!
# Statistics since a time

`GetStatistics` sums up the rows of `hourly_stats` from a text on.  If there are none it counts the
rows of `queries` instead, where a `SUM` over no rows is `NULL`, which does not scan into an
integer.  Response times and rates are left out.
-/

namespace GloryHole.Storage

open Go

/-! ## Aggregates of SQL -/

/-- `SUM`, which is `NULL` over no rows. -/
def sqlSum {ν : Type} (column : ν → Nat) (rows : List ν) : Option Nat :=
  if rows.isEmpty then none else some (rows.map column).sum

def sqlMax {ν : Type} (column : ν → Nat) (rows : List ν) : Option Nat := (rows.map column).max?

def countDistinct {ν : Type} (column : ν → GoString) (rows : List ν) : Nat :=
  (rows.map column).dedup.length

theorem sqlSum_getD {ν : Type} (column : ν → Nat) (rows : List ν) :
    (sqlSum column rows).getD 0 = (rows.map column).sum := by
  unfold sqlSum
  cases rows with
  | nil | cons row rows => rfl

/-! ## `GetStatistics` -/

structure Statistics where
  totalQueries : Nat
  blockedQueries : Nat
  cachedQueries : Nat
  uniqueDomains : Nat
  uniqueClients : Nat
  deriving DecidableEq

inductive StatisticsError where
  | closed
  | queryFailed
  deriving DecidableEq

def scanInt : Option Nat → Except StatisticsError Nat
  | some n => .ok n
  | none => .error .queryFailed

namespace Database

def hourlyStatistics (db : Database) (since : Time) : Statistics :=
  let rows := db.hourlyStats.filter fun r => decide (formatTimestamp since ≤ r.hourText)
  { totalQueries := (sqlSum HourStat.totalQueries rows).getD 0
    blockedQueries := (sqlSum HourStat.blockedQueries rows).getD 0
    cachedQueries := (sqlSum HourStat.cachedQueries rows).getD 0
    uniqueDomains := (sqlMax HourStat.uniqueDomains rows).getD 0
    uniqueClients := (sqlMax HourStat.uniqueClients rows).getD 0 }

def queryStatistics (db : Database) (since : Time) : Except StatisticsError Statistics := do
  let rows := db.queries.filter fun q =>
    decide (formatTimestamp since ≤ formatTimestamp q.timestamp)
  let blocked ← scanInt (sqlSum (fun q => q.blocked.toNat) rows)
  let cached ← scanInt (sqlSum (fun q => q.cached.toNat) rows)
  return {
    totalQueries := rows.length
    blockedQueries := blocked
    cachedQueries := cached
    uniqueDomains := countDistinct QueryLog.domain rows
    uniqueClients := countDistinct QueryLog.clientIP rows }

def getStatistics (closed : Bool) (db : Database) (since : Time) :
    Except StatisticsError Statistics :=
  if closed then .error .closed
  else
    let stats := db.hourlyStatistics since
    if stats.totalQueries = 0 then db.queryStatistics since else .ok stats

/-! ## What it counts -/

def CountsOf (stats : Statistics) (rows : List QueryLog) (p : QueryLog → Bool) : Prop :=
  stats.totalQueries = rows.countP p ∧
    stats.blockedQueries = rows.countP (fun q => p q && q.blocked) ∧
    stats.cachedQueries = rows.countP (fun q => p q && q.cached)

theorem sum_toNat {ν : Type} (q : ν → Bool) (rows : List ν) :
    (rows.map fun x => (q x).toNat).sum = rows.countP q := by
  induction rows with
  | nil => rfl
  | cons row rows ih =>
    rw [List.map_cons, List.sum_cons, List.countP_cons, ih, toNat_eq_ite, Nat.add_comm]

/-- The query of the log fails exactly if it finds no row. -/
theorem queryStatistics_cases (db : Database) (since : Time) :
    (db.queries.countP (fun q => decide (formatTimestamp since ≤ formatTimestamp q.timestamp)) = 0
        ∧ db.queryStatistics since = .error .queryFailed) ∨
      (0 < db.queries.countP (fun q =>
          decide (formatTimestamp since ≤ formatTimestamp q.timestamp)) ∧
        ∃ stats, db.queryStatistics since = .ok stats ∧
          CountsOf stats db.queries fun q =>
            decide (formatTimestamp since ≤ formatTimestamp q.timestamp)) := by
  unfold queryStatistics
  generalize (fun q : QueryLog =>
    decide (formatTimestamp since ≤ formatTimestamp q.timestamp)) = p
  dsimp only
  cases hrows : db.queries.filter p with
  | nil =>
    left
    rw [List.countP_eq_length_filter, hrows]
    exact ⟨rfl, rfl⟩
  | cons row rows =>
    right
    rw [List.countP_eq_length_filter, hrows]
    refine ⟨Nat.succ_pos _, _, rfl, ?_⟩
    unfold CountsOf
    dsimp only
    rw [sum_toNat, sum_toNat, ← hrows, List.countP_filter, List.countP_filter,
      List.countP_eq_length_filter]
    simp only [Bool.and_comm, and_self]

end Database

end GloryHole.Storage
