import GloryHole.Storage.Timestamps
import GloryHole.Support.Purge
import GloryHole.Support.Tally

/-!
# The query log, its summary tables and their cleanup

`queries` has a row for each logged query, and three tables count them for a domain, a client and
an hour: a batch is grouped in a Go map, and each group is merged into its row by an `INSERT` with
`ON CONFLICT DO UPDATE`.  A rank of the keys stands for the order in which the map is ranged over.

A row of `queries` is given by its query and one of `hourly_stats` by the start of its hour: their
timestamps are the texts of these times.
-/

namespace GloryHole.Storage

open Go Support.Purge Support.Tally

/-! ## Rows -/

structure QueryLog where
  timestamp : Time
  clientIP : GoString
  domain : GoString
  responseCode : Int
  blocked : Bool
  cached : Bool
  deriving DecidableEq

def QueryLog.nxdomain (q : QueryLog) : Bool := q.responseCode == 3

def QueryLog.hourText (q : QueryLog) : GoString := formatDateTime q.timestamp.hourStart

structure DomainStat where
  domain : GoString
  queryCount : Nat
  lastQueried : GoString
  firstQueried : GoString
  blocked : Bool

structure ClientStat where
  clientIP : GoString
  totalQueries : Nat
  blockedQueries : Nat
  nxdomainQueries : Nat
  firstSeen : GoString
  lastSeen : GoString

structure HourStat where
  hour : Time
  totalQueries : Nat
  blockedQueries : Nat
  cachedQueries : Nat
  nxdomainQueries : Nat
  uniqueDomains : Nat
  uniqueClients : Nat

def HourStat.hourText (r : HourStat) : GoString := formatDateTime r.hour

/-! ## Updates of a batch -/

structure DomainStatUpdate where
  domain : GoString
  count : Nat
  lastQueried : Time
  blocked : Bool

structure ClientUpdate where
  clientIP : GoString
  total : Nat
  blocked : Nat
  nxdomain : Nat
  first : Time
  last : Time

structure HourUpdate where
  hour : Time
  total : Nat
  blocked : Nat
  cached : Nat
  nxdomain : Nat
  domains : List GoString
  clients : List GoString

def laterTime (a b : Time) : Time := if a.Before b then b else a

def earlierTime (a b : Time) : Time := if b.Before a then b else a

def maxText (s t : GoString) : GoString := if s < t then t else s

def minText (s t : GoString) : GoString := if t < s then t else s

section Aggregations

-- What a location calls its zone at a time; the driver binds it with a `time.Time`.
variable (zoneName : Time → GoString)

/-- `updateDomainStats`: the first query of a domain in a batch says if it is blocked, and the
first batch if its row is. -/
def domainStats : Aggregation QueryLog GoString DomainStatUpdate DomainStat where
  one q := ⟨q.domain, 1, q.timestamp, q.blocked⟩
  groupKey := DomainStatUpdate.domain
  mergeGroup u v :=
    { u with count := u.count + v.count, lastQueried := laterTime u.lastQueried v.lastQueried }
  row u :=
    let lastQueried := formatString (zoneName u.lastQueried) u.lastQueried
    ⟨u.domain, u.count, lastQueried, lastQueried, u.blocked⟩
  key := DomainStat.domain
  mergeRow r s :=
    { r with
      queryCount := r.queryCount + s.queryCount
      lastQueried := maxText r.lastQueried s.lastQueried }
  groupKey_merge _ _ := rfl
  key_row _ := rfl
  key_merge _ _ := rfl

def clientStats : Aggregation QueryLog GoString ClientUpdate ClientStat where
  one q := ⟨q.clientIP, 1, q.blocked.toNat, q.nxdomain.toNat, q.timestamp, q.timestamp⟩
  groupKey := ClientUpdate.clientIP
  mergeGroup u v :=
    { u with
      total := u.total + v.total
      blocked := u.blocked + v.blocked
      nxdomain := u.nxdomain + v.nxdomain
      first := earlierTime u.first v.first
      last := laterTime u.last v.last }
  row u :=
    ⟨u.clientIP, u.total, u.blocked, u.nxdomain, formatTimestamp u.first, formatTimestamp u.last⟩
  key := ClientStat.clientIP
  mergeRow r s :=
    { r with
      totalQueries := r.totalQueries + s.totalQueries
      blockedQueries := r.blockedQueries + s.blockedQueries
      nxdomainQueries := r.nxdomainQueries + s.nxdomainQueries
      firstSeen := minText r.firstSeen s.firstSeen
      lastSeen := maxText r.lastSeen s.lastSeen }
  groupKey_merge _ _ := rfl
  key_row _ := rfl
  key_merge _ _ := rfl

def hourlyStats : Aggregation QueryLog GoString HourUpdate HourStat where
  one q :=
    ⟨q.timestamp.hourStart, 1, q.blocked.toNat, q.cached.toNat, q.nxdomain.toNat, [q.domain],
      [q.clientIP]⟩
  groupKey u := formatDateTime u.hour
  mergeGroup u v :=
    { u with
      total := u.total + v.total
      blocked := u.blocked + v.blocked
      cached := u.cached + v.cached
      nxdomain := u.nxdomain + v.nxdomain
      domains := u.domains ∪ v.domains
      clients := u.clients ∪ v.clients }
  row u :=
    ⟨u.hour, u.total, u.blocked, u.cached, u.nxdomain, u.domains.length, u.clients.length⟩
  key := HourStat.hourText
  mergeRow r s :=
    { r with
      totalQueries := r.totalQueries + s.totalQueries
      blockedQueries := r.blockedQueries + s.blockedQueries
      cachedQueries := r.cachedQueries + s.cachedQueries
      nxdomainQueries := r.nxdomainQueries + s.nxdomainQueries
      uniqueDomains := max r.uniqueDomains s.uniqueDomains
      uniqueClients := max r.uniqueClients s.uniqueClients }
  groupKey_merge _ _ := rfl
  key_row _ := rfl
  key_merge _ _ := rfl

end Aggregations

/-! ## Statements -/

/-- Of `unbound_queries` only the timestamps. -/
structure Database where
  queries : List QueryLog
  domainStats : List DomainStat
  clientStats : List ClientStat
  hourlyStats : List HourStat
  unboundQueries : List Time

inductive Summary where
  | domains
  | clients
  | hours
  deriving DecidableEq

inductive Statement where
  | insertQueries (batch : List QueryLog)
  | updateStats (summary : Summary) (rank : GoString → Nat) (batch : List QueryLog)

namespace Database

def empty : Database := ⟨[], [], [], [], []⟩

def updateDomainStats (zoneName : Time → GoString) (db : Database) (rank : GoString → Nat)
    (queries : List QueryLog) : Database :=
  { db with domainStats := (Storage.domainStats zoneName).post rank db.domainStats queries }

def updateClientStats (db : Database) (rank : GoString → Nat) (queries : List QueryLog) :
    Database :=
  { db with clientStats := Storage.clientStats.post rank db.clientStats queries }

def updateHourlyStats (db : Database) (rank : GoString → Nat) (queries : List QueryLog) :
    Database :=
  { db with hourlyStats := Storage.hourlyStats.post rank db.hourlyStats queries }

def apply (zoneName : Time → GoString) (db : Database) : Statement → Database
  | .insertQueries batch => { db with queries := db.queries ++ batch }
  | .updateStats .domains rank batch => db.updateDomainStats zoneName rank batch
  | .updateStats .clients rank batch => db.updateClientStats rank batch
  | .updateStats .hours rank batch => db.updateHourlyStats rank batch

def applyAll (zoneName : Time → GoString) (db : Database) (statements : List Statement) :
    Database :=
  statements.foldl (apply zoneName) db

end Database

/-! ## What the statements count -/

def Statement.committed : Statement → List QueryLog
  | .insertQueries batch => batch
  | .updateStats .. => []

def Statement.counted (summary : Summary) : Statement → List QueryLog
  | .insertQueries _ => []
  | .updateStats other _ batch => if other = summary then batch else []

def committed (statements : List Statement) : List QueryLog :=
  statements.flatMap Statement.committed

def counted (summary : Summary) (statements : List Statement) : List QueryLog :=
  statements.flatMap (Statement.counted summary)

theorem applyAll_queries (zoneName : Time → GoString) (db : Database)
    (statements : List Statement) :
    (db.applyAll zoneName statements).queries = db.queries ++ committed statements := by
  induction statements generalizing db with
  | nil => exact (List.append_nil _).symm
  | cons statement statements ih =>
    change ((db.apply zoneName statement).applyAll zoneName statements).queries = _
    rw [ih]
    unfold committed
    rw [List.flatMap_cons, ← List.append_assoc]
    congr 1
    cases statement with
    | insertQueries batch => rfl
    | updateStats summary rank batch =>
      cases summary <;> exact (List.append_nil _).symm

section Tables

variable {μ ν : Type} (zoneName : Time → GoString) (agg : Aggregation QueryLog GoString μ ν)
    (summary : Summary) (table : Database → List ν)

structure IsTable : Prop where
  own : ∀ db rank batch, table (db.apply zoneName (.updateStats summary rank batch)) =
    agg.post rank (table db) batch
  other : ∀ db statement, (∀ rank batch, statement ≠ .updateStats summary rank batch) →
    table (db.apply zoneName statement) = table db

variable {zoneName agg summary table}

theorem IsTable.applyAll_of_step (htable : IsTable zoneName agg summary table)
    (value : List ν → Nat) (grow : QueryLog → Bool)
    (hpost : ∀ rank rows batch, value (agg.post rank rows batch) = value rows + batch.countP grow)
    (db : Database) (statements : List Statement) :
    value (table (db.applyAll zoneName statements)) =
      value (table db) + (counted summary statements).countP grow := by
  induction statements generalizing db with
  | nil => rfl
  | cons statement statements ih =>
    change value (table ((db.apply zoneName statement).applyAll zoneName statements)) = _
    unfold counted at *
    rw [ih, List.flatMap_cons, List.countP_append, ← Nat.add_assoc]
    congr 1
    by_cases hown : ∃ rank batch, statement = .updateStats summary rank batch
    · obtain ⟨rank, batch, rfl⟩ := hown
      rw [htable.own, hpost, Statement.counted, if_pos rfl]
    · have hother : ∀ rank batch, statement ≠ .updateStats summary rank batch :=
        fun rank batch h => hown ⟨rank, batch, h⟩
      rw [htable.other db statement hother]
      cases statement with
      | insertQueries batch => rfl
      | updateStats kind rank batch =>
        have hkind : kind ≠ summary := by
          rintro rfl
          exact hother rank batch rfl
        rw [Statement.counted, if_neg hkind, List.countP_nil, Nat.add_zero]

variable {column : ν → Nat} {q : QueryLog → Bool}

theorem IsTable.valueAt_applyAll (htable : IsTable zoneName agg summary table)
    (hcounts : agg.Counts column q) (k : GoString) (db : Database) (statements : List Statement) :
    valueAt agg.key column k (table (db.applyAll zoneName statements)) =
      valueAt agg.key column k (table db) +
        (counted summary statements).countP fun x => decide (agg.keyOf x = k) && q x :=
  htable.applyAll_of_step (valueAt agg.key column k) _
    (fun rank rows batch => Aggregation.valueAt_post hcounts k rank rows batch) db statements

theorem IsTable.total_applyAll (htable : IsTable zoneName agg summary table)
    (hcounts : agg.Counts column q) (p : GoString → Bool) (db : Database)
    (statements : List Statement) :
    total agg.key column p (table (db.applyAll zoneName statements)) =
      total agg.key column p (table db) +
        (counted summary statements).countP fun x => p (agg.keyOf x) && q x :=
  htable.applyAll_of_step (total agg.key column p) _
    (fun rank rows batch => Aggregation.total_post hcounts p rank rows batch) db statements

end Tables

/-! ## The three tables -/

theorem isTable_domainStats (zoneName : Time → GoString) :
    IsTable zoneName (domainStats zoneName) .domains Database.domainStats where
  own _ _ _ := rfl
  other db statement hother := by
    rcases statement with batch | ⟨_ | _ | _, rank, batch⟩
    case updateStats.domains => exact absurd rfl (hother rank batch)
    all_goals rfl

theorem isTable_clientStats (zoneName : Time → GoString) :
    IsTable zoneName clientStats .clients Database.clientStats where
  own _ _ _ := rfl
  other db statement hother := by
    rcases statement with batch | ⟨_ | _ | _, rank, batch⟩
    case updateStats.clients => exact absurd rfl (hother rank batch)
    all_goals rfl

theorem isTable_hourlyStats (zoneName : Time → GoString) :
    IsTable zoneName hourlyStats .hours Database.hourlyStats where
  own _ _ _ := rfl
  other db statement hother := by
    rcases statement with batch | ⟨_ | _ | _, rank, batch⟩
    case updateStats.hours => exact absurd rfl (hother rank batch)
    all_goals rfl

theorem toNat_eq_ite (b : Bool) : b.toNat = if b then 1 else 0 := by
  cases b <;> rfl

theorem domainStats_counts (zoneName : Time → GoString) :
    (domainStats zoneName).Counts DomainStat.queryCount fun _ => true :=
  ⟨fun _ => rfl, fun _ _ => rfl, fun _ _ => rfl⟩

theorem clientStats_counts_all : clientStats.Counts ClientStat.totalQueries fun _ => true :=
  ⟨fun _ => rfl, fun _ _ => rfl, fun _ _ => rfl⟩

theorem clientStats_counts_blocked :
    clientStats.Counts ClientStat.blockedQueries QueryLog.blocked :=
  ⟨fun q => toNat_eq_ite q.blocked, fun _ _ => rfl, fun _ _ => rfl⟩

theorem clientStats_counts_nxdomain :
    clientStats.Counts ClientStat.nxdomainQueries QueryLog.nxdomain :=
  ⟨fun q => toNat_eq_ite q.nxdomain, fun _ _ => rfl, fun _ _ => rfl⟩

theorem hourlyStats_counts_all : hourlyStats.Counts HourStat.totalQueries fun _ => true :=
  ⟨fun _ => rfl, fun _ _ => rfl, fun _ _ => rfl⟩

theorem hourlyStats_counts_blocked :
    hourlyStats.Counts HourStat.blockedQueries QueryLog.blocked :=
  ⟨fun q => toNat_eq_ite q.blocked, fun _ _ => rfl, fun _ _ => rfl⟩

theorem hourlyStats_counts_cached : hourlyStats.Counts HourStat.cachedQueries QueryLog.cached :=
  ⟨fun q => toNat_eq_ite q.cached, fun _ _ => rfl, fun _ _ => rfl⟩

theorem hourlyStats_counts_nxdomain :
    hourlyStats.Counts HourStat.nxdomainQueries QueryLog.nxdomain :=
  ⟨fun q => toNat_eq_ite q.nxdomain, fun _ _ => rfl, fun _ _ => rfl⟩

/-!
## Cleanup of old rows

`Cleanup` deletes the old rows of `queries` in batches.  If there were any, it also deletes the
summaries of domains and clients without rows, the old hours and a batch of Unbound queries.

The limit is bound as a `time.Time`, which the driver writes with a blank after the date, for
`queries`, and as the text of `FormatTimestamp` for the other two tables.
-/

def cleanupBatch : Nat := 50000

theorem cleanupBatch_pos : 0 < cleanupBatch := by decide

/-- What the statements of a `Cleanup` run into: a cancelled context or an error in a batch of
`queries`, and errors of the four statements after it. -/
structure CleanupFaults where
  interrupted : Nat → Bool
  domains : Bool
  clients : Bool
  hours : Bool
  unbound : Bool

structure ScanOrders where
  queries : Nat → Nat → Nat
  unbound : Nat → Nat

inductive CleanupError where
  | closed
  | interrupted
  deriving DecidableEq

namespace Database

/-- `timestamp < ?` in `queries`, with the limit as the driver binds it. -/
def oldQuery (zoneName : Time → GoString) (olderThan : Time) (q : QueryLog) : Bool :=
  decide (formatTimestamp q.timestamp < formatString (zoneName olderThan) olderThan)

def oldHour (olderThan : Time) (r : HourStat) : Bool :=
  decide (r.hourText < formatTimestamp olderThan)

def oldUnbound (olderThan timestamp : Time) : Bool :=
  decide (formatTimestamp timestamp < formatTimestamp olderThan)

def dropOrphanedDomains (db : Database) : Database :=
  { db with domainStats := db.domainStats.filter fun r =>
      db.queries.any fun q => q.domain == r.domain }

def dropOrphanedClients (db : Database) : Database :=
  { db with clientStats := db.clientStats.filter fun r =>
      db.queries.any fun q => q.clientIP == r.clientIP }

def dropOldHours (olderThan : Time) (db : Database) : Database :=
  { db with hourlyStats := db.hourlyStats.filter fun r => !oldHour olderThan r }

def dropOldUnbound (order : Nat → Nat) (olderThan : Time) (db : Database) : Database :=
  { db with unboundQueries :=
      deleteLimit order (oldUnbound olderThan) cleanupBatch db.unboundQueries }

def attempt (fails : Bool) (statement : Database → Database) (db : Database) : Database :=
  if fails then db else statement db

def cleanup (zoneName : Time → GoString) (faults : CleanupFaults) (orders : ScanOrders)
    (closed : Bool) (db : Database) (olderThan : Time) : Except CleanupError Unit × Database :=
  if closed then (.error .closed, db)
  else
    match purge cleanupBatch_pos (oldQuery zoneName olderThan) faults.interrupted orders.queries 0 0
      db.queries with
    | .failed rows => (.error .interrupted, { db with queries := rows })
    | .finished rows totalDeleted =>
      let db := { db with queries := rows }
      if totalDeleted = 0 then (.ok (), db)
      else
        (.ok (), attempt faults.unbound (dropOldUnbound orders.unbound olderThan)
          (attempt faults.hours (dropOldHours olderThan)
            (attempt faults.clients dropOrphanedClients
              (attempt faults.domains dropOrphanedDomains db))))

end Database

end GloryHole.Storage
