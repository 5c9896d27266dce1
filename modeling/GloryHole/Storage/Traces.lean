import GloryHole.Storage.Summaries

/-!
# Traces of blocked queries

A blocked query may have a trace, which the database keeps as JSON; `unmarshal` reads it.  Queries
are searched by their traces row by row, where a row that does not scan is passed over.
-/

namespace GloryHole.Storage

open Go

structure BlockTraceEntry where
  stage : GoString
  action : GoString
  rule : GoString
  source : GoString
  deriving DecidableEq

structure TraceFilter where
  stage : GoString
  action : GoString
  rule : GoString
  source : GoString

structure TraceRow where
  id : Nat
  log : QueryLog
  blockTrace : Option GoString

structure TracedQuery where
  id : Nat
  log : QueryLog
  blockTrace : List BlockTraceEntry
  deriving DecidableEq

variable (unmarshal : GoString → Option (List BlockTraceEntry))

/-! ## Searching -/

inductive QueryColumn where
  | id | timestamp | clientIP | domain | queryType | responseCode | blocked | cached
  | responseTimeMs | upstream | upstreamTimeMs | blockTrace | upstreamError | dnssecValidated

def selectedColumns : List QueryColumn :=
  [.id, .timestamp, .clientIP, .domain, .queryType, .responseCode, .blocked, .cached,
    .responseTimeMs, .upstream, .upstreamTimeMs, .blockTrace, .upstreamError, .dnssecValidated]

def destinations : List QueryColumn :=
  [.id, .timestamp, .clientIP, .domain, .queryType, .responseCode, .blocked, .cached,
    .responseTimeMs, .upstream, .upstreamTimeMs, .blockTrace]

/-- `rows.Scan`, which wants a destination for each column. -/
def scanRow (row : TraceRow) : Option TraceRow :=
  if destinations.length = selectedColumns.length then some row else none

def TraceRow.traces (row : TraceRow) : Option (List BlockTraceEntry) :=
  match row.blockTrace with
  | some json => if json ≠ [] then unmarshal json else some []
  | none => some []

def TraceFilter.holds (filter : TraceFilter) (trace : BlockTraceEntry) : Bool :=
  (filter.stage = [] ∨ trace.stage = filter.stage) ∧
    (filter.action = [] ∨ trace.action = filter.action) ∧
    (filter.rule = [] ∨ trace.rule = filter.rule) ∧
    (filter.source = [] ∨ trace.source = filter.source)

def matchesFilter (traces : List BlockTraceEntry) (filter : TraceFilter) : Bool :=
  if filter.stage = [] ∧ filter.action = [] ∧ filter.rule = [] ∧ filter.source = [] then true
  else traces.any filter.holds

/-- What the loop makes of a row: `none` if it goes on to the next one. -/
def found (scan : TraceRow → Option TraceRow) (filter : TraceFilter) (row : TraceRow) :
    Option TracedQuery :=
  (scan row).bind fun row => (row.traces unmarshal).bind fun traces =>
    if matchesFilter traces filter then some ⟨row.id, row.log, traces⟩ else none

def filterLoop (scan : TraceRow → Option TraceRow) (filter : TraceFilter) (limit offset : Nat) :
    List TraceRow → Nat → List TracedQuery → List TracedQuery
  | [], _, queries => queries
  | row :: rows, skipped, queries =>
    match found unmarshal scan filter row with
    | none => filterLoop scan filter limit offset rows skipped queries
    | some q =>
      if skipped < offset then filterLoop scan filter limit offset rows (skipped + 1) queries
      else if (queries ++ [q]).length ≥ limit then queries ++ [q]
      else filterLoop scan filter limit offset rows skipped (queries ++ [q])

def maxScanRows : Nat := 10000

def newestTraced (rows : List TraceRow) : List TraceRow :=
  ((rows.filter fun row => row.log.blocked && row.blockTrace.isSome).insertionSort fun a b =>
    formatTimestamp b.log.timestamp ≤ formatTimestamp a.log.timestamp).take maxScanRows

def getQueriesWithTraceFilter (rows : List TraceRow) (filter : TraceFilter) (limit offset : Nat) :
    List TracedQuery :=
  filterLoop unmarshal scanRow filter limit offset (newestTraced rows) 0 []

/-- The loop drops `offset` of the rows it finds and takes `limit` of the others. -/
theorem filterLoop_eq {scan : TraceRow → Option TraceRow} {filter : TraceFilter}
    {limit offset : Nat} (rows : List TraceRow) {skipped : Nat} {queries : List TracedQuery}
    (hlimit : queries.length < limit) :
    filterLoop unmarshal scan filter limit offset rows skipped queries = queries ++
      ((rows.filterMap (found unmarshal scan filter)).drop (offset - skipped)).take
        (limit - queries.length) := by
  induction rows generalizing skipped queries with
  | nil => simp [filterLoop]
  | cons row rows ih =>
    rw [filterLoop, List.filterMap_cons]
    cases found unmarshal scan filter row with
    | none => exact ih hlimit
    | some q =>
      dsimp only
      by_cases hskip : skipped < offset
      · rw [if_pos hskip, ih hlimit, show offset - skipped = offset - (skipped + 1) + 1 by omega,
          List.drop_succ_cons]
      · rw [if_neg hskip, show offset - skipped = 0 by omega, List.drop_zero,
          show limit - queries.length = limit - (queries ++ [q]).length + 1 by
            rw [List.length_append, List.length_singleton]; omega, List.take_succ_cons]
        split
        case isTrue hfull => rw [Nat.sub_eq_zero_of_le hfull, List.take_zero]
        case isFalse hroom =>
          rw [ih (Nat.lt_of_not_le hroom), show offset - skipped = 0 by omega, List.drop_zero,
            List.append_assoc]
          rfl

/-- What should be found: the page of the newest rows with an entry that the filter holds of. -/
def expectedPage (rows : List TraceRow) (filter : TraceFilter) (limit offset : Nat) :
    List TracedQuery :=
  (((newestTraced rows).filterMap fun row => (row.traces unmarshal).bind fun traces =>
      if traces.any filter.holds then some ⟨row.id, row.log, traces⟩ else none).drop offset).take
    limit

/-- There are fewer destinations than columns, so no row is ever found. -/
theorem trace_filter_right_iff (rows : List TraceRow) (filter : TraceFilter) {limit : Nat}
    (hlimit : 1 ≤ limit) (offset : Nat) :
    getQueriesWithTraceFilter unmarshal rows filter limit offset =
        expectedPage unmarshal rows filter limit offset ↔
      expectedPage unmarshal rows filter limit offset = [] := by
  have hnone : (newestTraced rows).filterMap (found unmarshal scanRow filter) = [] :=
    List.filterMap_eq_nil_iff.mpr fun row _ => rfl
  rw [getQueriesWithTraceFilter, filterLoop_eq unmarshal _ hlimit, hnone, List.nil_append,
    List.drop_nil, List.take_nil, eq_comm]

def tracedRow : TraceRow := ⟨1, ⟨newYear, [], lit "ads.test", 0, true, false⟩, some (lit "t")⟩

theorem trace_filter_right_beyond :
    getQueriesWithTraceFilter (fun _ => some []) [tracedRow] ⟨lit "b", [], [], []⟩ 1 0 =
      expectedPage (fun _ => some []) [tracedRow] ⟨lit "b", [], [], []⟩ 1 0 :=
  (trace_filter_right_iff (fun _ => some []) [tracedRow] ⟨lit "b", [], [], []⟩ (le_refl 1) 0).mpr
    (by decide +kernel)

/-- A row with a trace of the blocklist is not found by its stage. -/
theorem trace_filter_finds_nothing :
    let unmarshal := fun _ : GoString => some [⟨lit "b", lit "block", [], []⟩]
    getQueriesWithTraceFilter unmarshal [tracedRow] ⟨lit "b", [], [], []⟩ 1 0 = [] ∧
      (expectedPage unmarshal [tracedRow] ⟨lit "b", [], [], []⟩ 1 0).length = 1 := by
  decide +kernel

end GloryHole.Storage
