import GloryHole.Storage.Summaries
import GloryHole.Support.Runs

/-!
# The workers of the query log

`LogQuery` puts a query into a buffer.  The flush worker writes a batch to `queries` in a
transaction and hands a copy to the statistics worker; if the channel is full or the storage
closed, it updates the statistics of the domains itself.  The statistics worker updates the three
summary tables.  `Close` closes the channel, then the buffer, and waits for the workers.

A step gives the transaction it makes, if any.
-/

namespace GloryHole.Storage

open Go Support.Runs

/-! ## The state -/

structure Limits where
  bufferSize : Nat
  batchSize : Nat
  bufferSize_pos : 0 < bufferSize
  batchSize_pos : 0 < batchSize

def Limits.validate (bufferSize batchSize : Int) : Limits where
  bufferSize := if bufferSize < 1 then 100 else bufferSize.toNat
  batchSize := if batchSize < 1 then 100 else batchSize.toNat
  bufferSize_pos := by split <;> omega
  batchSize_pos := by split <;> omega

def statsCapacity : Nat := 100

inductive FlushPhase where
  | collecting
  | flushing (last : Bool)
  | sending (last : Bool) (queriesCopy : List QueryLog)
  | updating (last : Bool) (queriesCopy : List QueryLog)
  | done
  deriving DecidableEq

inductive StatsPhase where
  | idle
  | updating (next : Summary) (batch : List QueryLog)
  | done
  deriving DecidableEq

structure Pipeline where
  buffer : List QueryLog
  batch : List QueryLog
  flush : FlushPhase
  domainStatsCh : List (List QueryLog)
  stats : StatsPhase
  closed : Bool
  bufferClosed : Bool
  closeReturned : Bool
  deriving DecidableEq

def Pipeline.opened : Pipeline := ⟨[], [], .collecting, [], .idle, false, false, false⟩

/-! ## Steps -/

inductive Event where
  -- A call of `LogQuery`, the clock, and if its `select` chooses `ctx.Done()`.
  | logQuery (query : QueryLog) (now : Time) (cancelled : Bool)
  -- The flush worker receives from the buffer or finds it closed.
  | receive
  | tick
  -- The transaction of `flushBatch` is committed, or it fails.
  | insert
  | abort
  -- The hand-over under the read lock, and the update in its place.
  | send
  | update (rank : GoString → Nat)
  -- The statistics worker takes a batch or finds the channel closed; it updates a table.
  | take
  | count (rank : GoString → Nat)
  -- `Close` up to its unlocking, the closing of the buffer, and the end of its waiting.
  | close
  | closeBuffer
  | closeReturn

inductive LogError where
  | closed
  | cancelled
  | bufferFull
  deriving DecidableEq

namespace Pipeline

def logQuery (limits : Limits) (s : Pipeline) (query : QueryLog) (now : Time) (cancelled : Bool) :
    Except LogError Pipeline :=
  if s.closed then .error .closed
  else
    let query := if query.timestamp.isZero then { query with timestamp := now } else query
    if cancelled then .error .cancelled
    else if s.buffer.length < limits.bufferSize then .ok { s with buffer := s.buffer ++ [query] }
    else .error .bufferFull

def afterFlush (last : Bool) : FlushPhase := if last then .done else .collecting

def startFlush (s : Pipeline) (last : Bool) : Pipeline :=
  { s with flush := if s.batch = [] then afterFlush last else .flushing last }

def endFlush (s : Pipeline) (last : Bool) : Pipeline :=
  { s with batch := [], flush := afterFlush last }

def receive (limits : Limits) (s : Pipeline) : Pipeline :=
  match s.flush, s.buffer with
  | .collecting, query :: rest =>
    let s := { s with buffer := rest, batch := s.batch ++ [query] }
    if limits.batchSize ≤ s.batch.length then s.startFlush false else s
  | .collecting, [] => if s.bufferClosed then s.startFlush true else s
  | _, _ => s

def send (s : Pipeline) : Pipeline :=
  match s.flush with
  | .sending last copy =>
    if s.closed then { s with flush := .updating last copy }
    else if s.domainStatsCh.length < statsCapacity then
      { s with domainStatsCh := s.domainStatsCh ++ [copy] }.endFlush last
    else { s with flush := .updating last copy }
  | _ => s

def take (s : Pipeline) : Pipeline :=
  match s.stats, s.domainStatsCh with
  | .idle, batch :: rest =>
    { s with domainStatsCh := rest, stats := .updating .domains batch }
  | .idle, [] => if s.closed then { s with stats := .done } else s
  | _, _ => s

def afterUpdate (batch : List QueryLog) : Summary → StatsPhase
  | .domains => .updating .clients batch
  | .clients => .updating .hours batch
  | .hours => .idle

def close (s : Pipeline) : Pipeline :=
  if s.closed then { s with closeReturned := true } else { s with closed := true }

def closeReturn (s : Pipeline) : Pipeline :=
  if s.bufferClosed ∧ s.flush = .done ∧ s.stats = .done then { s with closeReturned := true }
  else s

def step (limits : Limits) (s : Pipeline) : Event → Pipeline
  | .logQuery query now cancelled => (s.logQuery limits query now cancelled).toOption.getD s
  | .receive => s.receive limits
  | .tick => if s.flush = .collecting then s.startFlush false else s
  | .insert =>
    match s.flush with
    | .flushing last => { s with flush := .sending last s.batch }
    | _ => s
  | .abort =>
    match s.flush with
    | .flushing last => s.endFlush last
    | _ => s
  | .send => s.send
  | .update _ =>
    match s.flush with
    | .updating last _ => s.endFlush last
    | _ => s
  | .take => s.take
  | .count _ =>
    match s.stats with
    | .updating next batch => { s with stats := afterUpdate batch next }
    | _ => s
  | .close => s.close
  | .closeBuffer => if s.closed then { s with bufferClosed := true } else s
  | .closeReturn => s.closeReturn

def statement (s : Pipeline) : Event → Option Statement
  | .insert =>
    match s.flush with
    | .flushing _ => some (.insertQueries s.batch)
    | _ => none
  | .update rank =>
    match s.flush with
    | .updating _ copy => some (.updateStats .domains rank copy)
    | _ => none
  | .count rank =>
    match s.stats with
    | .updating next batch => some (.updateStats next rank batch)
    | _ => none
  | _ => none

def statements (limits : Limits) (s : Pipeline) : List Event → List Statement
  | [] => []
  | e :: es => (s.statement e).toList ++ statements limits (s.step limits e) es

end Pipeline

end GloryHole.Storage
