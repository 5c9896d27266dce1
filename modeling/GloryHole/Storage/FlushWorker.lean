import GloryHole.Support.Slices

/-!
# The slice of the flush worker

`flushWorker` collects queries in one slice, which it cuts to length zero after each flush and
fills again.  After a commit `flushBatch` copies it for the statistics worker, which reads the copy
later.

`received`, `flushed` and `sent` record the queries received, the batches flushed and the copies
with the batch each was made of; nothing reads them.
-/

namespace GloryHole.Storage

open Support.Slices Support.Runs

variable {α : Type}

/-- How `flushBatch` ends: with an error, with the copy sent to the statistics worker, or with the
copy used by the flush worker itself, as the storage is closed or the channel full. -/
inductive FlushOutcome where
  | failed
  | sent
  | updated
  deriving DecidableEq

structure FlushWorker (α : Type) where
  heap : Heap α
  batch : Slice
  received : List α
  flushed : List (List α)
  sent : List (Slice × List α)

inductive FlushEvent (α : Type) where
  | receive (query : α) (outcome : FlushOutcome)
  | tick (outcome : FlushOutcome)

namespace FlushWorker

def start (batchSize : Nat) : FlushWorker α :=
  let (heap, batch) := Heap.alloc [] [] batchSize
  ⟨heap, batch, [], [], []⟩

/-- `queriesCopy` is made after the commit. -/
def flushBatch (w : FlushWorker α) : FlushOutcome → FlushWorker α
  | .failed => w
  | .updated => { w with heap := (w.heap.alloc (w.heap.read w.batch) 0).1 }
  | .sent =>
    let (heap, copy) := w.heap.alloc (w.heap.read w.batch) 0
    { w with heap := heap, sent := w.sent ++ [(copy, w.heap.read w.batch)] }

def flush (w : FlushWorker α) (outcome : FlushOutcome) : FlushWorker α :=
  if w.batch.len = 0 then w
  else
    let w := { w with flushed := w.flushed ++ [w.heap.read w.batch] }.flushBatch outcome
    { w with batch := { w.batch with len := 0 } }

def receive (w : FlushWorker α) (query : α) (grown : Nat) : FlushWorker α :=
  let (heap, batch) := w.heap.append w.batch query grown
  { w with heap := heap, batch := batch, received := w.received ++ [query] }

def step (batchSize : Nat) (w : FlushWorker α) : FlushEvent α → FlushWorker α
  | .receive query outcome =>
    let w := w.receive query (2 * batchSize)
    if batchSize ≤ w.batch.len then w.flush outcome else w
  | .tick outcome => w.flush outcome

/-- The worker after the events, and after the flush for the closed channel. -/
def run (batchSize : Nat) (events : List (FlushEvent α)) (last : FlushOutcome) : FlushWorker α :=
  (exec (step batchSize) (start batchSize) events).flush last

end FlushWorker

def FlushEvent.query : FlushEvent α → Option α
  | .receive query _ => some query
  | .tick _ => none

end GloryHole.Storage
