import GloryHole.Support.Threads

/-!
# Closing the storage

Three kinds of calls send on a channel: `LogQuery` and `flushBatch` under the read lock under which
they have checked that the storage is open, and `LogUnboundQuery` after it has released that lock.
`Close` marks the storage as closed and closes the channel of the statistics under the lock, and
the two buffers after it.  The calls are cut at every access to what they share.
-/

namespace GloryHole.Storage

open Support.Threads

inductive Channel where
  | buffer
  | unboundBuffer
  | domainStatsCh
  deriving DecidableEq

/-- The flag, the channels that are closed, and if something has been sent on a closed one. -/
structure Gate where
  closed : Bool
  shut : Channel → Bool
  sentAfterClose : Bool

inductive SenderPc where
  | start
  | locked
  | checked
  | released
  | unlocking
  | done
  deriving DecidableEq

inductive CloserPc where
  | start
  | locked
  | marked
  | statsClosed
  | unlocked
  | bufferClosed
  | done
  deriving DecidableEq

inductive Caller where
  | sender (ch : Channel) (pc : SenderPc)
  | closer (pc : CloserPc)
  deriving DecidableEq

def Gate.send (g : Gate) (ch : Channel) : Gate :=
  { g with sentAfterClose := g.sentAfterClose || g.shut ch }

def Gate.close (g : Gate) (ch : Channel) : Gate :=
  { g with shut := Function.update g.shut ch true }

def Gate.opened : Gate := ⟨false, fun _ => false, false⟩

def nextSend (g : Gate) (ch : Channel) : SenderPc → Gate × SenderPc
  | .start => (g, .locked)
  | .locked => (g, if g.closed then .unlocking else .checked)
  | .checked => if ch = .unboundBuffer then (g, .released) else (g.send ch, .unlocking)
  | .released => (g.send ch, .done)
  | .unlocking => (g, .done)
  | .done => (g, .done)

def nextClose (g : Gate) : CloserPc → Gate × CloserPc
  | .start => (g, .locked)
  | .locked => if g.closed then (g, .done) else ({ g with closed := true }, .marked)
  | .marked => (g.close .domainStatsCh, .statsClosed)
  | .statsClosed => (g, .unlocked)
  | .unlocked => (g.close .buffer, .bufferClosed)
  | .bufferClosed => (g.close .unboundBuffer, .done)
  | .done => (g, .done)

def Gate.next (g : Gate) (c : Caller) (_ : Unit) : Gate × Caller :=
  match c with
  | .sender ch pc => ((nextSend g ch pc).1, .sender ch (nextSend g ch pc).2)
  | .closer pc => ((nextClose g pc).1, .closer (nextClose g pc).2)

def startCall : Option Channel → Caller
  | some ch => .sender ch .start
  | none => .closer .start

abbrev Callers := Pool Gate Caller

def Callers.step (p : Callers) (turn : Turn (Option Channel) Unit) : Callers :=
  Pool.step startCall Gate.next p turn

/-! ## The lock -/

def Caller.writes : Caller → Bool
  | .closer .locked | .closer .marked | .closer .statsClosed => true
  | _ => false

def Caller.holds : Caller → Bool
  | .sender _ .locked | .sender _ .checked | .sender _ .unlocking => true
  | c => c.writes

/-- `RWMutex`: a call gets the read lock while no other holds the write lock, and the write lock
while no other holds either. -/
def granted (p : Callers) : Turn (Option Channel) Unit → Bool
  | .spawn _ => true
  | .run i _ =>
    match p.threads[i]? with
    | some (.sender _ .start) => ∀ c ∈ p.threads, c.writes = false
    | some (.closer .start) => ∀ c ∈ p.threads, c.holds = false
    | _ => true

end GloryHole.Storage
