import GloryHole.Cache.Cache
import GloryHole.Support.Threads

/-!
# Concurrent calls of a cache

The calls of the plain and the sharded cache, cut where they take and release a lock.  A lookup
releases the read lock before it reads the clock, and takes the write lock to remove an expired
entry.

The origin of an entry is the number of entries stored before it, and a lookup notes how many had
been stored by then.  No call reads either.
-/

namespace GloryHole.Cache

open Go Dns Support.Threads

/-- The maps, each under its lock, and `stats.entries`, which only the plain cache has. -/
structure SharedCache where
  shards : List (CacheShard Nat)
  count : Option Int
  stores : Nat := 0
  deriving DecidableEq

namespace SharedCache

def ofInterface (c : Interface Nat) : SharedCache :=
  match c with
  | .plain _ shard => { shards := [shard], count := some 0 }
  | .sharded _ shards => { shards, count := none }

variable (m : SharedCache)

def size : Int := (m.shards.map fun shard => (shard.entries.length : Int)).sum

def reported : Int := m.count.getD m.size

def index (key : GoString) : Nat := Interface.shardIndex m.shards key

def find (key : GoString) : Option (CacheEntry Nat) :=
  m.shards[m.index key]?.bind (·.entries.lookup key)

def stamp (key : GoString) : Option Nat := (m.find key).map (·.origin)

def modify (i : Nat) (f : CacheShard Nat → CacheShard Nat) : SharedCache :=
  match m.shards[i]? with
  | none => m
  | some shard => { m with shards := m.shards.set i (f shard) }

end SharedCache

/-- `lastAccessNano` of an entry that may have left the map. -/
def CacheShard.touch (shard : CacheShard Nat) (key : GoString) (stamp : Nat) (now : Int) :
    CacheShard Nat :=
  { shard with
    entries := shard.entries.map fun e =>
      (e.1, if e.1 = key ∧ e.2.origin = stamp then { e.2 with lastAccess := now } else e.2) }

/-! ## The calls -/

/-- The setters and `cleanup` read the clock before they take a lock. -/
inductive CacheRequest where
  | getWithTrace (r : Msg)
  | set (r resp : Msg) (now : Int)
  | setBlocked (r resp : Msg) (now : Int)
  | cleanup (now : Int)
  | clear

inductive CacheThread where
  | lookup (key : GoString)
  | found (key : GoString) (entry : CacheEntry Nat) (since : Nat)
  | touch (key : GoString) (stamp : Nat) (now : Int)
  | remove (key : GoString) (since : Nat)
  | insert (key : GoString) (msg : Msg) (expiresAt now : Int)
  | cleaning (now : Int) (left : List Nat)
  | clearing (left : List Nat)
  | done
  deriving DecidableEq

structure CacheInput where
  now : Int := 0
  order : List GoString := []
  pick : Nat := 0

def Interface.takes (c : Interface Nat) (r : Msg) : Bool :=
  r.question ≠ [] && match c with
    | .plain cfg _ => cfg.enabled
    | .sharded .. => true

namespace CacheThread

def storing (c : Interface Nat) (r resp : Msg) (now ttl : Int) : CacheThread :=
  if c.takes r ∧ 0 < ttl then .insert (makeMsgKey r) resp (now + ttl) now else .done

def start (c : Interface Nat) : CacheRequest → CacheThread
  | .getWithTrace r => if c.takes r then .lookup (makeMsgKey r) else .done
  | .set r resp now => storing c r resp now (determineTTL c.cfg resp)
  | .setBlocked r resp now => storing c r resp now c.cfg.blockedTTL
  | .cleanup now => .cleaning now (List.range c.shards.length)
  | .clear => .clearing (List.range c.shards.length)

def next (m : SharedCache) (t : CacheThread) (input : CacheInput) : SharedCache × CacheThread :=
  match t with
  | .lookup key =>
    match m.find key with
    | none => (m, .done)
    | some entry => (m, .found key entry m.stores)
  | .found key entry since =>
    if entry.expiresAt < input.now then (m, .remove key since)
    else (m, .touch key entry.origin input.now)
  | .touch key stamp now => (m.modify (m.index key) (·.touch key stamp now), .done)
  | .remove key _ =>
    ({ m.modify (m.index key) (·.delete key) with count := m.count.map (· - 1) }, .done)
  | .insert key msg expiresAt now =>
    let m' := m.modify (m.index key) (·.insert input.order key ⟨msg, expiresAt, now, m.stores⟩)
    ({ m' with count := m.count.map fun _ => m'.size, stores := m.stores + 1 }, .done)
  | .cleaning now left =>
    match left[input.pick]? with
    | none => (m, if left = [] then .done else t)
    | some i =>
      let m' := m.modify i (·.cleanup now)
      let removed := m.size - m'.size
      ({ m' with count := if removed > 0 then m.count.map fun _ => m'.size else m.count },
        .cleaning now (left.eraseIdx input.pick))
  | .clearing left =>
    match m.count, left with
    | some _, _ => ({ m with shards := m.shards.map (·.clear), count := some 0 }, .done)
    | none, [] => (m, .done)
    | none, i :: left => (m.modify i (·.clear), .clearing left)
  | .done => (m, .done)

end CacheThread

abbrev CachePool := Pool SharedCache CacheThread

def CachePool.step (c : Interface Nat) (p : CachePool) (turn : Turn CacheRequest CacheInput) :
    CachePool :=
  Pool.step (CacheThread.start c) CacheThread.next p turn

end GloryHole.Cache
