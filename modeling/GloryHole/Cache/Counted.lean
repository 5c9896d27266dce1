import GloryHole.Cache.Cache

/-!
# The two caches with their statistics

`Cache` and `ShardedCache` with the counters `Stats` reads.  The plain cache has one block of
counters and counts its entries beside its map; the sharded one has a block in every shard and
adds them up.  An entry carries its block trace in the place of the origin.
-/

namespace GloryHole.Cache

open Go Dns
open Config (CacheConfig)

/-! ## Counters -/

@[ext]
structure Counters where
  hits : UInt64 := 0
  misses : UInt64 := 0
  evictions : UInt64 := 0
  sets : UInt64 := 0
  deriving DecidableEq

instance zeroCounters : Zero Counters := ⟨{}⟩

instance addCounters : Add Counters :=
  ⟨fun a b =>
    ⟨a.hits + b.hits, a.misses + b.misses, a.evictions + b.evictions, a.sets + b.sets⟩⟩

instance addCommMonoidCounters : AddCommMonoid Counters where
  nsmul := nsmulRec
  add_assoc a b c := by
    apply Counters.ext <;> exact UInt64.add_assoc _ _ _
  zero_add a := by
    apply Counters.ext <;> exact UInt64.zero_add _
  add_zero a := by
    apply Counters.ext <;> exact UInt64.add_zero _
  add_comm a b := by
    apply Counters.ext <;> exact UInt64.add_comm _ _

def Counters.hit : Counters := { hits := 1 }
def Counters.miss : Counters := { misses := 1 }
def Counters.set : Counters := { sets := 1 }
def Counters.evicted (n : Nat) : Counters := { evictions := UInt64.ofNat n }

/-- What `Stats` returns; the hit rate is a quotient of the first two. -/
structure Stats where
  counters : Counters
  entries : Int
  deriving DecidableEq

/-! ## One shard -/

structure CountedShard (ω : Type) extends CacheShard ω where
  stats : Counters := {}
  deriving DecidableEq

namespace CountedShard

variable {ω : Type}

def evicts (s : CountedShard ω) (order : List GoString) : Bool :=
  (s.entries.length : Int) ≥ s.maxEntries && order.any fun key => (s.entries.lookup key).isSome

def get (s : CountedShard ω) (key : GoString) (now : Int) : CountedShard ω × Option (Msg × ω) :=
  let (shard, hit) := s.toCacheShard.get key now
  (⟨shard, s.stats + (if hit.isSome then .hit else .miss)⟩, hit)

def insert (s : CountedShard ω) (order : List GoString) (key : GoString) (entry : CacheEntry ω) :
    CountedShard ω :=
  ⟨s.toCacheShard.insert order key entry,
    s.stats + .set + .evicted (if s.evicts order then 1 else 0)⟩

def removed (s : CountedShard ω) (now : Int) : Nat :=
  s.entries.countP fun e => e.2.expiresAt < now

def cleanup (s : CountedShard ω) (now : Int) : CountedShard ω :=
  ⟨s.toCacheShard.cleanup now, s.stats + .evicted (s.removed now)⟩

def clear (s : CountedShard ω) : CountedShard ω := ⟨s.toCacheShard.clear, s.stats⟩

end CountedShard

/-! ## The plain cache -/

structure PlainCache (τ : Type) where
  cfg : CacheConfig
  shard : CountedShard (List τ)
  entries : Int
  deriving DecidableEq

def newPlain (τ : Type) (cfg : CacheConfig) : Option (PlainCache τ) :=
  if cfg.maxEntries ≤ 0 then none else some ⟨cfg, ⟨⟨[], cfg.maxEntries⟩, {}⟩, 0⟩

namespace PlainCache

variable {τ : Type}

def expired (c : PlainCache τ) (key : GoString) (now : Int) : Bool :=
  (c.shard.entries.lookup key).any fun entry => entry.expiresAt < now

def getWithTrace (c : PlainCache τ) (r : Msg) (now : Int) :
    PlainCache τ × Option (Msg × List τ) :=
  if ¬ c.cfg.enabled ∨ r.question = [] then (c, none)
  else
    let key := makeMsgKey r
    let (shard, hit) := c.shard.get key now
    ({ c with shard := shard, entries := if c.expired key now then c.entries - 1 else c.entries },
      hit)

def store (c : PlainCache τ) (order : List GoString) (now ttl : Int) (r resp : Msg)
    (trace : List τ) : PlainCache τ :=
  if ¬ c.cfg.enabled ∨ r.question = [] ∨ ttl ≤ 0 then c
  else
    let shard := c.shard.insert order (makeMsgKey r) ⟨resp, now + ttl, now, trace⟩
    { c with shard := shard, entries := shard.entries.length }

def set (c : PlainCache τ) (order : List GoString) (now : Int) (r resp : Msg) : PlainCache τ :=
  c.store order now (determineTTL c.cfg resp) r resp []

def setWithTrace (c : PlainCache τ) (order : List GoString) (now : Int) (r resp : Msg)
    (trace : List τ) : PlainCache τ :=
  c.store order now (determineTTL c.cfg resp) r resp trace

def setBlocked (c : PlainCache τ) (order : List GoString) (now : Int) (r resp : Msg)
    (trace : List τ) : PlainCache τ :=
  c.store order now c.cfg.blockedTTL r resp trace

def cleanup (c : PlainCache τ) (now : Int) : PlainCache τ :=
  let shard := c.shard.cleanup now
  { c with
    shard := shard
    entries := if c.shard.removed now > 0 then shard.entries.length else c.entries }

def clear (c : PlainCache τ) : PlainCache τ := { c with shard := c.shard.clear, entries := 0 }

def stats (c : PlainCache τ) : Stats := ⟨c.shard.stats, c.entries⟩

end PlainCache

/-! ## The sharded cache -/

/-- `ShardedCache`; nothing in it looks at `Enabled`. -/
structure ShardedCache (τ : Type) where
  cfg : CacheConfig
  shards : List (CountedShard (List τ))
  deriving DecidableEq

def newSharded (τ : Type) (cfg : CacheConfig) (shardCount : Int) : Option (ShardedCache τ) :=
  let shardCount := if shardCount ≤ 0 then 4 else shardCount
  if cfg.maxEntries ≤ 0 then none
  else
    let entriesPerShard := cfg.maxEntries / shardCount
    let entriesPerShard := if entriesPerShard < 10 then 10 else entriesPerShard
    some ⟨cfg, List.replicate shardCount.toNat ⟨⟨[], entriesPerShard⟩, {}⟩⟩

namespace ShardedCache

variable {τ : Type}

def getShard (c : ShardedCache τ) (key : GoString) : Nat :=
  (fnv1aHashString key % UInt32.ofNat c.shards.length).toNat

def getWithTrace (c : ShardedCache τ) (r : Msg) (now : Int) :
    ShardedCache τ × Option (Msg × List τ) :=
  if r.question = [] then (c, none)
  else
    let key := makeMsgKey r
    match c.shards[c.getShard key]? with
    | none => (c, none)
    | some shard =>
      let (shard, hit) := shard.get key now
      ({ c with shards := c.shards.set (c.getShard key) shard }, hit)

def store (c : ShardedCache τ) (order : List GoString) (now ttl : Int) (r resp : Msg)
    (trace : List τ) : ShardedCache τ :=
  if r.question = [] ∨ ttl ≤ 0 then c
  else
    let key := makeMsgKey r
    match c.shards[c.getShard key]? with
    | none => c
    | some shard =>
      { c with
        shards :=
          c.shards.set (c.getShard key) (shard.insert order key ⟨resp, now + ttl, now, trace⟩) }

def set (c : ShardedCache τ) (order : List GoString) (now : Int) (r resp : Msg) :
    ShardedCache τ :=
  c.store order now (determineTTL c.cfg resp) r resp []

def setWithTrace (c : ShardedCache τ) (order : List GoString) (now : Int) (r resp : Msg)
    (trace : List τ) : ShardedCache τ :=
  c.store order now (determineTTL c.cfg resp) r resp trace

def setBlocked (c : ShardedCache τ) (order : List GoString) (now : Int) (r resp : Msg)
    (trace : List τ) : ShardedCache τ :=
  c.store order now c.cfg.blockedTTL r resp trace

def cleanup (c : ShardedCache τ) (now : Int) : ShardedCache τ :=
  { c with shards := c.shards.map (·.cleanup now) }

def clear (c : ShardedCache τ) : ShardedCache τ := { c with shards := c.shards.map (·.clear) }

def stats (c : ShardedCache τ) : Stats :=
  ⟨(c.shards.map (·.stats)).sum, (c.shards.map fun shard => (shard.entries.length : Int)).sum⟩

end ShardedCache

/-! ## Calls -/

inductive Op (τ : Type) where
  | set (r resp : Msg)
  | setWithTrace (r resp : Msg) (trace : List τ)
  | setBlocked (r resp : Msg) (trace : List τ)
  | getWithTrace (r : Msg)
  | cleanup
  | clear
  | stats

structure Call (τ : Type) where
  op : Op τ
  now : Int
  plainOrder : List GoString
  shardedOrder : List GoString

inductive Result (τ : Type) where
  | done
  | got (hit : Option (Msg × List τ))
  | counted (stats : Stats)
  deriving DecidableEq

def PlainCache.call {τ : Type} (c : PlainCache τ) (call : Call τ) : PlainCache τ × Result τ :=
  match call.op with
  | .set r resp => (c.set call.plainOrder call.now r resp, .done)
  | .setWithTrace r resp trace => (c.setWithTrace call.plainOrder call.now r resp trace, .done)
  | .setBlocked r resp trace => (c.setBlocked call.plainOrder call.now r resp trace, .done)
  | .getWithTrace r =>
    let (c, hit) := c.getWithTrace r call.now
    (c, .got hit)
  | .cleanup => (c.cleanup call.now, .done)
  | .clear => (c.clear, .done)
  | .stats => (c, .counted c.stats)

def ShardedCache.call {τ : Type} (c : ShardedCache τ) (call : Call τ) :
    ShardedCache τ × Result τ :=
  match call.op with
  | .set r resp => (c.set call.shardedOrder call.now r resp, .done)
  | .setWithTrace r resp trace => (c.setWithTrace call.shardedOrder call.now r resp trace, .done)
  | .setBlocked r resp trace => (c.setBlocked call.shardedOrder call.now r resp trace, .done)
  | .getWithTrace r =>
    let (c, hit) := c.getWithTrace r call.now
    (c, .got hit)
  | .cleanup => (c.cleanup call.now, .done)
  | .clear => (c.clear, .done)
  | .stats => (c, .counted c.stats)

/-! ## Without the counters -/

section ToInterface

variable {τ : Type}

def PlainCache.toInterface (c : PlainCache τ) : Interface (List τ) :=
  .plain c.cfg c.shard.toCacheShard

def ShardedCache.toInterface (c : ShardedCache τ) : Interface (List τ) :=
  .sharded c.cfg (c.shards.map (·.toCacheShard))

theorem PlainCache.toInterface_getWithTrace (c : PlainCache τ) (r : Msg) (now : Int) :
    c.toInterface.getWithTrace r now =
      ((c.getWithTrace r now).1.toInterface, (c.getWithTrace r now).2) := by
  simp only [toInterface, Interface.getWithTrace, getWithTrace]
  split <;> rfl

theorem PlainCache.toInterface_store (c : PlainCache τ) (order : List GoString) (now ttl : Int)
    (r resp : Msg) (trace : List τ) :
    (c.store order now ttl r resp trace).toInterface =
      if ttl ≤ 0 then c.toInterface
      else c.toInterface.store order r ⟨resp, now + ttl, now, trace⟩ := by
  simp only [toInterface, Interface.store, store]
  by_cases hopen : ¬ c.cfg.enabled = true ∨ r.question = []
  · rw [if_pos (or_assoc.mp (Or.inl hopen)), if_pos hopen, ite_self]
  · by_cases httl : ttl ≤ 0
    · rw [if_pos (Or.inr (Or.inr httl)), if_pos httl]
    · rw [if_neg (by tauto), if_neg httl, if_neg hopen]
      rfl

theorem ShardedCache.shardIndex_map (c : ShardedCache τ) (key : GoString) :
    Interface.shardIndex (c.shards.map (·.toCacheShard)) key = c.getShard key := by
  rw [Interface.shardIndex, List.length_map, getShard]

theorem ShardedCache.toInterface_getWithTrace (c : ShardedCache τ) (r : Msg) (now : Int) :
    c.toInterface.getWithTrace r now =
      ((c.getWithTrace r now).1.toInterface, (c.getWithTrace r now).2) := by
  simp only [toInterface, Interface.getWithTrace, getWithTrace, shardIndex_map, List.getElem?_map]
  split
  · rfl
  · cases c.shards[c.getShard (makeMsgKey r)]? with
    | none => rfl
    | some shard => simp only [Option.map_some, List.map_set, CountedShard.get]

theorem ShardedCache.toInterface_store (c : ShardedCache τ) (order : List GoString)
    (now ttl : Int) (r resp : Msg) (trace : List τ) :
    (c.store order now ttl r resp trace).toInterface =
      if ttl ≤ 0 then c.toInterface
      else c.toInterface.store order r ⟨resp, now + ttl, now, trace⟩ := by
  simp only [toInterface, Interface.store, store, shardIndex_map, List.getElem?_map]
  by_cases hquestion : r.question = []
  · rw [if_pos (Or.inl hquestion), if_pos hquestion, ite_self]
  · by_cases httl : ttl ≤ 0
    · rw [if_pos (Or.inr httl), if_pos httl]
    · rw [if_neg (by tauto), if_neg httl, if_neg hquestion]
      cases c.shards[c.getShard (makeMsgKey r)]? with
      | none => rfl
      | some shard => simp only [Option.map_some, List.map_set, CountedShard.insert]

/-- Forgetting the counters of the two caches gives the two implementations of `Interface`. -/
theorem toInterface_new (cfg : CacheConfig) :
    new cfg = if cfg.shardCount > 0 then
        (newSharded τ cfg cfg.shardCount).map ShardedCache.toInterface
      else (newPlain τ cfg).map PlainCache.toInterface := by
  simp only [new, newSharded, newPlain]
  by_cases hmax : cfg.maxEntries ≤ 0
  · simp only [if_pos hmax, Option.map_none, ite_self]
  · by_cases hcount : cfg.shardCount > 0
    · have hpos : ¬ cfg.shardCount ≤ 0 := by omega
      simp only [if_neg hmax, if_pos hcount, if_neg hpos, Option.map_some,
        ShardedCache.toInterface, List.map_replicate]
    · simp only [if_neg hmax, if_neg hcount, Option.map_some, PlainCache.toInterface]

end ToInterface

end GloryHole.Cache
