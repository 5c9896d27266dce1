import GloryHole.Config.Types
import GloryHole.Dns.Msg

/-!
# The response cache

The plain and the sharded cache behind one interface.  Both keep answers under a key made of the
question and the two DNSSEC flags.  The order in which an eviction meets the keys of the Go map is
an argument.

Every entry carries an `origin`: where the stored answer came from.  No function reads it; it is
there to state what a hit serves.
-/

namespace GloryHole.Cache

open Go Dns
open Config (CacheConfig)

structure CacheEntry (ω : Type) where
  msg : Msg
  expiresAt : Int
  lastAccess : Int
  origin : ω
  deriving DecidableEq

structure CacheShard (ω : Type) where
  entries : List (GoString × CacheEntry ω)
  maxEntries : Int
  deriving DecidableEq

inductive Interface (ω : Type) where
  | plain (cfg : CacheConfig) (shard : CacheShard ω)
  | sharded (cfg : CacheConfig) (shards : List (CacheShard ω))
  deriving DecidableEq

variable {ω : Type}

/-! ## Keys -/

def decimalDigits : Nat → Nat → GoString
  | 0, _ => []
  | fuel + 1, n =>
    if n < 10 then [UInt8.ofNat ('0'.toNat + n)]
    else decimalDigits fuel (n / 10) ++ [UInt8.ofNat ('0'.toNat + n % 10)]

def cacheKey (domain : GoString) (qtype : UInt16) (doBit cd : Bool) : GoString :=
  domain ++ lit ":" ++ decimalDigits 5 qtype.toNat ++ (if doBit then lit ":D" else []) ++
    (if cd then lit ":C" else [])

/-- `makeMsgKey`: no client and no rule is part of the key. -/
def makeMsgKey (r : Msg) : GoString :=
  match r.question with
  | [] => []
  | q :: _ =>
    let doBit :=
      match r.isEdns0 with
      | some opt => opt.doBit
      | none => false
    cacheKey q.name q.qtype doBit r.checkingDisabled

def fnv1aHashString (s : GoString) : UInt32 :=
  s.foldl (fun hash b => (hash ^^^ UInt32.ofNat b.toNat) * 16777619) 2166136261

/-! ## One shard -/

namespace CacheShard

def delete (shard : CacheShard ω) (key : GoString) : CacheShard ω :=
  { shard with entries := shard.entries.filter fun e => e.1 ≠ key }

def put (shard : CacheShard ω) (key : GoString) (entry : CacheEntry ω) : CacheShard ω :=
  { shard with entries := (key, entry) :: (shard.delete key).entries }

def oldest : List (GoString × Int) → Option GoString
  | [] => none
  | first :: rest =>
    some (rest.foldl (fun best c => if c.2 < best.2 then c else best) first).1

/-- `evictLRU`: up to five keys in iteration order are compared. -/
def evictLRU (shard : CacheShard ω) (order : List GoString) : CacheShard ω :=
  let candidates := order.filterMap fun key =>
    (shard.entries.lookup key).map fun entry => (key, entry.lastAccess)
  match oldest (candidates.take 5) with
  | none => shard
  | some key => shard.delete key

def insert (shard : CacheShard ω) (order : List GoString) (key : GoString)
    (entry : CacheEntry ω) : CacheShard ω :=
  let shard :=
    if (shard.entries.length : Int) ≥ shard.maxEntries then shard.evictLRU order else shard
  shard.put key entry

/-- The part of `GetWithTrace` after the key: an expired entry is removed, a live one
is marked as used. -/
def get (shard : CacheShard ω) (key : GoString) (now : Int) :
    CacheShard ω × Option (Msg × ω) :=
  match shard.entries.lookup key with
  | none => (shard, none)
  | some entry =>
    if entry.expiresAt < now then (shard.delete key, none)
    else (shard.put key { entry with lastAccess := now }, some (entry.msg, entry.origin))

def cleanup (shard : CacheShard ω) (now : Int) : CacheShard ω :=
  { shard with entries := shard.entries.filter fun e => ¬ e.2.expiresAt < now }

def clear (shard : CacheShard ω) : CacheShard ω := { shard with entries := [] }

end CacheShard

/-! ## The interface -/

def second : Int := 1000000000

/-- The least TTL, where 0 stands for "none yet": a TTL of zero makes the search start again. -/
def minAnswerTTL (answer : List RR) : UInt32 :=
  answer.foldl (fun least rr => if least = 0 ∨ rr.ttl < least then rr.ttl else least) 0

def determineTTL (cfg : CacheConfig) (resp : Msg) : Int :=
  if resp.rcode = rcodeNameError ∨ resp.answer = [] then cfg.negativeTTL
  else
    let minTTL := minAnswerTTL resp.answer
    if minTTL = 0 then cfg.negativeTTL
    else
      let ttl := minTTL.toNat * second
      let ttl := if ttl < cfg.minTTL then cfg.minTTL else ttl
      if ttl > cfg.maxTTL then cfg.maxTTL else ttl

def new (cfg : CacheConfig) : Option (Interface ω) :=
  if cfg.maxEntries ≤ 0 then none
  else if cfg.shardCount > 0 then
    let entriesPerShard := cfg.maxEntries / cfg.shardCount
    let entriesPerShard := if entriesPerShard < 10 then 10 else entriesPerShard
    some (.sharded cfg (List.replicate cfg.shardCount.toNat ⟨[], entriesPerShard⟩))
  else some (.plain cfg ⟨[], cfg.maxEntries⟩)

namespace Interface

def shards : Interface ω → List (CacheShard ω)
  | .plain _ shard => [shard]
  | .sharded _ shards => shards

def shardIndex (shards : List (CacheShard ω)) (key : GoString) : Nat :=
  (fnv1aHashString key % UInt32.ofNat shards.length).toNat

/-- `GetWithTrace`; only the plain cache looks at `Enabled`. -/
def getWithTrace (c : Interface ω) (r : Msg) (now : Int) : Interface ω × Option (Msg × ω) :=
  match c with
  | .plain cfg shard =>
    if ¬ cfg.enabled ∨ r.question = [] then (c, none)
    else
      let (shard, hit) := shard.get (makeMsgKey r) now
      (.plain cfg shard, hit)
  | .sharded cfg shards =>
    if r.question = [] then (c, none)
    else
      let i := shardIndex shards (makeMsgKey r)
      match shards[i]? with
      | none => (c, none)
      | some shard =>
        let (shard, hit) := shard.get (makeMsgKey r) now
        (.sharded cfg (shards.set i shard), hit)

def store (c : Interface ω) (order : List GoString) (r : Msg) (entry : CacheEntry ω) :
    Interface ω :=
  match c with
  | .plain cfg shard =>
    if ¬ cfg.enabled ∨ r.question = [] then c
    else .plain cfg (shard.insert order (makeMsgKey r) entry)
  | .sharded cfg shards =>
    if r.question = [] then c
    else
      let i := shardIndex shards (makeMsgKey r)
      match shards[i]? with
      | none => c
      | some shard => .sharded cfg (shards.set i (shard.insert order (makeMsgKey r) entry))

def cfg : Interface ω → CacheConfig
  | .plain cfg _ => cfg
  | .sharded cfg _ => cfg

def set (c : Interface ω) (order : List GoString) (now : Int) (r resp : Msg) (origin : ω) :
    Interface ω :=
  let ttl := determineTTL c.cfg resp
  if ttl ≤ 0 then c
  else c.store order r { msg := resp, expiresAt := now + ttl, lastAccess := now, origin := origin }

def setBlocked (c : Interface ω) (order : List GoString) (now : Int) (r resp : Msg)
    (origin : ω) : Interface ω :=
  let ttl := c.cfg.blockedTTL
  if ttl ≤ 0 then c
  else c.store order r { msg := resp, expiresAt := now + ttl, lastAccess := now, origin := origin }

def mapShards (c : Interface ω) (f : CacheShard ω → CacheShard ω) : Interface ω :=
  match c with
  | .plain cfg shard => .plain cfg (f shard)
  | .sharded cfg shards => .sharded cfg (shards.map f)

def cleanup (c : Interface ω) (now : Int) : Interface ω := c.mapShards (·.cleanup now)

def clear (c : Interface ω) : Interface ω := c.mapShards (·.clear)

end Interface

/-! ## What the entries are -/

def CacheShard.Holds (P : GoString → Msg → ω → Prop) (shard : CacheShard ω) : Prop :=
  ∀ e ∈ shard.entries, P e.1 e.2.msg e.2.origin

def Interface.Holds (P : GoString → Msg → ω → Prop) (c : Interface ω) : Prop :=
  ∀ shard ∈ c.shards, shard.Holds P

section Holds

variable {P : GoString → Msg → ω → Prop} {shard : CacheShard ω} {c : Interface ω}

theorem CacheShard.Holds.delete (h : shard.Holds P) (key : GoString) :
    (shard.delete key).Holds P :=
  fun e he => h e (List.mem_of_mem_filter he)

variable {entry : CacheEntry ω}

theorem CacheShard.Holds.put (h : shard.Holds P) {key : GoString}
    (hentry : P key entry.msg entry.origin) : (shard.put key entry).Holds P := by
  intro e he
  rcases List.mem_cons.mp he with rfl | he
  · exact hentry
  · exact h.delete key e he

theorem CacheShard.Holds.insert (h : shard.Holds P) (order : List GoString) {key : GoString}
    (hentry : P key entry.msg entry.origin) :
    (shard.insert order key entry).Holds P := by
  refine CacheShard.Holds.put ?_ hentry
  split
  · simp only [CacheShard.evictLRU]
    split
    · exact h
    · exact h.delete _
  · exact h

theorem mem_of_lookup {key : GoString} {entries : List (GoString × CacheEntry ω)}
    (h : entries.lookup key = some entry) :
    (key, entry) ∈ entries := by
  obtain ⟨l₁, l₂, rfl, -⟩ := List.lookup_eq_some_iff.mp h
  simp

theorem CacheShard.Holds.get (h : shard.Holds P) (key : GoString) (now : Int) :
    (shard.get key now).1.Holds P ∧
      ∀ m o, (shard.get key now).2 = some (m, o) → P key m o := by
  unfold CacheShard.get
  cases hlookup : shard.entries.lookup key with
  | none => exact ⟨h, by simp⟩
  | some entry =>
    have hentry : P key entry.msg entry.origin := h _ (mem_of_lookup hlookup)
    simp only
    split
    · exact ⟨h.delete key, by simp⟩
    · refine ⟨h.put hentry, ?_⟩
      intro m o hmo
      cases hmo
      exact hentry

theorem Interface.Holds.mapShards (h : c.Holds P) {f : CacheShard ω → CacheShard ω}
    (hf : ∀ shard : CacheShard ω, shard.Holds P → (f shard).Holds P) :
    (c.mapShards f).Holds P := by
  cases c with
  | plain cfg shard =>
    have hshard := hf shard (h shard (by simp [Interface.shards]))
    simpa [Interface.Holds, Interface.shards, Interface.mapShards] using hshard
  | sharded cfg shards =>
    intro shard' hshard'
    obtain ⟨shard, hshard, rfl⟩ := List.mem_map.mp hshard'
    exact hf shard (h shard hshard)

theorem Interface.Holds.cleanup (h : c.Holds P) (now : Int) : (c.cleanup now).Holds P :=
  h.mapShards fun _ hshard e he => hshard e (List.mem_of_mem_filter he)

theorem Interface.clear_holds (c : Interface ω) : c.clear.Holds P := by
  have hclear (shard : CacheShard ω) : shard.clear.Holds P := by
    intro e he
    cases he
  cases c with
  | plain cfg shard =>
    intro shard' hshard'
    rw [List.mem_singleton.mp hshard']
    exact hclear shard
  | sharded cfg shards =>
    intro shard' hshard'
    obtain ⟨shard, -, rfl⟩ := List.mem_map.mp hshard'
    exact hclear shard

theorem Interface.Holds.sharded_set {cfg : CacheConfig} {shards : List (CacheShard ω)}
    (h : (Interface.sharded cfg shards).Holds P) {i : Nat} (hshard : shard.Holds P) :
    (Interface.sharded cfg (shards.set i shard)).Holds P := by
  intro shard' hmem
  rcases List.mem_or_eq_of_mem_set hmem with hmem | rfl
  · exact h shard' hmem
  · exact hshard

/-- A hit is an entry stored under the key of the request. -/
theorem Interface.Holds.getWithTrace (h : c.Holds P) (r : Msg) (now : Int) :
    (c.getWithTrace r now).1.Holds P ∧
      ∀ m o, (c.getWithTrace r now).2 = some (m, o) → P (makeMsgKey r) m o := by
  cases c with
  | plain cfg shard =>
    simp only [Interface.getWithTrace]
    split
    · exact ⟨h, by simp⟩
    · have hget := CacheShard.Holds.get (h shard (by simp [Interface.shards]))
        (makeMsgKey r) now
      exact ⟨by simpa [Interface.Holds, Interface.shards] using hget.1, hget.2⟩
  | sharded cfg shards =>
    simp only [Interface.getWithTrace]
    split
    · exact ⟨h, by simp⟩
    · split
      · exact ⟨h, by simp⟩
      · rename_i shard hshard
        have hget := CacheShard.Holds.get (h shard (List.mem_of_getElem? hshard))
          (makeMsgKey r) now
        exact ⟨h.sharded_set hget.1, hget.2⟩

theorem Interface.Holds.store (h : c.Holds P) (order : List GoString) (r : Msg)
    (hentry : r.question ≠ [] → P (makeMsgKey r) entry.msg entry.origin) :
    (c.store order r entry).Holds P := by
  cases c with
  | plain cfg shard =>
    simp only [Interface.store]
    split
    · exact h
    · rename_i hopen
      have hinsert := CacheShard.Holds.insert (h shard (by simp [Interface.shards])) order
        (hentry fun hquestion => hopen (Or.inr hquestion))
      simpa [Interface.Holds, Interface.shards] using hinsert
  | sharded cfg shards =>
    simp only [Interface.store]
    split
    · exact h
    · rename_i hquestion
      split
      · exact h
      · rename_i shard hshard
        exact h.sharded_set (CacheShard.Holds.insert (h shard (List.mem_of_getElem? hshard)) order
          (hentry hquestion))

theorem Interface.Holds.set (h : c.Holds P) (order : List GoString) (now : Int) {r resp : Msg}
    {origin : ω} (hentry : 0 < determineTTL c.cfg resp → P (makeMsgKey r) resp origin) :
    (c.set order now r resp origin).Holds P := by
  simp only [Interface.set]
  split
  · exact h
  · rename_i httl
    exact h.store order r fun _ => hentry (not_le.mp httl)

def Interface.Accepts (c : Interface ω) (r : Msg) : Prop :=
  r.question ≠ [] ∧
    match c with
    | .plain cfg _ => cfg.enabled = true
    | .sharded _ shards => ∃ shard, shards[Interface.shardIndex shards (makeMsgKey r)]? = some shard

theorem Interface.Holds.setBlocked (h : c.Holds P) (order : List GoString) (now : Int)
    {r resp : Msg} {origin : ω} (hentry : P (makeMsgKey r) resp origin) :
    (c.setBlocked order now r resp origin).Holds P := by
  simp only [Interface.setBlocked]
  split
  · exact h
  · exact h.store order r fun _ => hentry

theorem new_holds {cfg : CacheConfig} (h : new cfg = some c) : c.Holds P := by
  simp only [new] at h
  split at h
  · cases h
  · split at h
    · cases h
      intro shard hshard e he
      rw [List.eq_of_mem_replicate hshard] at he
      simp at he
    · cases h
      simp [Interface.Holds, Interface.shards, CacheShard.Holds]

end Holds

end GloryHole.Cache
