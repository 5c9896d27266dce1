import GloryHole.Cache.Counted
import GloryHole.Support.Lists
import GloryHole.Support.Runs

/-!
# The capacity of the two caches

A full cache removes the least recently accessed of the first five entries that the iteration over
its map meets before it stores.  Nothing else adds entries, so no sequence of calls takes the plain
cache past its maximum.  The sharded cache divides the maximum among its shards, but gives every
shard at least ten entries.
-/

namespace GloryHole.Cache

open Go Dns Support.Lists Support.Runs
open Config (CacheConfig)

/-! ## One eviction -/

def LeastRecent {ω : Type} (shard : CacheShard ω) (sample : List GoString) (key : GoString) :
    Prop :=
  key ∈ sample ∧ ∃ entry, shard.entries.lookup key = some entry ∧
    ∀ key' ∈ sample, ∀ entry', shard.entries.lookup key' = some entry' →
      entry.lastAccess ≤ entry'.lastAccess

section Shard

variable {ω : Type} {shard : CacheShard ω} {order : List GoString}

/-- The iteration meets every key of the map once. -/
def CacheShard.Ranges (shard : CacheShard ω) (order : List GoString) : Prop :=
  order.Perm (shard.entries.map Prod.fst)

theorem CacheShard.Ranges.exists_entry (h : shard.Ranges order) {key : GoString}
    (hkey : key ∈ order) : ∃ entry, shard.entries.lookup key = some entry := by
  obtain ⟨⟨k, entry⟩, hmem, rfl⟩ := List.mem_map.mp (h.mem_iff.mp hkey)
  cases hlookup : shard.entries.lookup k with
  | some entry' => exact ⟨entry', rfl⟩
  | none =>
    have hne := List.lookup_eq_none_iff.mp hlookup _ hmem
    simp at hne

def CacheShard.accessed (shard : CacheShard ω) (key : GoString) : GoString × Int :=
  (key, ((shard.entries.lookup key).map CacheEntry.lastAccess).getD 0)

/-- A shard with entries removes the least recently accessed one of the sample. -/
theorem CacheShard.Ranges.evictLRU (h : shard.Ranges order) (hne : shard.entries ≠ []) :
    ∃ key, CacheShard.oldest ((order.take 5).map shard.accessed) = some key ∧
      LeastRecent shard (order.take 5) key ∧ shard.evictLRU order = shard.delete key := by
  have hmap : (order.filterMap fun key =>
      (shard.entries.lookup key).map fun entry => (key, entry.lastAccess)) =
      order.map shard.accessed := by
    rw [List.filterMap_eq_map_iff_forall_eq_some]
    intro key hkey
    obtain ⟨entry, hentry⟩ := h.exists_entry hkey
    simp [CacheShard.accessed, hentry]
  simp only [CacheShard.evictLRU, hmap, ← List.map_take]
  cases hsample : order.take 5 with
  | nil =>
    have horder : order = [] := by simpa using hsample
    rw [CacheShard.Ranges, horder, List.nil_perm, List.map_eq_nil_iff] at h
    exact absurd h hne
  | cons first rest =>
    obtain ⟨hmem, hleast⟩ := foldl_least Prod.snd (rest.map shard.accessed) (shard.accessed first)
    rw [← List.map_cons] at hmem hleast
    obtain ⟨key, hkey, hbest⟩ := List.mem_map.mp hmem
    rw [List.map_cons, CacheShard.oldest, ← hbest]
    refine ⟨key, rfl, ⟨hkey, ?_⟩, rfl⟩
    obtain ⟨entry, hentry⟩ := h.exists_entry (List.mem_of_mem_take (hsample ▸ hkey))
    refine ⟨entry, hentry, ?_⟩
    intro key' hkey' entry' hentry'
    have hle := hleast _ (List.mem_map_of_mem hkey')
    rw [← hbest] at hle
    simpa [CacheShard.accessed, hentry, hentry'] using hle

/-! ## One store -/

theorem CacheShard.lookup_delete {key key' : GoString} (hne : key' ≠ key) :
    (shard.delete key).entries.lookup key' = shard.entries.lookup key' :=
  lookup_filter (p := fun k => decide (k ≠ key)) (decide_eq_true hne) shard.entries

theorem CacheShard.length_delete_lt {key : GoString} {entry : CacheEntry ω}
    (h : shard.entries.lookup key = some entry) :
    (shard.delete key).entries.length < shard.entries.length := by
  apply List.length_filter_lt_length_iff_exists.mpr
  exact ⟨(key, entry), mem_of_lookup h, by simp⟩

theorem CacheShard.length_put_le (shard : CacheShard ω) (key : GoString) (entry : CacheEntry ω) :
    (shard.put key entry).entries.length ≤ shard.entries.length + 1 :=
  Nat.succ_le_succ (List.length_filter_le _ _)

theorem CacheShard.lookup_put (shard : CacheShard ω) (key : GoString) (entry : CacheEntry ω) :
    (shard.put key entry).entries.lookup key = some entry := by
  simp [CacheShard.put]

theorem CacheShard.lookup_put_of_ne {key key' : GoString} (entry : CacheEntry ω)
    (hne : key' ≠ key) :
    (shard.put key entry).entries.lookup key' = shard.entries.lookup key' := by
  have hbeq : (key' == key) = false := by simpa using hne
  rw [CacheShard.put, List.lookup_cons, hbeq]
  exact lookup_delete hne

/-- What storing an entry does: the entry is there, and of the others at most one is removed, the
least recently accessed of the sample. -/
structure Stores (shard shard' : CacheShard ω) (order : List GoString) (key : GoString)
    (entry : CacheEntry ω) : Prop where
  present : shard'.entries.lookup key = some entry
  others : ∃ removed : Option GoString,
    (∀ key', key' ≠ key → removed ≠ some key' →
      shard'.entries.lookup key' = shard.entries.lookup key') ∧
    ∀ key' ∈ removed, LeastRecent shard (order.take 5) key'

def CacheShard.Within (shard : CacheShard ω) : Prop :=
  1 ≤ shard.maxEntries ∧ (shard.entries.length : Int) ≤ shard.maxEntries

theorem CacheShard.Within.of_le {shard' : CacheShard ω} (h : shard.Within)
    (hlength : shard'.entries.length ≤ shard.entries.length)
    (hmax : shard'.maxEntries = shard.maxEntries) : shard'.Within := by
  obtain ⟨hpos, hle⟩ := h
  rw [CacheShard.Within, hmax]
  omega

theorem CacheShard.Within.insert (h : shard.Within) (hranges : shard.Ranges order)
    (key : GoString) (entry : CacheEntry ω) :
    (shard.insert order key entry).maxEntries = shard.maxEntries ∧
      ((shard.insert order key entry).entries.length : Int) ≤ shard.maxEntries ∧
      Stores shard (shard.insert order key entry) order key entry := by
  unfold CacheShard.insert
  by_cases hfull : (shard.entries.length : Int) ≥ shard.maxEntries
  · have hne : shard.entries ≠ [] := by
      intro hnil
      have hpos := h.1
      rw [hnil, List.length_nil] at hfull
      omega
    obtain ⟨removed, -, hleast, hevict⟩ := hranges.evictLRU hne
    obtain ⟨old, hold⟩ : ∃ old, shard.entries.lookup removed = some old :=
      hleast.2.imp fun _ h => h.1
    simp only [if_pos hfull, hevict]
    refine ⟨rfl, ?_, ⟨lookup_put _ _ _, some removed, ?_, ?_⟩⟩
    · have hlt := length_delete_lt hold
      have hle := length_put_le (shard.delete removed) key entry
      have hwithin := h.2
      omega
    · intro key' hne hremoved
      rw [lookup_put_of_ne entry hne, lookup_delete (fun heq => hremoved (by rw [heq]))]
    · intro key' hkey'
      obtain rfl := Option.some.inj hkey'
      exact hleast
  · simp only [if_neg hfull]
    refine ⟨rfl, ?_, ⟨lookup_put _ _ _, none, ?_, by simp⟩⟩
    · have hle := length_put_le shard key entry
      omega
    · intro key' hne _
      exact lookup_put_of_ne entry hne

/-- A lookup does not add an entry. -/
theorem CacheShard.length_get_le (shard : CacheShard ω) (key : GoString) (now : Int) :
    (shard.get key now).1.entries.length ≤ shard.entries.length ∧
      (shard.get key now).1.maxEntries = shard.maxEntries := by
  unfold CacheShard.get
  cases hlookup : shard.entries.lookup key with
  | none => exact ⟨Nat.le_refl _, rfl⟩
  | some entry =>
    dsimp only
    split
    · exact ⟨List.length_filter_le _ _, rfl⟩
    · exact ⟨length_delete_lt hlookup, rfl⟩

end Shard

/-! ## Every run -/

section Runs

variable {τ : Type}

def Op.setter (cfg : CacheConfig) : Op τ → Option (Int × Msg × Msg × List τ)
  | .set r resp => some (determineTTL cfg resp, r, resp, [])
  | .setWithTrace r resp trace => some (determineTTL cfg resp, r, resp, trace)
  | .setBlocked r resp trace => some (cfg.blockedTTL, r, resp, trace)
  | _ => none

theorem PlainCache.call_setter {c : PlainCache τ} {call : Call τ} {ttl : Int} {r resp : Msg}
    {trace : List τ} (h : call.op.setter c.cfg = some (ttl, r, resp, trace)) :
    (c.call call).1 = c.store call.plainOrder call.now ttl r resp trace := by
  obtain ⟨op, now, order, order'⟩ := call
  cases op <;> cases h <;> rfl

/-- The order of the call is one in which a range over the map can meet its keys. -/
def PlainCache.Ranges (c : PlainCache τ) (call : Call τ) : Prop :=
  c.shard.Ranges call.plainOrder

def PlainCache.Keeps (c : PlainCache τ) (call : Call τ) : Prop :=
  ∀ ttl r resp trace, call.op.setter c.cfg = some (ttl, r, resp, trace) →
    c.cfg.enabled = true → r.question ≠ [] → 0 < ttl →
      Stores c.shard.toCacheShard (c.call call).1.shard.toCacheShard call.plainOrder
        (makeMsgKey r) ⟨resp, call.now + ttl, call.now, trace⟩

structure PlainCache.Within (cfg : CacheConfig) (c : PlainCache τ) : Prop where
  shard : c.shard.Within
  maxEntries : c.shard.maxEntries = cfg.maxEntries
  config : c.cfg = cfg

/-- The calls that store nothing. -/
theorem PlainCache.call_other {c : PlainCache τ} {call : Call τ}
    (h : call.op.setter c.cfg = none) :
    (c.call call).1.cfg = c.cfg ∧ (c.call call).1.shard.maxEntries = c.shard.maxEntries ∧
      (c.call call).1.shard.entries.length ≤ c.shard.entries.length := by
  obtain ⟨op, now, order, order'⟩ := call
  cases op with
  | set r resp | setWithTrace r resp trace | setBlocked r resp trace => cases h
  | getWithTrace r =>
    simp only [PlainCache.call, PlainCache.getWithTrace]
    split
    · exact ⟨rfl, rfl, Nat.le_refl _⟩
    · obtain ⟨hlength, hmax⟩ := c.shard.toCacheShard.length_get_le (makeMsgKey r) now
      exact ⟨rfl, hmax, hlength⟩
  | cleanup => exact ⟨rfl, rfl, List.length_filter_le _ _⟩
  | clear => exact ⟨rfl, rfl, Nat.zero_le _⟩
  | stats => exact ⟨rfl, rfl, Nat.le_refl _⟩

theorem PlainCache.Within.call {cfg : CacheConfig} {c : PlainCache τ} (h : c.Within cfg)
    {call : Call τ} (hranges : c.Ranges call) :
    (c.call call).1.Within cfg ∧ c.Keeps call := by
  rcases hsetter : call.op.setter c.cfg with _ | ⟨ttl, r, resp, trace⟩
  · obtain ⟨hcfg, hmax, hlength⟩ := call_other hsetter
    refine ⟨⟨h.shard.of_le hlength hmax, hmax.trans h.maxEntries, hcfg.trans h.config⟩, ?_⟩
    intro ttl r resp trace hsome
    rw [hsetter] at hsome
    cases hsome
  · have hcall := call_setter hsetter
    obtain ⟨hmax, hlength, hstores⟩ := h.shard.insert hranges (makeMsgKey r)
      ⟨resp, call.now + ttl, call.now, trace⟩
    by_cases hopen : ¬ c.cfg.enabled = true ∨ r.question = [] ∨ ttl ≤ 0
    · rw [store, if_pos hopen] at hcall
      rw [hcall]
      refine ⟨h, ?_⟩
      intro ttl' r' resp' trace' hsome henabled hquestion httl
      rw [hsetter] at hsome
      cases hsome
      rcases hopen with hdisabled | hempty | hzero
      · exact absurd henabled hdisabled
      · exact absurd hempty hquestion
      · omega
    · rw [store, if_neg hopen] at hcall
      have hshard := congrArg (fun c => c.shard.toCacheShard) hcall
      refine ⟨?_, ?_⟩
      · rw [hcall]
        exact ⟨⟨hmax ▸ h.shard.1, hmax ▸ hlength⟩, hmax.trans h.maxEntries, h.config⟩
      · intro ttl' r' resp' trace' hsome _ _ _
        rw [hsetter] at hsome
        cases hsome
        rw [hshard]
        exact hstores

theorem newPlain_within {cfg : CacheConfig} {c : PlainCache τ} (h : newPlain τ cfg = some c) :
    c.Within cfg := by
  unfold newPlain at h
  split at h
  · cases h
  · rename_i hpos
    cases h
    refine ⟨⟨?_, ?_⟩, rfl, rfl⟩
    · show 1 ≤ cfg.maxEntries
      omega
    · show (0 : Int) ≤ cfg.maxEntries
      omega

/-- In every run of a plain cache no state holds more entries than the maximum, and every call that
stores an entry leaves it there and removes at most one other, the least recently accessed of the
sampled ones. -/
theorem plain_cache_capacity {cfg : CacheConfig} {c : PlainCache τ}
    (hnew : newPlain τ cfg = some c) (calls : List (Call τ))
    (hranges : AllSteps (fun c call => (c.call call).1) PlainCache.Ranges c calls) :
    (∀ c' ∈ states (fun c call => (c.call call).1) c calls,
      (c'.shard.entries.length : Int) ≤ cfg.maxEntries) ∧
    AllSteps (fun c call => (c.call call).1) PlainCache.Keeps c calls := by
  have hstep (c : PlainCache τ) (call : Call τ) (hranges : c.Ranges call) (h : c.Within cfg) :
      (c.call call).1.Within cfg ∧ c.Keeps call := h.call hranges
  refine ⟨?_, hranges.imp_of_invariant hstep (newPlain_within hnew)⟩
  intro c' hc'
  have hwithin := invariant_states (fun c call hcond hinv => (hstep c call hcond hinv).1) hranges
    (newPlain_within hnew) c' hc'
  rw [← hwithin.maxEntries]
  exact hwithin.shard.2

end Runs

def singleConfig : CacheConfig :=
  { enabled := true, maxEntries := 1, maxTTL := 3600 * second, blockedTTL := 5 * second }

def twoBlocked : List (Call Unit) :=
  let query (name : GoString) : Msg := { question := [⟨name, 1, 1⟩] }
  [⟨.setBlocked (query (lit "a.")) {} [], 0, [], []⟩,
   ⟨.setBlocked (query (lit "b.")) {} [], 1, [lit "a.:1"], []⟩]

theorem plain_cache_capacity_twoBlocked :
    ∃ c, newPlain Unit singleConfig = some c ∧
      ∀ c' ∈ states (fun c call => (c.call call).1) c twoBlocked,
        (c'.shard.entries.length : Int) ≤ 1 := by
  refine ⟨_, rfl, (@plain_cache_capacity Unit singleConfig _ rfl twoBlocked ?_).1⟩
  simp only [twoBlocked, AllSteps, PlainCache.Ranges, CacheShard.Ranges]
  decide +kernel

/-! ## Every run of the sharded cache -/

section Sharded

variable {τ : Type} {c : ShardedCache τ} {n : Nat} {capacity : Int}

theorem ShardedCache.call_setter {call : Call τ} {ttl : Int} {r resp : Msg} {trace : List τ}
    (h : call.op.setter c.cfg = some (ttl, r, resp, trace)) :
    (c.call call).1 = c.store call.shardedOrder call.now ttl r resp trace := by
  obtain ⟨op, now, order, order'⟩ := call
  cases op <;> cases h <;> rfl

def ShardedCache.Ranges (c : ShardedCache τ) (call : Call τ) : Prop :=
  ∀ ttl r resp trace, call.op.setter c.cfg = some (ttl, r, resp, trace) →
    ∀ shard, c.shards[c.getShard (makeMsgKey r)]? = some shard → shard.Ranges call.shardedOrder

structure ShardedCache.Within (n : Nat) (capacity : Int) (c : ShardedCache τ) : Prop where
  length : c.shards.length = n
  shards : ∀ shard ∈ c.shards, shard.Within ∧ shard.maxEntries = capacity

theorem ShardedCache.Within.entries_le (h : c.Within n capacity) :
    c.stats.entries ≤ n * capacity := by
  calc c.stats.entries
      ≤ (c.shards.map fun shard => (shard.entries.length : Int)).length • capacity := by
        apply List.sum_le_card_nsmul
        intro x hx
        obtain ⟨shard, hshard, rfl⟩ := List.mem_map.mp hx
        obtain ⟨hwithin, hmax⟩ := h.shards shard hshard
        exact hmax ▸ hwithin.2
    _ = n * capacity := by rw [List.length_map, h.length, nsmul_eq_mul]

theorem ShardedCache.Within.set_shard (h : c.Within n capacity) (i : Nat)
    {shard : CountedShard (List τ)} (hshard : shard.Within ∧ shard.maxEntries = capacity) :
    ({ c with shards := c.shards.set i shard } : ShardedCache τ).Within n capacity := by
  refine ⟨by rw [List.length_set, h.length], ?_⟩
  intro other hother
  rcases List.mem_or_eq_of_mem_set hother with hold | rfl
  · exact h.shards other hold
  · exact hshard

theorem ShardedCache.Within.map_shards (h : c.Within n capacity)
    {f : CountedShard (List τ) → CountedShard (List τ)}
    (hlength : ∀ shard, (f shard).entries.length ≤ shard.entries.length)
    (hmax : ∀ shard, (f shard).maxEntries = shard.maxEntries) :
    ({ c with shards := c.shards.map f } : ShardedCache τ).Within n capacity := by
  refine ⟨by rw [List.length_map, h.length], ?_⟩
  intro other hother
  obtain ⟨shard, hshard, rfl⟩ := List.mem_map.mp hother
  obtain ⟨hwithin, hcapacity⟩ := h.shards shard hshard
  exact ⟨hwithin.of_le (hlength shard) (hmax shard), (hmax shard).trans hcapacity⟩

theorem ShardedCache.Within.call (h : c.Within n capacity) {call : Call τ}
    (hranges : c.Ranges call) :
    (c.call call).1.Within n capacity := by
  rcases hsetter : call.op.setter c.cfg with _ | ⟨ttl, r, resp, trace⟩
  · obtain ⟨op, now, order, order'⟩ := call
    cases op with
    | set r resp | setWithTrace r resp trace | setBlocked r resp trace => cases hsetter
    | getWithTrace r =>
      simp only [ShardedCache.call, ShardedCache.getWithTrace]
      split
      · exact h
      · cases hshard : c.shards[c.getShard (makeMsgKey r)]? with
        | none => exact h
        | some shard =>
          obtain ⟨hwithin, hcapacity⟩ := h.shards shard (List.mem_of_getElem? hshard)
          obtain ⟨hlength, hmax⟩ := shard.toCacheShard.length_get_le (makeMsgKey r) now
          exact h.set_shard _ ⟨hwithin.of_le hlength hmax, hmax.trans hcapacity⟩
    | cleanup => exact h.map_shards (fun _ => List.length_filter_le _ _) fun _ => rfl
    | clear => exact h.map_shards (fun _ => Nat.zero_le _) fun _ => rfl
    | stats => exact h
  · rw [call_setter hsetter, store]
    split
    · exact h
    · cases hshard : c.shards[c.getShard (makeMsgKey r)]? with
      | none =>
        simp only [hshard]
        exact h
      | some shard =>
        obtain ⟨hwithin, hcapacity⟩ := h.shards shard (List.mem_of_getElem? hshard)
        obtain ⟨hmax, hlength, -⟩ := hwithin.insert (hranges ttl r resp trace hsetter shard hshard)
          (makeMsgKey r) ⟨resp, call.now + ttl, call.now, trace⟩
        simp only [hshard]
        exact h.set_shard _ ⟨⟨hmax ▸ hwithin.1, hmax ▸ hlength⟩, hmax.trans hcapacity⟩

/-- `NewSharded` has four shards if it is not given a number. -/
def shardsFor (shardCount : Int) : Int := if shardCount ≤ 0 then 4 else shardCount

/-- In every run of a sharded cache whose maximum is at least ten entries for each shard, no state
holds more entries than the maximum. -/
theorem sharded_cache_capacity {cfg : CacheConfig} {shardCount : Int}
    (hnew : newSharded τ cfg shardCount = some c)
    (hten : 10 * shardsFor shardCount ≤ cfg.maxEntries) (calls : List (Call τ))
    (hranges : AllSteps (fun c call => (c.call call).1) ShardedCache.Ranges c calls) :
    ∀ c' ∈ states (fun c call => (c.call call).1) c calls, c'.stats.entries ≤ cfg.maxEntries := by
  have hpos : 0 < shardsFor shardCount := by
    rw [shardsFor]
    split <;> omega
  have hshare : 10 ≤ cfg.maxEntries / shardsFor shardCount :=
    (Int.le_ediv_iff_mul_le hpos).mpr hten
  have hstart :
      c.Within (shardsFor shardCount).toNat (cfg.maxEntries / shardsFor shardCount) := by
    have hnew' : newSharded τ cfg shardCount = if cfg.maxEntries ≤ 0 then none else
        some ⟨cfg, List.replicate (shardsFor shardCount).toNat
          ⟨⟨[], if cfg.maxEntries / shardsFor shardCount < 10 then 10
            else cfg.maxEntries / shardsFor shardCount⟩, {}⟩⟩ := rfl
    rw [hnew', if_neg hshare.not_gt] at hnew
    split at hnew
    · cases hnew
    · cases hnew
      refine ⟨List.length_replicate, ?_⟩
      intro shard hshard
      rw [List.eq_of_mem_replicate hshard]
      refine ⟨⟨?_, ?_⟩, rfl⟩
      · show 1 ≤ cfg.maxEntries / shardsFor shardCount
        omega
      · show (0 : Int) ≤ cfg.maxEntries / shardsFor shardCount
        omega
  intro c' hc'
  have hwithin := invariant_states (fun _ _ hcond hinv => hinv.call hcond) hranges hstart c' hc'
  calc c'.stats.entries
      ≤ (shardsFor shardCount).toNat * (cfg.maxEntries / shardsFor shardCount) := hwithin.entries_le
    _ = shardsFor shardCount * (cfg.maxEntries / shardsFor shardCount) := by
        rw [Int.toNat_of_nonneg hpos.le]
    _ ≤ cfg.maxEntries := Int.mul_ediv_self_le hpos.ne'

end Sharded

def twoBlockedSharded : List (Call Unit) :=
  twoBlocked.map fun call => { call with shardedOrder := call.plainOrder }

theorem sharded_cache_capacity_twoBlocked :
    ∃ c, newSharded Unit { singleConfig with maxEntries := 10 } 1 = some c ∧
      ∀ c' ∈ states (fun c call => (c.call call).1) c twoBlockedSharded,
        c'.stats.entries ≤ 10 := by
  refine ⟨_, rfl, @sharded_cache_capacity Unit _ { singleConfig with maxEntries := 10 } 1 rfl
    (by decide) twoBlockedSharded ⟨?_, ?_, trivial⟩⟩ <;>
  · intro ttl r resp trace hsetter shard hshard
    cases hsetter
    obtain rfl := List.mem_singleton.mp (List.mem_of_getElem? hshard)
    unfold CacheShard.Ranges
    decide +kernel

/-- A cache configured for one entry holds two. -/
theorem sharded_cache_exceeds_maximum :
    ∃ c, newSharded Unit singleConfig 1 = some c ∧
      ∃ c' ∈ states (fun c call => (c.call call).1) c twoBlockedSharded,
        singleConfig.maxEntries < c'.stats.entries :=
  ⟨_, rfl, by decide +kernel⟩

end GloryHole.Cache
