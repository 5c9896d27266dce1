import GloryHole.Cache.Counted
import GloryHole.Support.Bisimulation
import GloryHole.Support.Lists
import GloryHole.Support.Sharding

/-!
# The two caches answer alike

The shards hold the entries of the plain cache, each under the hash of its key, and their
counters add up to its own.  Every call keeps that, as long as neither cache evicts an entry to
make room.
-/

namespace GloryHole.Cache

open Go Dns
open Config (CacheConfig)
open Support.Bisimulation Support.Lists Support.Runs
open Support.Sharding

variable {τ : Type}

/-! ## Evictions -/

def Op.stored (cfg : CacheConfig) : Op τ → Option Msg
  | .set r resp | .setWithTrace r resp _ =>
    if r.question = [] ∨ determineTTL cfg resp ≤ 0 then none else some r
  | .setBlocked r _ _ => if r.question = [] ∨ cfg.blockedTTL ≤ 0 then none else some r
  | _ => none

/-- Neither cache evicts an entry for capacity in this call. -/
def Roomy (s : PlainCache τ × ShardedCache τ) (call : Call τ) : Prop :=
  ∀ r ∈ call.op.stored s.1.cfg, s.1.shard.evicts call.plainOrder = false ∧
    ∀ shard ∈ s.2.shards[s.2.getShard (makeMsgKey r)]?, shard.evicts call.shardedOrder = false

instance decidableRoomy (s : PlainCache τ × ShardedCache τ) (call : Call τ) :
    Decidable (Roomy s call) :=
  inferInstanceAs (Decidable (∀ r ∈ call.op.stored s.1.cfg, _ ∧ _))

theorem CountedShard.insert_entries {ω : Type} {s : CountedShard ω} {order : List GoString}
    (h : s.evicts order = false) (key : GoString) (entry : CacheEntry ω) :
    (s.insert order key entry).entries = (key, entry) :: s.entries.filter (·.1 ≠ key) ∧
      (s.insert order key entry).stats = s.stats + .set := by
  have hzero : Counters.evicted 0 = 0 := rfl
  have hkeep : (if (s.entries.length : Int) ≥ s.maxEntries then s.evictLRU order
      else s.toCacheShard) = s.toCacheShard := by
    split
    · rename_i hfull
      have hnone : order.filterMap (fun key =>
          (s.entries.lookup key).map fun entry => (key, entry.lastAccess)) = [] := by
        rw [List.filterMap_eq_nil_iff]
        intro key hkey
        have hlookup : s.entries.lookup key = none := by
          simp only [evicts, Bool.and_eq_false_iff, decide_eq_false_iff_not,
            List.any_eq_false] at h
          rcases h with h | h
          · exact absurd hfull h
          · exact Option.not_isSome_iff_eq_none.mp (h key hkey)
        rw [hlookup]
        rfl
      simp only [CacheShard.evictLRU, hnone, List.take_nil, CacheShard.oldest]
    · rfl
  constructor
  · simp only [insert, CacheShard.insert, hkeep]
    rfl
  · simp only [insert, h, Bool.false_eq_true, if_false, hzero, add_zero]

/-! ## Lookups -/

section Lookups

variable {ω : Type} {s : CountedShard ω} {key : GoString} {now : Int} {entry : CacheEntry ω}

theorem CountedShard.get_absent (h : s.entries.lookup key = none) :
    s.get key now = (⟨s.toCacheShard, s.stats + .miss⟩, none) := by
  simp only [get, CacheShard.get, h, Option.isSome_none, Bool.false_eq_true, if_false]

theorem CountedShard.get_expired (h : s.entries.lookup key = some entry)
    (hlate : entry.expiresAt < now) :
    s.get key now = (⟨s.toCacheShard.delete key, s.stats + .miss⟩, none) := by
  simp only [get, CacheShard.get, h, if_pos hlate, Option.isSome_none, Bool.false_eq_true,
    if_false]

theorem CountedShard.get_live (h : s.entries.lookup key = some entry)
    (hlive : ¬ entry.expiresAt < now) :
    s.get key now =
      (⟨s.toCacheShard.put key { entry with lastAccess := now }, s.stats + .hit⟩,
        some (entry.msg, entry.origin)) := by
  simp only [get, CacheShard.get, h, if_neg hlive, Option.isSome_some, if_true]

end Lookups

/-! ## Shards and their whole -/

def shardOf (n : Nat) (key : GoString) : Nat := (fnv1aHashString key % UInt32.ofNat n).toNat

theorem shardOf_lt {n : Nat} (hn : 0 < n) (key : GoString) : shardOf n key < n := by
  unfold shardOf
  rw [UInt32.toNat_mod]
  by_cases hzero : (UInt32.ofNat n).toNat = 0
  · -- More shards than a hash has values.
    have hsize : n % 2 ^ 32 = 0 := by simpa using hzero
    have hhash := (fnv1aHashString key).toNat_lt
    have hle : 2 ^ 32 ≤ n := Nat.le_of_dvd hn (Nat.dvd_of_mod_eq_zero hsize)
    rw [hzero, Nat.mod_zero]
    omega
  · have hle : (UInt32.ofNat n).toNat ≤ n := by
      rw [UInt32.toNat_ofNat']
      exact Nat.mod_le n _
    exact lt_of_lt_of_le (Nat.mod_lt _ (Nat.pos_of_ne_zero hzero)) hle

/-- The state of the plain cache, spread over the shards of the other. -/
structure Agrees (p : PlainCache τ) (s : ShardedCache τ) : Prop where
  cfg : s.cfg = p.cfg
  enabled : p.cfg.enabled = true
  pos : 0 < s.shards.length
  parts : s.shards.map (·.entries) =
    split (shardOf s.shards.length) s.shards.length p.shard.entries
  counters : (s.shards.map (·.stats)).sum = p.shard.stats
  entries : p.entries = p.shard.entries.length
  nodup : (p.shard.entries.map Prod.fst).Nodup

namespace Agrees

variable {p : PlainCache τ} {s : ShardedCache τ}

/-- The shard of a key, and what it holds. -/
theorem exists_shard (h : Agrees p s) (key : GoString) :
    ∃ shard, s.shards[s.getShard key]? = some shard ∧
      shard.entries = p.shard.entries.filter
        fun e => shardOf s.shards.length e.1 == shardOf s.shards.length key := by
  have hlt : s.getShard key < s.shards.length := shardOf_lt h.pos key
  have hshard : s.shards[s.getShard key]? = some s.shards[s.getShard key] :=
    List.getElem?_eq_getElem hlt
  have hget := congrArg (·[s.getShard key]?) h.parts
  simp only [List.getElem?_map, hshard, split_getElem? hlt] at hget
  exact ⟨_, hshard, Option.some.inj hget⟩

/-- A call that changes the entries of one key in both. -/
theorem setShard (h : Agrees p s) {key : GoString} {shard shard' : CountedShard (List τ)}
    {p' : PlainCache τ} {d : Counters} (hshard : s.shards[s.getShard key]? = some shard)
    (hcfg : p'.cfg = p.cfg)
    (hsplit : split (shardOf s.shards.length) s.shards.length p'.shard.entries =
      (split (shardOf s.shards.length) s.shards.length p.shard.entries).set (s.getShard key)
        shard'.entries)
    (hstats : shard'.stats = shard.stats + d) (hstats' : p'.shard.stats = p.shard.stats + d)
    (hentries : p'.entries = p'.shard.entries.length)
    (hnodup : (p'.shard.entries.map Prod.fst).Nodup) :
    Agrees p' { s with shards := s.shards.set (s.getShard key) shard' } := by
  refine ⟨h.cfg.trans hcfg.symm, ?_, ?_, ?_, ?_, hentries, hnodup⟩
  · rw [hcfg]
    exact h.enabled
  · simpa using h.pos
  · simp only [List.length_set, List.map_set]
    rw [hsplit, h.parts]
  · have hget : (s.shards.map (·.stats))[s.getShard key]? = some shard.stats := by
      rw [List.getElem?_map, hshard]
      rfl
    rw [List.map_set, hstats, sum_set_add hget, h.counters, hstats']

end Agrees

/-! ## Every call -/

namespace Agrees

variable {p : PlainCache τ} {s : ShardedCache τ}

theorem getWithTrace (h : Agrees p s) (r : Msg) (now : Int) :
    Agrees (p.getWithTrace r now).1 (s.getWithTrace r now).1 ∧
      (p.getWithTrace r now).2 = (s.getWithTrace r now).2 := by
  by_cases hquestion : r.question = []
  · rw [PlainCache.getWithTrace, if_pos (Or.inr hquestion), ShardedCache.getWithTrace,
      if_pos hquestion]
    exact ⟨h, rfl⟩
  obtain ⟨shard, hshard, hentries⟩ := h.exists_shard (makeMsgKey r)
  have hopen : ¬ (¬ p.cfg.enabled = true ∨ r.question = []) := by
    simp [h.enabled, hquestion]
  have hlt : shardOf s.shards.length (makeMsgKey r) < s.shards.length := shardOf_lt h.pos _
  have hlookup : shard.entries.lookup (makeMsgKey r) = p.shard.entries.lookup (makeMsgKey r) := by
    rw [hentries]
    exact lookup_filter (p := fun k => shardOf s.shards.length k ==
      shardOf s.shards.length (makeMsgKey r)) (beq_self_eq_true _) p.shard.entries
  simp only [PlainCache.getWithTrace, if_neg hopen, ShardedCache.getWithTrace, if_neg hquestion,
    hshard]
  cases hcase : p.shard.entries.lookup (makeMsgKey r) with
  | none =>
    rw [CountedShard.get_absent hcase, CountedShard.get_absent (hlookup.trans hcase)]
    have hkept : p.expired (makeMsgKey r) now = false := by
      simp [PlainCache.expired, hcase]
    refine ⟨h.setShard hshard rfl ?_ rfl rfl ?_ h.nodup, rfl⟩
    · rw [hentries]
      exact split_eq_set hlt fun _ _ => rfl
    · simp only [hkept, Bool.false_eq_true, if_false]
      exact h.entries
  | some entry =>
    by_cases hlate : entry.expiresAt < now
    · rw [CountedShard.get_expired hcase hlate,
        CountedShard.get_expired (hlookup.trans hcase) hlate]
      have hgone : p.expired (makeMsgKey r) now = true := by
        simp [PlainCache.expired, hcase, hlate]
      refine ⟨h.setShard hshard rfl ?_ rfl rfl ?_ (nodup_remove _ h.nodup), rfl⟩
      · simp only [CacheShard.delete, hentries]
        exact split_remove hlt p.shard.entries
      · have hlength := length_remove h.nodup hcase
        simp only [hgone, if_true, CacheShard.delete, h.entries]
        omega
    · rw [CountedShard.get_live hcase hlate, CountedShard.get_live (hlookup.trans hcase) hlate]
      have hkept : p.expired (makeMsgKey r) now = false := by
        simp [PlainCache.expired, hcase, not_lt.mp hlate]
      refine ⟨h.setShard hshard rfl ?_ rfl rfl ?_ (nodup_put _ _ h.nodup), rfl⟩
      · simp only [CacheShard.put, CacheShard.delete, hentries]
        exact split_put hlt _ p.shard.entries
      · have hlength := length_remove h.nodup hcase
        simp only [hkept, Bool.false_eq_true, if_false, CacheShard.put, CacheShard.delete,
          List.length_cons, hlength]
        exact h.entries

theorem store (h : Agrees p s) {order order' : List GoString} {now ttl : Int} {r resp : Msg}
    (trace : List τ)
    (hroom : ¬ (r.question = [] ∨ ttl ≤ 0) → p.shard.evicts order = false ∧
      ∀ shard ∈ s.shards[s.getShard (makeMsgKey r)]?, shard.evicts order' = false) :
    Agrees (p.store order now ttl r resp trace) (s.store order' now ttl r resp trace) := by
  by_cases hopen : r.question = [] ∨ ttl ≤ 0
  · rw [PlainCache.store, if_pos (Or.inr hopen), ShardedCache.store, if_pos hopen]
    exact h
  obtain ⟨shard, hshard, hentries⟩ := h.exists_shard (makeMsgKey r)
  obtain ⟨hplain, hsharded⟩ := hroom hopen
  have hshardRoom : shard.evicts order' = false := hsharded shard hshard
  have hclosed : ¬ (¬ p.cfg.enabled = true ∨ r.question = [] ∨ ttl ≤ 0) := by
    rw [not_or]
    exact ⟨not_not.mpr h.enabled, hopen⟩
  have hlt : shardOf s.shards.length (makeMsgKey r) < s.shards.length := shardOf_lt h.pos _
  simp only [PlainCache.store, if_neg hclosed, ShardedCache.store, if_neg hopen, hshard]
  have hinsert := CountedShard.insert_entries hplain (makeMsgKey r) ⟨resp, now + ttl, now, trace⟩
  have hinsert' :=
    CountedShard.insert_entries hshardRoom (makeMsgKey r) ⟨resp, now + ttl, now, trace⟩
  refine h.setShard hshard ?_ ?_ hinsert'.2 ?_ ?_ ?_
  · rfl
  · rw [hinsert.1, hinsert'.1, hentries]
    exact split_put hlt _ p.shard.entries
  · exact hinsert.2
  · rfl
  · rw [hinsert.1]
    exact nodup_put _ _ h.nodup

theorem evicted_sum (ns : List Nat) :
    (ns.map Counters.evicted).sum = Counters.evicted ns.sum := by
  induction ns with
  | nil => rfl
  | cons n ns ih =>
    rw [List.map_cons, List.sum_cons, ih, List.sum_cons]
    apply Counters.ext <;> first | rfl | exact (UInt64.ofNat_add n ns.sum).symm

/-- The expired entries of the shards are those of the plain cache. -/
theorem countP_shards (h : Agrees p s) (q : GoString × CacheEntry (List τ) → Bool) :
    (s.shards.map fun shard => shard.entries.countP q).sum = p.shard.entries.countP q := by
  have hsum := @sum_countP_split _ _ (shardOf s.shards.length) s.shards.length q p.shard.entries
    fun e _ => shardOf_lt h.pos e.1
  rw [← h.parts, List.map_map] at hsum
  exact hsum

theorem cleanup (h : Agrees p s) (now : Int) : Agrees (p.cleanup now) (s.cleanup now) := by
  refine ⟨h.cfg, h.enabled, ?_, ?_, ?_, ?_, h.nodup.sublist (List.filter_sublist.map _)⟩
  · simpa [ShardedCache.cleanup] using h.pos
  · simp only [ShardedCache.cleanup, PlainCache.cleanup, CountedShard.cleanup,
      CacheShard.cleanup, List.length_map, List.map_map]
    rw [split_filter, ← h.parts, List.map_map]
    rfl
  · simp only [ShardedCache.cleanup, PlainCache.cleanup, CountedShard.cleanup, List.map_map,
      Function.comp_def, List.sum_map_add, h.counters]
    congr 1
    have hcount := h.countP_shards fun e => e.2.expiresAt < now
    have hevicted := evicted_sum (s.shards.map (·.removed now))
    rw [List.map_map] at hevicted
    exact hevicted.trans (congrArg Counters.evicted hcount)
  · simp only [PlainCache.cleanup]
    split
    · rfl
    · rename_i hnone
      have hzero : p.shard.entries.countP (fun e => e.2.expiresAt < now) = 0 := by
        simpa [CountedShard.removed] using hnone
      have hall : p.shard.entries.filter (fun e => ¬ e.2.expiresAt < now) = p.shard.entries := by
        rw [List.filter_eq_self]
        intro e he
        simpa using List.countP_eq_zero.mp hzero e he
      simp only [CountedShard.cleanup, CacheShard.cleanup, hall]
      exact h.entries

theorem clear (h : Agrees p s) : Agrees p.clear s.clear := by
  refine ⟨h.cfg, h.enabled, ?_, ?_, ?_, rfl, List.nodup_nil⟩
  · simpa [ShardedCache.clear] using h.pos
  · simp only [ShardedCache.clear, PlainCache.clear, CountedShard.clear, CacheShard.clear,
      List.length_map, List.map_map, Function.comp_def, split_nil, List.map_const']
  · simp only [ShardedCache.clear, PlainCache.clear, CountedShard.clear, List.map_map]
    exact h.counters

theorem stats (h : Agrees p s) : p.stats = s.stats := by
  have hcount := h.countP_shards fun _ => true
  simp only [List.countP_true] at hcount
  have hcast : (s.shards.map fun shard => (shard.entries.length : Int)).sum =
      ((s.shards.map fun shard => shard.entries.length).sum : Nat) := by
    rw [Nat.cast_list_sum, List.map_map]
    rfl
  simp only [PlainCache.stats, ShardedCache.stats, h.counters, h.entries, hcast, hcount]

end Agrees

/-- One call on both. -/
theorem Agrees.call {p : PlainCache τ} {s : ShardedCache τ} (h : Agrees p s) {call : Call τ}
    (hroom : Roomy (p, s) call) :
    Agrees (p.call call).1 (s.call call).1 ∧ (p.call call).2 = (s.call call).2 := by
  obtain ⟨op, now, order, order'⟩ := call
  cases op with
  | set r resp | setWithTrace r resp trace | setBlocked r resp trace =>
    refine ⟨?_, rfl⟩
    simp only [PlainCache.call, ShardedCache.call, PlainCache.set, ShardedCache.set,
      PlainCache.setWithTrace, ShardedCache.setWithTrace, PlainCache.setBlocked,
      ShardedCache.setBlocked, h.cfg]
    apply h.store
    intro hopen
    exact hroom r (if_neg hopen)
  | getWithTrace r =>
    obtain ⟨hagrees, hhit⟩ := h.getWithTrace r now
    exact ⟨hagrees, congrArg Result.got hhit⟩
  | cleanup => exact ⟨h.cleanup now, rfl⟩
  | clear => exact ⟨h.clear, rfl⟩
  | stats => exact ⟨h, congrArg Result.counted h.stats⟩

theorem new_agrees {cfg : CacheConfig} {shardCount : Int} {p : PlainCache τ} {s : ShardedCache τ}
    (henabled : cfg.enabled = true) (hplain : newPlain τ cfg = some p)
    (hsharded : newSharded τ cfg shardCount = some s) : Agrees p s := by
  simp only [newPlain] at hplain
  simp only [newSharded] at hsharded
  split at hplain
  · cases hplain
  · rename_i hpos
    rw [if_neg hpos] at hsharded
    cases hplain
    cases hsharded
    refine ⟨rfl, henabled, ?_, ?_, ?_, rfl, List.nodup_nil⟩
    · simp only [List.length_replicate]
      split <;> omega
    · simp [split_nil]
    · simp only [List.map_replicate, List.sum_replicate]
      exact nsmul_zero _

/-! ## Every run -/

/-- The plain and the sharded cache of one configuration answer every sequence of calls alike,
as long as neither evicts an entry for capacity. -/
theorem plain_sharded_agree {cfg : CacheConfig} {shardCount : Int} {p : PlainCache τ}
    {s : ShardedCache τ} {calls : List (Call τ)} (henabled : cfg.enabled = true)
    (hplain : newPlain τ cfg = some p) (hsharded : newSharded τ cfg shardCount = some s)
    (hroom : AllSteps (both PlainCache.call ShardedCache.call) Roomy (p, s) calls) :
    outputs PlainCache.call p calls = outputs ShardedCache.call s calls :=
  outputs_eq (fun _ _ _ h hroom => Agrees.call h hroom) (new_agrees henabled hplain hsharded)
    hroom

def smallConfig : CacheConfig :=
  { enabled := true, maxEntries := 20, maxTTL := 3600 * second, blockedTTL := 5 * second }

def questionFor (name : GoString) : Msg := { question := [⟨name, 1, 1⟩] }

def shortRun : List (Call Unit) :=
  let answer : Msg := { answer := [⟨lit "a.", 1, 1, 60, [10, 0, 0, 1]⟩] }
  let after (op : Op Unit) (seconds : Int) : Call Unit := ⟨op, seconds * second, [], []⟩
  [after (.set (questionFor (lit "a.")) answer) 0,
   after (.setBlocked (questionFor (lit "b.")) {} [()]) 1,
   after (.getWithTrace (questionFor (lit "a."))) 2,
   after (.getWithTrace (questionFor (lit "b."))) 10,
   after .stats 11]

theorem plain_sharded_agree_shortRun :
    ∃ p s, newPlain Unit smallConfig = some p ∧ newSharded Unit smallConfig 4 = some s ∧
      outputs PlainCache.call p shortRun = outputs ShardedCache.call s shortRun := by
  refine ⟨_, _, rfl, rfl, @plain_sharded_agree _ smallConfig 4 _ _ _ rfl rfl rfl ?_⟩
  simp only [shortRun, AllSteps]
  decide +kernel

end GloryHole.Cache
