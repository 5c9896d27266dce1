import GloryHole.Cache.Locked
import GloryHole.Support.Lists

/-!
# Removing an expired entry

Between the lookup and the removal another call can replace or remove the entry.  As long as none
does, a removal meets the entry the lookup has found, and the plain cache counts its entries right.
-/

namespace GloryHole.Cache

open Go Dns Support.Lists Support.Runs Support.Threads
open Config (CacheConfig)

/-! ## Shards -/

def CacheShard.Sound (stores : Nat) (shard : CacheShard Nat) : Prop :=
  (shard.entries.map Prod.fst).Nodup ∧ shard.Holds fun _ _ stamp => stamp < stores

section Shard

variable {stores : Nat} {shard : CacheShard Nat}

theorem CacheShard.Sound.filter (h : shard.Sound stores) (p : GoString × CacheEntry Nat → Bool) :
    ({ shard with entries := shard.entries.filter p } : CacheShard Nat).Sound stores :=
  ⟨h.1.sublist (List.filter_sublist.map _), fun e he => h.2 e (List.mem_of_mem_filter he)⟩

theorem CacheShard.Sound.succ (h : shard.Sound stores) : shard.Sound (stores + 1) :=
  ⟨h.1, fun e he => Nat.lt_succ_of_lt (h.2 e he)⟩

theorem CacheShard.Sound.clear (shard : CacheShard Nat) : shard.clear.Sound stores :=
  ⟨List.nodup_nil, fun e he => by cases he⟩

theorem CacheShard.Sound.insert (h : shard.Sound stores) (order : List GoString) (key : GoString)
    {entry : CacheEntry Nat} (hentry : entry.origin = stores) :
    (shard.insert order key entry).Sound (stores + 1) := by
  constructor
  · apply nodup_put
    split
    · rw [CacheShard.evictLRU]
      split
      · exact h.1
      · exact (h.filter _).1
    · exact h.1
  · apply CacheShard.Holds.insert
    · exact h.succ.2
    · exact hentry ▸ Nat.lt_succ_self _

theorem CacheShard.Sound.touch (h : shard.Sound stores) (key : GoString) (stamp : Nat)
    (now : Int) : (shard.touch key stamp now).Sound stores := by
  constructor
  · rw [CacheShard.touch, List.map_map]
    exact h.1
  · intro e he
    obtain ⟨old, hold, rfl⟩ := List.mem_map.mp he
    have hstored := h.2 old hold
    dsimp only
    split <;> exact hstored

end Shard

/-! ## One step -/

structure SharedCache.Sound (m : SharedCache) : Prop where
  shards : ∀ shard ∈ m.shards, shard.Sound m.stores
  count : ∀ n ∈ m.count, n = m.size

/-- A call that is about to remove an entry has found it in the map, where it still is. -/
def CacheThread.Sound (m : SharedCache) : CacheThread → Prop
  | .found _ entry since => entry.origin < since
  | .remove key since => ∃ stamp, m.stamp key = some stamp ∧ stamp < since
  | _ => True

section Step

variable {m : SharedCache} {i : Nat} {f : CacheShard Nat → CacheShard Nat}

theorem SharedCache.size_modify {shard : CacheShard Nat} (h : m.shards[i]? = some shard) :
    (m.modify i f).size =
      m.size + ((f shard).entries.length - shard.entries.length : Int) := by
  simp only [modify, h, size, List.map_set]
  rw [← sum_set_add (by rw [List.getElem?_map, h]; rfl)]
  congr 2
  dsimp only
  omega

theorem SharedCache.size_modify_of_le
    (h : ∀ shard, (f shard).entries.length ≤ shard.entries.length) :
    (m.modify i f).size ≤ m.size := by
  cases hshard : m.shards[i]? with
  | none => simp only [modify, hshard, le_refl]
  | some shard =>
    have hle := h shard
    rw [size_modify hshard]
    omega

theorem SharedCache.size_modify_of_eq
    (h : ∀ shard, (f shard).entries.length = shard.entries.length) :
    (m.modify i f).size = m.size := by
  cases hshard : m.shards[i]? with
  | none => simp only [modify, hshard]
  | some shard => rw [size_modify hshard, h shard, sub_self, add_zero]

theorem SharedCache.forall_modify {P : CacheShard Nat → Prop} (hm : ∀ shard ∈ m.shards, P shard)
    (hf : ∀ shard ∈ m.shards, P (f shard)) : ∀ shard ∈ (m.modify i f).shards, P shard := by
  cases hshard : m.shards[i]? with
  | none =>
    simp only [modify, hshard]
    exact hm
  | some shard =>
    simp only [modify, hshard]
    intro other hother
    rcases List.mem_or_eq_of_mem_set hother with hold | rfl
    · exact hm other hold
    · exact hf shard (List.mem_of_getElem? hshard)

theorem SharedCache.stores_modify : (m.modify i f).stores = m.stores := by
  unfold modify
  split <;> rfl

theorem SharedCache.count_modify : (m.modify i f).count = m.count := by
  unfold modify
  split <;> rfl

theorem SharedCache.Sound.shards_modify (h : m.Sound)
    (hf : ∀ shard, shard.Sound m.stores → (f shard).Sound m.stores) :
    ∀ shard ∈ (m.modify i f).shards, shard.Sound (m.modify i f).stores := by
  rw [stores_modify]
  exact forall_modify h.shards fun shard hshard => hf shard (h.shards shard hshard)

theorem SharedCache.find_eq_some {key : GoString} {entry : CacheEntry Nat}
    (h : m.find key = some entry) :
    ∃ shard, m.shards[m.index key]? = some shard ∧ shard.entries.lookup key = some entry :=
  Option.bind_eq_some_iff.mp h

theorem CacheThread.next_sound (hm : m.Sound) {t : CacheThread} (ht : t.Sound m)
    {input : CacheInput}
    (hfound : ∀ key entry since, t = .found key entry since → entry.expiresAt < input.now →
      m.stamp key = some entry.origin) :
    (t.next m input).1.Sound ∧ (t.next m input).2.Sound (t.next m input).1 := by
  cases t with
  | lookup key =>
    simp only [next]
    split
    · exact ⟨hm, trivial⟩
    · rename_i entry hentry
      obtain ⟨shard, hshard, hlookup⟩ := m.find_eq_some hentry
      exact ⟨hm, (hm.shards shard (List.mem_of_getElem? hshard)).2 _ (mem_of_lookup hlookup)⟩
  | found key entry since =>
    simp only [next]
    split
    · rename_i hexpired
      exact ⟨hm, entry.origin, hfound key entry since rfl hexpired, ht⟩
    · exact ⟨hm, trivial⟩
  | touch key stamp now =>
    refine ⟨⟨hm.shards_modify fun _ h => h.touch key stamp now, ?_⟩, trivial⟩
    dsimp only [next]
    rw [SharedCache.count_modify,
      SharedCache.size_modify_of_eq fun _ => by rw [CacheShard.touch, List.length_map]]
    exact hm.count
  | remove key since =>
    obtain ⟨stamp, hstamp, -⟩ := ht
    obtain ⟨entry, hentry, -⟩ := Option.map_eq_some_iff.mp hstamp
    obtain ⟨shard, hshard, hlookup⟩ := m.find_eq_some hentry
    refine ⟨⟨hm.shards_modify fun _ h => h.filter _, ?_⟩, trivial⟩
    intro n hn
    obtain ⟨old, hold, rfl⟩ := Option.map_eq_some_iff.mp hn
    have hlength := length_remove (hm.shards shard (List.mem_of_getElem? hshard)).1 hlookup
    show old - 1 = (m.modify (m.index key) (·.delete key)).size
    rw [SharedCache.size_modify hshard, hm.count old hold]
    dsimp only [CacheShard.delete]
    omega
  | insert key msg expiresAt now =>
    refine ⟨⟨?_, ?_⟩, trivial⟩
    · apply SharedCache.forall_modify
      · exact fun shard hshard => (hm.shards shard hshard).succ
      · exact fun shard hshard => (hm.shards shard hshard).insert input.order key rfl
    · intro n hn
      obtain ⟨old, -, rfl⟩ := Option.map_eq_some_iff.mp hn
      rfl
  | cleaning now left =>
    simp only [next]
    split
    · refine ⟨hm, ?_⟩
      split <;> exact trivial
    · rename_i i _
      refine ⟨⟨hm.shards_modify fun _ h => h.filter _, ?_⟩, trivial⟩
      intro n hn
      split at hn
      · obtain ⟨old, -, rfl⟩ := Option.map_eq_some_iff.mp hn
        rfl
      · have hle : (m.modify i (·.cleanup now)).size ≤ m.size :=
          SharedCache.size_modify_of_le fun _ => List.length_filter_le _ _
        have hcount := hm.count n hn
        show n = (m.modify i (·.cleanup now)).size
        omega
  | clearing left =>
    simp only [next]
    split
    · refine ⟨⟨?_, ?_⟩, trivial⟩
      · intro shard hshard
        obtain ⟨old, -, rfl⟩ := List.mem_map.mp hshard
        exact CacheShard.Sound.clear old
      · intro n hn
        cases hn
        exact (List.sum_eq_zero (by simp [CacheShard.clear])).symm
    · exact ⟨hm, trivial⟩
    · rename_i hcount
      refine ⟨⟨hm.shards_modify fun shard _ => CacheShard.Sound.clear shard, ?_⟩, trivial⟩
      rw [SharedCache.count_modify, hcount]
      simp
  | done => exact ⟨hm, trivial⟩

end Step

/-! ## Every run -/

namespace CacheThread

def removes : CacheThread → Option GoString
  | .remove key _ => some key
  | _ => none

def expired (now : Int) : CacheThread → Option (GoString × Nat)
  | .found key entry _ => if entry.expiresAt < now then some (key, entry.origin) else none
  | _ => none

theorem start_sound (m : SharedCache) (c : Interface Nat) (request : CacheRequest) :
    (start c request).Sound m := by
  cases request <;> simp only [start, storing] <;> (try split) <;> exact trivial

end CacheThread

namespace CachePool

variable {c : Interface Nat} {p : CachePool}

/-- The turn does not remove an entry that was stored after the call had looked its key up. -/
def spares (p : CachePool) : Turn CacheRequest CacheInput → Bool
  | .spawn _ => true
  | .run i _ =>
    match p.threads[i]? with
    | some (.remove key since) => (p.memory.stamp key).all (· < since)
    | _ => true

/-- The turn leaves the entries that other calls are about to remove as they are, and a call that
finds its entry expired finds it still in the map. -/
def Undisturbed (c : Interface Nat) (p : CachePool) : Turn CacheRequest CacheInput → Prop
  | .spawn _ => True
  | .run i input =>
    (∀ t ∈ p.threads.eraseIdx i, ∀ key ∈ t.removes,
      (p.step c (.run i input)).memory.stamp key = p.memory.stamp key) ∧
    ∀ t ∈ p.threads[i]?, ∀ e ∈ t.expired input.now, p.memory.stamp e.1 = some e.2

instance decidableUndisturbed (c : Interface Nat) (p : CachePool) :
    ∀ turn, Decidable (p.Undisturbed c turn)
  | .spawn _ => isTrue trivial
  | .run _ _ => inferInstanceAs (Decidable (_ ∧ _))

structure Sound (p : CachePool) : Prop where
  memory : p.memory.Sound
  threads : ∀ (j : Nat) (t : CacheThread), p.threads[j]? = some t → t.Sound p.memory

theorem Sound.step (h : p.Sound) {turn : Turn CacheRequest CacheInput}
    (hturn : p.Undisturbed c turn) : (p.step c turn).Sound := by
  cases turn with
  | spawn request =>
    exact ⟨h.memory, Pool.forall_spawn request (CacheThread.start_sound _ c request) h.threads⟩
  | run i input =>
    cases hthread : p.threads[i]? with
    | none =>
      rw [CachePool.step, Pool.step_run_none hthread]
      exact h
    | some t =>
      obtain ⟨hothers, hown⟩ := hturn
      have hstep : (p.step c (.run i input)).memory = (t.next p.memory input).1 := by
        rw [CachePool.step, Pool.step_run hthread]
      obtain ⟨hmemory, hself⟩ := CacheThread.next_sound h.memory (h.threads i t hthread) (by
        rintro key entry since rfl hexpired
        exact hown _ hthread (key, entry.origin) (if_pos hexpired))
      refine ⟨hstep ▸ hmemory, Pool.forall_run hthread (hstep ▸ hself) ?_⟩
      intro j u hj hu
      have hsound := h.threads j u hu
      cases u with
      | remove key since =>
        have hkept := hothers _ (List.mem_eraseIdx_iff_getElem?.mpr ⟨j, hj, hu⟩) key rfl
        show ∃ stamp, (p.step c (.run i input)).memory.stamp key = some stamp ∧ stamp < since
        rw [hkept]
        exact hsound
      | found key entry since => exact hsound
      | _ => exact trivial

theorem Sound.spares (h : p.Sound) (turn : Turn CacheRequest CacheInput) :
    p.spares turn = true := by
  cases turn with
  | spawn request => rfl
  | run i input =>
    simp only [CachePool.spares]
    split
    · rename_i key since hthread
      obtain ⟨stamp, hstamp, hlt⟩ := h.threads i _ hthread
      rw [hstamp, Option.all_some]
      exact decide_eq_true hlt
    · rfl

end CachePool

theorem ofInterface_sound {cfg : CacheConfig} {c : Interface Nat} (hnew : new cfg = some c) :
    (SharedCache.ofInterface c).Sound := by
  simp only [new] at hnew
  split at hnew
  · cases hnew
  · split at hnew
    · cases hnew
      refine ⟨?_, by simp [SharedCache.ofInterface]⟩
      intro shard hshard
      rw [List.eq_of_mem_replicate hshard]
      exact CacheShard.Sound.clear ⟨[], _⟩
    · cases hnew
      refine ⟨?_, ?_⟩
      · intro shard hshard
        rw [List.mem_singleton.mp hshard]
        exact CacheShard.Sound.clear ⟨[], _⟩
      · intro n hn
        cases hn
        rfl

/-- In every interleaving in which nothing happens to an entry from when a call finds it expired
until the call removes it, no removal meets an entry stored after the lookup, and whenever every
call has returned `Stats` reports the number of entries. -/
theorem expiry_spares_fresh_entries {cfg : CacheConfig} {c : Interface Nat}
    (hnew : new cfg = some c) {turns : List (Turn CacheRequest CacheInput)}
    (hturns : AllSteps (CachePool.step c) (CachePool.Undisturbed c) ⟨.ofInterface c, []⟩ turns) :
    AllSteps (CachePool.step c) (fun p turn => p.spares turn = true) ⟨.ofInterface c, []⟩ turns ∧
      ∀ p ∈ states (CachePool.step c) ⟨.ofInterface c, []⟩ turns, (∀ t ∈ p.threads, t = .done) →
        p.memory.reported = p.memory.size := by
  have hstart : CachePool.Sound ⟨.ofInterface c, []⟩ := ⟨ofInterface_sound hnew, by simp⟩
  constructor
  · exact hturns.imp_of_invariant (fun _ turn hturn h => ⟨h.step hturn, h.spares turn⟩) hstart
  · intro p hp _
    have hsound := invariant_states (fun _ _ hturn h => h.step hturn) hturns hstart p hp
    cases hcount : p.memory.count with
    | none => rw [SharedCache.reported, hcount, Option.getD_none]
    | some n => rw [SharedCache.reported, hcount, Option.getD_some, hsound.memory.count n hcount]

def briefConfig : CacheConfig := { enabled := true, maxEntries := 10, blockedTTL := second }

def expiring (between : List (Turn CacheRequest CacheInput)) :
    List (Turn CacheRequest CacheInput) :=
  let query : Msg := { question := [⟨lit "a.", 1, 1⟩] }
  [.spawn (.setBlocked query {} 0), .run 0 {}, .spawn (.getWithTrace query), .run 1 {},
    .run 1 { now := 2 * second }] ++ between ++ [.run 1 {}]

def replacing : List (Turn CacheRequest CacheInput) :=
  expiring [.spawn (.setBlocked { question := [⟨lit "a.", 1, 1⟩] } {} (2 * second)), .run 2 {}]
def clearing : List (Turn CacheRequest CacheInput) := expiring [.spawn .clear, .run 2 {}]

theorem expiry_spares_fresh_entries_alone :
    ∃ c, new briefConfig = some c ∧
      AllSteps (CachePool.step c) (fun p turn => p.spares turn = true) ⟨.ofInterface c, []⟩
        (expiring []) :=
  ⟨_, rfl, (@expiry_spares_fresh_entries briefConfig _ rfl _ (by decide +kernel)).1⟩

/-- The fresh entry is removed; and a cleared cache reports one entry less than none. -/
theorem expiry_removes_fresh_entry :
    ∃ c, new briefConfig = some c ∧
      ¬ AllSteps (CachePool.step c) (fun p turn => p.spares turn = true) ⟨.ofInterface c, []⟩
        replacing ∧
      (∀ t ∈ (exec (CachePool.step c) ⟨.ofInterface c, []⟩ clearing).threads, t = .done) ∧
      (exec (CachePool.step c) ⟨.ofInterface c, []⟩ clearing).memory.size = 0 ∧
      (exec (CachePool.step c) ⟨.ofInterface c, []⟩ clearing).memory.reported = -1 :=
  ⟨_, rfl, by decide +kernel⟩

end GloryHole.Cache
