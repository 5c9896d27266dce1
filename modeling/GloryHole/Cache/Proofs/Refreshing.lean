import GloryHole.Cache.Proofs.Capacity

/-!
# Storing under a key that is present

`Set` makes room before it looks whether the key is there.  In a full map the refreshed entry then
costs another one, unless the eviction is bound to pick the old entry of the key itself.
-/

namespace GloryHole.Cache

open Go Dns Support.Lists

section Shard

variable {ω : Type} {shard : CacheShard ω} {key : GoString} {own : CacheEntry ω}

theorem oldest_append {l : List (GoString × Int)} {last : GoString × Int}
    (hlast : last.1 ∉ l.map Prod.fst) (h : CacheShard.oldest (l ++ [last]) = some last.1) :
    ∀ c ∈ l, last.2 < c.2 := by
  cases l with
  | nil => simp
  | cons first rest =>
    obtain ⟨hmem, hleast⟩ := foldl_least Prod.snd rest first
    rw [List.cons_append, CacheShard.oldest, List.foldl_append, Option.some_inj] at h
    simp only [List.foldl_cons, List.foldl_nil] at h
    intro c hc
    split at h
    · rename_i hlt
      exact hlt.trans_le (hleast c hc)
    · rw [← h] at hlast
      exact absurd (List.mem_map_of_mem hmem) hlast

def CacheShard.KeepsOthers (shard : CacheShard ω) (key : GoString) (entry : CacheEntry ω) : Prop :=
  ∀ order, shard.Ranges order → ∀ key', key' ≠ key → (shard.entries.lookup key').isSome = true →
    ((shard.insert order key entry).entries.lookup key').isSome = true

/-- There is room, or the eviction can only meet the old entry of the key: the sample is the whole
map, and the old entry has the least recent access. -/
def CacheShard.Harmless (shard : CacheShard ω) (key : GoString) (own : CacheEntry ω) : Prop :=
  (shard.entries.length : Int) < shard.maxEntries ∨
    (shard.entries.length ≤ 5 ∧ ∀ key', key' ≠ key → ∀ entry',
      shard.entries.lookup key' = some entry' → own.lastAccess < entry'.lastAccess)

theorem CacheShard.lookup_insert_of_full {order : List GoString} {removed key' : GoString}
    (hfull : (shard.entries.length : Int) ≥ shard.maxEntries)
    (hevict : shard.evictLRU order = shard.delete removed) (entry : CacheEntry ω)
    (hne : key' ≠ key) :
    (shard.insert order key entry).entries.lookup key' =
      if key' = removed then none else shard.entries.lookup key' := by
  rw [CacheShard.insert, if_pos hfull, hevict, lookup_put_of_ne entry hne]
  split
  · rename_i heq
    rw [List.lookup_eq_none_iff]
    intro e he
    have hkept := (List.mem_filter.mp he).2
    rw [decide_eq_true_eq, ← heq] at hkept
    exact bne_iff_ne.mpr (Ne.symm hkept)
  · rename_i hkept
    exact lookup_delete hkept

theorem CacheShard.keepsOthers_iff (hnodup : (shard.entries.map Prod.fst).Nodup)
    (hown : shard.entries.lookup key = some own) (entry : CacheEntry ω) :
    shard.KeepsOthers key entry ↔ shard.Harmless key own := by
  have hkeys : key ∈ shard.entries.map Prod.fst := List.mem_map_of_mem (mem_of_lookup hown)
  have hne : shard.entries ≠ [] := by
    intro hnil
    rw [hnil] at hkeys
    cases hkeys
  rcases lt_or_ge (shard.entries.length : Int) shard.maxEntries with hroom | hfull
  · refine iff_of_true ?_ (Or.inl hroom)
    intro order _ key' hne' hpresent
    rw [CacheShard.insert, if_neg hroom.not_ge, lookup_put_of_ne entry hne']
    exact hpresent
  · rw [Harmless, or_iff_right hfull.not_gt]
    constructor
    · -- an iteration that meets the key last
      intro hkeeps
      let others := (shard.entries.map Prod.fst).erase key
      have hothers : key ∉ others := hnodup.not_mem_erase
      have hranges : shard.Ranges (others ++ [key]) :=
        (List.perm_append_comm.trans (List.perm_cons_erase hkeys).symm)
      have hlength : others.length + 1 = shard.entries.length := by
        have h := hranges.length_eq
        rwa [List.length_append, List.length_map] at h
      obtain ⟨removed, holdest, hleast, hevict⟩ := hranges.evictLRU hne
      obtain ⟨hsampled, old, hold, -⟩ := hleast
      have hremoved : removed = key := by
        by_contra hother
        have hstays := hkeeps _ hranges removed hother (by rw [hold]; rfl)
        rw [lookup_insert_of_full hfull hevict entry hother, if_pos rfl] at hstays
        cases hstays
      have hfive : shard.entries.length ≤ 5 := by
        by_contra hmany
        rw [List.take_append_of_le_length (by omega), hremoved] at hsampled
        exact hothers (List.mem_of_mem_take hsampled)
      refine ⟨hfive, ?_⟩
      intro key' hne' entry' hentry'
      rw [List.take_of_length_le (by rw [List.length_append, List.length_singleton]; omega),
        List.map_append, hremoved] at holdest
      have hall : ∀ c ∈ others.map shard.accessed, (shard.accessed key).2 < c.2 :=
        oldest_append (by simpa [Function.comp_def, CacheShard.accessed] using hothers) holdest
      have hmem : key' ∈ others :=
        (List.mem_erase_of_ne hne').mpr (List.mem_map_of_mem (mem_of_lookup hentry'))
      simpa [CacheShard.accessed, hown, hentry'] using hall _ (List.mem_map_of_mem hmem)
    · rintro ⟨hfive, hrecent⟩ order hranges key' hne' hpresent
      obtain ⟨removed, -, ⟨-, old, hold, hleast⟩, hevict⟩ := hranges.evictLRU hne
      rw [lookup_insert_of_full hfull hevict entry hne', if_neg, hpresent]
      rintro rfl
      have hmem : key ∈ order.take 5 := by
        rw [List.take_of_length_le (by rw [hranges.length_eq, List.length_map]; exact hfive)]
        exact hranges.mem_iff.mpr hkeys
      have hlt := hrecent key' hne' old hold
      have hle := hleast key hmem own hown
      omega

end Shard

section Both

variable {ω : Type} {c : Interface ω} {r : Msg}

def Interface.index (c : Interface ω) (key : GoString) : Nat :=
  match c with
  | .plain .. => 0
  | .sharded _ shards => shardIndex shards key

theorem Interface.shards_store (h : c.Accepts r) {shard : CacheShard ω}
    (hshard : c.shards[c.index (makeMsgKey r)]? = some shard) (order : List GoString)
    (entry : CacheEntry ω) :
    (c.store order r entry).shards =
      c.shards.set (c.index (makeMsgKey r)) (shard.insert order (makeMsgKey r) entry) := by
  obtain ⟨hquestion, hopen⟩ := h
  cases c with
  | plain cfg own =>
    cases hshard
    have hstore : ¬ (¬ cfg.enabled = true ∨ r.question = []) := by tauto
    rw [Interface.store, if_neg hstore]
    rfl
  | sharded cfg shards =>
    have hfound : shards[Interface.shardIndex shards (makeMsgKey r)]? = some shard := hshard
    simp only [Interface.store, if_neg hquestion, hfound]
    rfl

/-- `Set` for the request removes no other key from any shard, in whatever order the eviction meets
the keys of the shard it stores into. -/
def Interface.SetKeepsOthers (c : Interface ω) (now : Int) (r resp : Msg) (origin : ω) : Prop :=
  ∀ order, (∀ shard, c.shards[c.index (makeMsgKey r)]? = some shard → shard.Ranges order) →
    ∀ (i : Nat) (shard : CacheShard ω), c.shards[i]? = some shard →
      ∃ shard' : CacheShard ω, (c.set order now r resp origin).shards[i]? = some shard' ∧
        ∀ key, key ≠ makeMsgKey r → (shard.entries.lookup key).isSome = true →
          (shard'.entries.lookup key).isSome = true

/-- An answer stored under a key that is present costs no other key exactly if the shard has room
or consists of at most five entries of which the old one has the least recent access. -/
theorem refresh_keeps_others_iff (haccepts : c.Accepts r) {resp : Msg}
    (httl : 0 < determineTTL c.cfg resp) {shard : CacheShard ω} {own : CacheEntry ω}
    (hshard : c.shards[c.index (makeMsgKey r)]? = some shard)
    (hnodup : (shard.entries.map Prod.fst).Nodup)
    (hown : shard.entries.lookup (makeMsgKey r) = some own) (now : Int) (origin : ω) :
    c.SetKeepsOthers now r resp origin ↔ shard.Harmless (makeMsgKey r) own := by
  let entry : CacheEntry ω := ⟨resp, now + determineTTL c.cfg resp, now, origin⟩
  have hset (order : List GoString) : (c.set order now r resp origin).shards =
      c.shards.set (c.index (makeMsgKey r)) (shard.insert order (makeMsgKey r) entry) := by
    rw [Interface.set, if_neg httl.not_ge]
    exact Interface.shards_store haccepts hshard order entry
  obtain ⟨hlt, -⟩ := List.getElem?_eq_some_iff.mp hshard
  rw [← CacheShard.keepsOthers_iff hnodup hown entry]
  constructor
  · intro h order hranges key hne hpresent
    obtain ⟨shard', hshard', hkeeps⟩ := h order (by simpa [hshard] using hranges) _ shard hshard
    rw [hset, List.getElem?_set_self hlt, Option.some_inj] at hshard'
    rw [hshard']
    exact hkeeps key hne hpresent
  · intro h order hranges i shard' hshard'
    rw [hset]
    by_cases hi : c.index (makeMsgKey r) = i
    · subst hi
      rw [hshard, Option.some_inj] at hshard'
      subst hshard'
      exact ⟨_, List.getElem?_set_self hlt, h order (hranges shard hshard)⟩
    · rw [List.getElem?_set_ne hi]
      exact ⟨shard', hshard', fun _ _ hpresent => hpresent⟩

end Both

def twoEntries (maxEntries : Int) : Interface Unit :=
  .plain { singleConfig with maxEntries, negativeTTL := second }
    ⟨[(lit "a.:1", ⟨{}, 9, 0, ()⟩), (lit "b.:1", ⟨{}, 9, 1, ()⟩)], maxEntries⟩

def queryB : Msg := { question := [⟨lit "b.", 1, 1⟩] }

theorem refresh_keeps_others_iff_room : (twoEntries 3).SetKeepsOthers 3 queryB {} () :=
  (refresh_keeps_others_iff ⟨by decide, rfl⟩ (by decide) rfl (by decide +kernel) rfl 3 ()).mpr
    (Or.inl (by decide))

/-- Refreshing `b.` in a full cache removes `a.`. -/
theorem refresh_removes_other_key :
    (twoEntries 2).Accepts queryB ∧ 0 < determineTTL (twoEntries 2).cfg {} ∧
      (((twoEntries 2).set [lit "a.:1", lit "b.:1"] 3 queryB {} ()).shards.map fun shard =>
        shard.entries.map Prod.fst) = [[lit "b.:1"]] := by
  refine ⟨⟨by decide, rfl⟩, by decide, by decide +kernel⟩

end GloryHole.Cache
