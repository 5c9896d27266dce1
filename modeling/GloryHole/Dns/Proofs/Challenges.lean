import Mathlib
import GloryHole.Support.Runs
import GloryHole.Dns.Acme

/-!
# Which challenges coexist

`Present` takes every record of its name for a stale one, so a challenge of a domain and one of
its wildcard, which have one name, do not coexist.  Challenges of different names do: the id
kept for a token stays that of its challenge's record.
-/

namespace GloryHole.Dns.Acme

open Go Support.Runs

variable {info : ChallengeInfo} {p : Provider} {s : Session} {c : Challenge}

def IsRecordOf (info : ChallengeInfo) (c : Challenge) (r : Record) : Prop :=
  r.name = info.name c.domain ∧ r.content = Provider.content (info.value c.keyAuth)

def Coexist (info : ChallengeInfo) (s : Session) : Prop :=
  ∀ c ∈ s.pending, ∃ r ∈ s.provider.zone.records, IsRecordOf info c r

/-- A challenge is presented only when no other one of its name is pending. -/
def Alone (info : ChallengeInfo) (s : Session) : Call → Prop
  | .present c => ∀ c' ∈ s.pending, c' ≠ c → info.name c'.domain ≠ info.name c.domain
  | .cleanUp _ => True

def OwnTokens (calls : List Call) : Prop :=
  ∀ a ∈ calls, ∀ b ∈ calls, a.challenge.token = b.challenge.token → a.challenge = b.challenge

def OwnValues (info : ChallengeInfo) (calls : List Call) : Prop :=
  ∀ a ∈ calls, ∀ b ∈ calls,
    info.value a.challenge.keyAuth = info.value b.challenge.keyAuth → a.challenge = b.challenge

/-! ## The records after a call -/

theorem mem_delete {z : Zone} {id : Nat} {r : Record} :
    r ∈ (z.delete id).records ↔ r ∈ z.records ∧ r.id ≠ id := by
  simp [Zone.delete]

theorem mem_foldl_deleteRecord {ids : List Nat} {r : Record} :
    r ∈ (ids.foldl Provider.deleteRecord p).zone.records ↔
      r ∈ p.zone.records ∧ r.id ∉ ids := by
  induction ids generalizing p with
  | nil => simp
  | cons id ids ih =>
    rw [List.foldl_cons, ih, List.mem_cons, not_or]
    show r ∈ (p.zone.delete id).records ∧ _ ↔ _
    rw [mem_delete, and_assoc]

theorem foldl_deleteRecord_rest (ids : List Nat) :
    (ids.foldl Provider.deleteRecord p).recordIDs = p.recordIDs ∧
      (ids.foldl Provider.deleteRecord p).zone.nextID = p.zone.nextID := by
  induction ids generalizing p with
  | nil => exact ⟨rfl, rfl⟩
  | cons id ids ih => exact ih

theorem Zone.eq_of_id_eq (z : Zone) {r r' : Record} (hr : r ∈ z.records) (hr' : r' ∈ z.records)
    (h : r.id = r'.id) : r = r' :=
  List.inj_on_of_nodup_map z.ids_nodup hr hr' h

/-- Exactly the records of other names are left. -/
theorem mem_purgeStaleRecords {fqdn : GoString} {r : Record} :
    r ∈ (p.purgeStaleRecords fqdn).zone.records ↔ r ∈ p.zone.records ∧ r.name ≠ fqdn := by
  rw [Provider.purgeStaleRecords, mem_foldl_deleteRecord]
  refine and_congr_right fun hr => not_congr ?_
  simp only [Zone.list, List.mem_map, List.mem_filter, beq_iff_eq]
  constructor
  · rintro ⟨r', ⟨hr', hname⟩, hid⟩
    rw [← p.zone.eq_of_id_eq hr' hr hid]
    exact hname
  · intro hname
    exact ⟨r, ⟨hr, hname⟩, rfl⟩

theorem mem_present {r : Record} :
    r ∈ (p.present info c).zone.records ↔
      (r ∈ p.zone.records ∧ r.name ≠ info.name c.domain) ∨
        r = ⟨p.zone.nextID, info.name c.domain,
          Provider.content (info.value c.keyAuth)⟩ := by
  have hnext := (foldl_deleteRecord_rest (p := p) (p.zone.list (info.name c.domain))).2
  show r ∈ (p.purgeStaleRecords (info.name c.domain)).zone.records ++ [_] ↔ _
  rw [List.mem_append, mem_purgeStaleRecords, List.mem_singleton, Provider.purgeStaleRecords,
    hnext]

theorem recordIDs_present (token : GoString) :
    (p.present info c).recordIDs token =
      if token = c.token then some p.zone.nextID else p.recordIDs token := by
  obtain ⟨hids, hnext⟩ := foldl_deleteRecord_rest (p := p) (p.zone.list (info.name c.domain))
  show Function.update _ _ _ _ = _
  rw [Function.update_apply, Provider.purgeStaleRecords, hids, hnext]

theorem recordIDs_cleanUp (token : GoString) :
    (p.cleanUp c).recordIDs token = if token = c.token then none else p.recordIDs token := by
  unfold Provider.cleanUp
  cases hid : p.recordIDs c.token with
  | none =>
    by_cases ht : token = c.token
    · rw [if_pos ht, ht, hid]
    · rw [if_neg ht]
  | some id => exact Function.update_apply _ _ _ _

theorem mem_cleanUp {r : Record} :
    r ∈ (p.cleanUp c).zone.records ↔ r ∈ p.zone.records ∧ p.recordIDs c.token ≠ some r.id := by
  unfold Provider.cleanUp
  cases hid : p.recordIDs c.token with
  | none => simp
  | some id =>
    show r ∈ (p.zone.delete id).records ↔ _
    rw [mem_delete, ne_eq, ne_eq, Option.some.injEq, eq_comm]

/-! ## Calls -/

/-- The ids of the provider are its own: of no two tokens, and none the zone will give. The one
of a pending challenge is that of its record. -/
structure Kept (info : ChallengeInfo) (s : Session) : Prop where
  old : ∀ token id, s.provider.recordIDs token = some id → id < s.provider.zone.nextID
  inj : ∀ token token' id, s.provider.recordIDs token = some id →
    s.provider.recordIDs token' = some id → token = token'
  record : ∀ c ∈ s.pending, ∃ r ∈ s.provider.zone.records,
    s.provider.recordIDs c.token = some r.id ∧ IsRecordOf info c r

theorem kept_start (zone : Zone) : Kept info (Session.start zone) where
  old token id hid := by cases hid
  inj token token' id hid := by cases hid
  record c hc := by cases hc

theorem Kept.coexist (h : Kept info s) : Coexist info s := by
  intro c hc
  obtain ⟨r, hr, -, hrecord⟩ := h.record c hc
  exact ⟨r, hr, hrecord⟩

theorem nextID_present : (p.present info c).zone.nextID = p.zone.nextID + 1 := by
  show (p.purgeStaleRecords _).zone.nextID + 1 = _
  rw [Provider.purgeStaleRecords, (foldl_deleteRecord_rest _).2]

theorem nextID_cleanUp : (p.cleanUp c).zone.nextID = p.zone.nextID := by
  unfold Provider.cleanUp
  cases p.recordIDs c.token <;> rfl

theorem Kept.present (h : Kept info s) (halone : Alone info s (.present c))
    (htoken : ∀ c' ∈ s.pending, c'.token = c.token → c' = c) :
    Kept info (s.step info (.present c)) where
  old token id hid := by
    have hid' : (s.provider.present info c).recordIDs token = some id := hid
    show id < (s.provider.present info c).zone.nextID
    rw [nextID_present]
    rw [recordIDs_present] at hid'
    split at hid'
    · rw [← Option.some.inj hid']
      exact Nat.lt_succ_self _
    · exact Nat.lt_succ_of_lt (h.old token id hid')
  inj token token' id hid hid' := by
    have h₁ : (s.provider.present info c).recordIDs token = some id := hid
    have h₂ : (s.provider.present info c).recordIDs token' = some id := hid'
    rw [recordIDs_present] at h₁ h₂
    -- The new id is larger than those the provider has.
    split at h₁ <;> split at h₂
    · simp_all
    · exact absurd (h.old token' id h₂) (by simp [← Option.some.inj h₁])
    · exact absurd (h.old token id h₁) (by simp [← Option.some.inj h₂])
    · exact h.inj token token' id h₁ h₂
  record c' hc' := by
    rw [show (s.step info (.present c)).pending = s.pending.insert c from rfl,
      List.mem_insert_iff] at hc'
    show ∃ r ∈ (s.provider.present info c).zone.records,
      (s.provider.present info c).recordIDs c'.token = some r.id ∧ IsRecordOf info c' r
    by_cases hcc : c' = c
    · subst hcc
      refine ⟨_, mem_present.mpr (.inr rfl), ?_, rfl, rfl⟩
      rw [recordIDs_present, if_pos rfl]
    · have hpending := hc'.resolve_left hcc
      obtain ⟨r, hr, hid, hrecord⟩ := h.record c' hpending
      refine ⟨r, mem_present.mpr (.inl ⟨hr, ?_⟩), ?_, hrecord⟩
      · rw [hrecord.1]
        exact halone c' hpending hcc
      · rw [recordIDs_present, if_neg fun ht => hcc (htoken c' hpending ht)]
        exact hid

theorem Kept.cleanUp (h : Kept info s) (htoken : ∀ c' ∈ s.pending, c'.token = c.token → c' = c) :
    Kept info (s.step info (.cleanUp c)) where
  old token id hid := by
    have hid' : (s.provider.cleanUp c).recordIDs token = some id := hid
    show id < (s.provider.cleanUp c).zone.nextID
    rw [nextID_cleanUp]
    rw [recordIDs_cleanUp] at hid'
    split at hid'
    · cases hid'
    · exact h.old token id hid'
  inj token token' id hid hid' := by
    have h₁ : (s.provider.cleanUp c).recordIDs token = some id := hid
    have h₂ : (s.provider.cleanUp c).recordIDs token' = some id := hid'
    rw [recordIDs_cleanUp] at h₁ h₂
    split at h₁
    · cases h₁
    · split at h₂
      · cases h₂
      · exact h.inj token token' id h₁ h₂
  record c' hc' := by
    obtain ⟨hpending, hne⟩ := List.mem_filter.mp hc'
    have hcc : c' ≠ c := by simpa using hne
    have ht : c'.token ≠ c.token := fun ht => hcc (htoken c' hpending ht)
    obtain ⟨r, hr, hid, hrecord⟩ := h.record c' hpending
    refine ⟨r, mem_cleanUp.mpr ⟨hr, fun hid' => ht (h.inj _ _ _ hid hid')⟩, ?_, hrecord⟩
    show (s.provider.cleanUp c).recordIDs c'.token = some r.id
    rw [recordIDs_cleanUp, if_neg ht]
    exact hid

theorem pending_step {call : Call} {c' : Challenge}
    (h : c' ∈ (s.step info call).pending) : c' ∈ s.pending ∨ c' = call.challenge := by
  cases call with
  | present c =>
    rw [show (s.step info (.present c)).pending = s.pending.insert c from rfl,
      List.mem_insert_iff] at h
    exact h.symm
  | cleanUp c => exact .inl (List.mem_of_mem_filter h)

/-! ## Runs -/

/-- After a challenge of the same name another one has no record. -/
theorem not_coexist_of_present {c' : Challenge} (hpending : c' ∈ s.pending)
    (hname : info.name c'.domain = info.name c.domain)
    (hvalue : info.value c'.keyAuth ≠ info.value c.keyAuth) :
    ¬Coexist info (s.step info (.present c)) := by
  intro hcoexist
  obtain ⟨r, hr, hrname, hrcontent⟩ := hcoexist c' (List.mem_insert_of_mem hpending)
  rcases mem_present.mp hr with ⟨-, hne⟩ | rfl
  · exact hne (hrname.trans hname)
  · simp only [Provider.content, List.append_cancel_right_eq,
      List.append_cancel_left_eq] at hrcontent
    exact hvalue hrcontent.symm

/-- The calls and the pending challenges are known ones. -/
theorem allSteps_known {calls rest : List Call} (hrest : ∀ a ∈ rest, a ∈ calls)
    (hpending : ∀ c ∈ s.pending, ∃ a ∈ calls, a.challenge = c) :
    AllSteps (Session.step info)
      (fun s call => call ∈ calls ∧ ∀ c ∈ s.pending, ∃ a ∈ calls, a.challenge = c) s rest := by
  induction rest generalizing s with
  | nil => trivial
  | cons call rest ih =>
    have hcall := hrest call List.mem_cons_self
    refine ⟨⟨hcall, hpending⟩, ih (fun a ha => hrest a (List.mem_cons_of_mem _ ha)) ?_⟩
    intro c hc
    rcases pending_step hc with hc | rfl
    · exact hpending c hc
    · exact ⟨call, hcall, rfl⟩

theorem allSteps_known_start (zone : Zone) (calls : List Call) :
    AllSteps (Session.step info)
      (fun s call => call ∈ calls ∧ ∀ c ∈ s.pending, ∃ a ∈ calls, a.challenge = c)
      (Session.start zone) calls :=
  allSteps_known (fun _ h => h) fun c hc => by cases hc

theorem alone_of_coexist (zone : Zone) {calls : List Call} (hvalues : OwnValues info calls)
    (h : ∀ s ∈ states (Session.step info) (Session.start zone) calls, Coexist info s) :
    AllSteps (Session.step info) (Alone info) (Session.start zone) calls := by
  apply ((allSteps_known_start zone calls).and (allSteps_of_forall_states h)).imp
  rintro s call ⟨⟨hcall, hpending⟩, hcoexist⟩
  cases call with
  | cleanUp c => trivial
  | present c =>
    intro c' hc' hne hname
    obtain ⟨a, ha, rfl⟩ := hpending c' hc'
    exact not_coexist_of_present hc' hname (fun hvalue => hne (hvalues a ha _ hcall hvalue))
      hcoexist

theorem coexist_of_alone (zone : Zone) {calls : List Call} (htokens : OwnTokens calls)
    (halone : AllSteps (Session.step info) (Alone info) (Session.start zone) calls) :
    ∀ s ∈ states (Session.step info) (Session.start zone) calls, Coexist info s := by
  intro s hs
  have hstep : ∀ t call,
      (call ∈ calls ∧ ∀ c ∈ t.pending, ∃ a ∈ calls, a.challenge = c) ∧ Alone info t call →
        Kept info t → Kept info (t.step info call) := by
    rintro t call ⟨⟨hcall, hpending⟩, ht⟩ hkept
    have htoken : ∀ c' ∈ t.pending, c'.token = call.challenge.token → c' = call.challenge := by
      intro c' hc' heq
      obtain ⟨a, ha, rfl⟩ := hpending c' hc'
      exact htokens a ha call hcall heq
    cases call with
    | present c => exact hkept.present ht htoken
    | cleanUp c => exact hkept.cleanUp htoken
  have hrun := (allSteps_known_start zone calls).and halone
  exact (invariant_states hstep hrun (kept_start zone) s hs).coexist

/-- The pending challenges have their records in every state if no challenge is presented while
another of its name is pending, and only then if their values differ. -/
theorem challenges_coexist (info : ChallengeInfo) (zone : Zone) (calls : List Call)
    (htokens : OwnTokens calls) :
    (AllSteps (Session.step info) (Alone info) (Session.start zone) calls →
      ∀ s ∈ states (Session.step info) (Session.start zone) calls, Coexist info s) ∧
    (OwnValues info calls →
      (∀ s ∈ states (Session.step info) (Session.start zone) calls, Coexist info s) →
        AllSteps (Session.step info) (Alone info) (Session.start zone) calls) := by
  exact ⟨coexist_of_alone zone htokens, alone_of_coexist zone⟩

/-! ## A domain and its wildcard -/

def plainInfo : ChallengeInfo := ⟨fun domain => lit "_acme-challenge." ++ domain, fun key => key⟩

def emptyZone : Zone := ⟨[], 1, fun _ h => absurd h List.not_mem_nil, List.nodup_nil⟩

def challengeOf (host token : String) : Challenge :=
  ⟨challengeDomain (lit host), lit token, lit token ++ lit ".thumbprint"⟩

def ofDomain : Challenge := challengeOf "example.com" "Uz"

def ofWildcard : Challenge := challengeOf "*.example.com" "f4"

def serialCalls : List Call :=
  [.present ofDomain, .cleanUp ofDomain, .present ofWildcard, .cleanUp ofWildcard]

theorem serial_challenges_coexist :
    OwnTokens serialCalls ∧
      ∀ s ∈ states (Session.step plainInfo) (Session.start emptyZone) serialCalls,
        Coexist plainInfo s := by
  have htokens : OwnTokens serialCalls := by unfold OwnTokens; decide
  refine ⟨htokens, (challenges_coexist plainInfo emptyZone serialCalls htokens).1 ?_⟩
  refine ⟨?_, trivial, ?_, trivial, trivial⟩
  · intro c hc
    cases hc
  · intro c hc
    cases hc

def bothCalls : List Call := [.present ofDomain, .present ofWildcard]

theorem wildcard_purges_domain :
    ∃ s ∈ states (Session.step plainInfo) (Session.start emptyZone) bothCalls,
      s.pending = [ofWildcard, ofDomain] ∧
        s.provider.zone.records =
          [⟨2, lit "_acme-challenge.example.com", lit "\"f4.thumbprint\""⟩] ∧
        ¬Coexist plainInfo s := by
  refine ⟨_, exec_mem_states _ _, by decide, by decide, ?_⟩
  exact @not_coexist_of_present plainInfo _ ofWildcard ofDomain (by decide) (by decide) (by decide)

end GloryHole.Dns.Acme
