import GloryHole.LocalRecords.Proofs.Entries

/-!
# Records after a change of the file

The callback builds the same records as the start-up code, in other words.  Whether it builds them
at all is decided by a comparison of the entries that leaves out the fields of five types.
-/

namespace GloryHole.LocalRecords

open Go Config
open Dns (RData)

/-! ## The callback and the start-up code -/

theorem changeRecord_eq (lower : Nat → Nat) (e : LocalRecordEntry) :
    changeRecord lower e = startRecord lower e := by
  unfold changeRecord startRecord
  cases recordTypeOf e.type with
  | none => rfl
  | some t =>
    cases t with
    | a =>
      cases v4Addresses e.ips with
      | nil => simp
      | cons ip more => cases more <;> simp [withAddresses, newARecord]
    | aaaa =>
      cases v6Addresses e.ips with
      | nil => simp
      | cons ip more => cases more <;> simp [withAddresses, newAAAARecord]
    | srv =>
      cases e.port with
      | none => simp
      | some port => by_cases htarget : e.target = [] <;> simp [htarget]
    | txt => simp only [List.length_pos_iff, ne_eq, ite_not]
    | soa | caa => simp only [ne_eq, ← not_or, ite_not]
    | cname | mx | ptr | ns => simp only [ne_eq, ite_not]

theorem changeLocalRecords_eq (lower : Nat → Nat) (cfg : LocalRecordsConfig) :
    changeLocalRecords lower cfg = startLocalRecords lower cfg := by
  have hrecord : changeRecord lower = startRecord lower := funext (changeRecord_eq lower)
  rw [changeLocalRecords, startLocalRecords, hrecord]

/-- The callback sets a manager like the one after a restart, and so all lookups agree. -/
theorem change_serves_as_start (lower : Nat → Nat) (cfg : LocalRecordsConfig) :
    changeLocalRecords lower cfg = startLocalRecords lower cfg ∧
      ServedAlike lower (changeLocalRecords lower cfg) (startLocalRecords lower cfg) := by
  rw [changeLocalRecords_eq]
  exact ⟨rfl, Manager.SameAnswers.refl lower _⟩

/-! ## Fields that the comparison does not see -/

def SameOthers (lower : Nat → Nat) (x y : LocalRecordEntry) : RecordType → Prop
  | .txt => x.txtRecords = y.txtRecords
  | .mx => x.priority.getD 10 = y.priority.getD 10
  | .srv =>
    x.priority.getD 0 = y.priority.getD 0 ∧ x.weight.getD 0 = y.weight.getD 0 ∧
      x.port.getD 0 = y.port.getD 0
  | .soa =>
    normalizeDomain lower x.ns = normalizeDomain lower y.ns ∧ x.mbox = y.mbox ∧
      x.serial.getD 1 = y.serial.getD 1 ∧ x.refresh.getD 3600 = y.refresh.getD 3600 ∧
      x.retry.getD 600 = y.retry.getD 600 ∧ x.expire.getD 86400 = y.expire.getD 86400 ∧
      x.minttl.getD 300 = y.minttl.getD 300
  | .caa => x.caaFlag.getD 0 = y.caaFlag.getD 0 ∧ x.caaTag = y.caaTag ∧ x.caaValue = y.caaValue
  | .a | .aaaa | .cname | .ptr | .ns => True

/-- Both entries are left out, or both are kept and agree on the fields that are not compared. -/
def SameUnseen (lower : Nat → Nat) (x y : LocalRecordEntry) : Prop :=
  accepted x = accepted y ∧
    (accepted x = true → ∀ t ∈ recordTypeOf x.type, SameOthers lower x y t)

section Entries

variable {lower : Nat → Nat} {x y : LocalRecordEntry}

structure SeenEqual (x y : LocalRecordEntry) : Prop where
  domain : x.domain = y.domain
  type : x.type = y.type
  target : x.target = y.target
  ttl : x.ttl = y.ttl
  wildcard : x.wildcard = y.wildcard
  ips : x.ips = y.ips

theorem equalEntry_iff : equalEntry x y = true ↔ SeenEqual x y := by
  unfold equalEntry
  simp only [Bool.and_eq_true, beq_iff_eq]
  constructor
  · rintro ⟨⟨⟨⟨⟨hdomain, htype⟩, htarget⟩, httl⟩, hwildcard⟩, hips⟩
    exact ⟨hdomain, htype, htarget, httl, hwildcard, hips⟩
  · intro h
    exact ⟨⟨⟨⟨⟨h.domain, h.type⟩, h.target⟩, h.ttl⟩, h.wildcard⟩, h.ips⟩

theorem shown_eq_iff (h : SeenEqual x y) (t : RecordType) :
    shown (applyEntry x (recordFor lower x t)) = shown (applyEntry y (recordFor lower y t)) ↔
      SameOthers lower x y t := by
  have httl : entryTTL x = entryTTL y := by unfold entryTTL; rw [h.ttl]
  have haddress : t.isAddress = true →
      (shown (applyEntry x (recordFor lower x t)) = shown (applyEntry y (recordFor lower y t)) ↔
        (recordFor lower x t).ips.map sixteen = (recordFor lower y t).ips.map sixteen) := by
    intro ht
    rw [shown_applyEntry_address ht, shown_applyEntry_address ht, httl, Answer.addresses.injEq]
    exact and_iff_left rfl
  have hdata : t.isAddress = false →
      (shown (applyEntry x (recordFor lower x t)) = shown (applyEntry y (recordFor lower y t)) ↔
        rdata (recordFor lower x t) = rdata (recordFor lower y t)) := by
    intro ht
    rw [shown_applyEntry_data ht, shown_applyEntry_data ht, httl, Answer.data.injEq]
    exact and_iff_left rfl
  cases t with
  | a | aaaa => rw [haddress rfl]; simp [recordFor, SameOthers, h.ips]
  | txt => rw [hdata rfl]; exact RData.txt.injEq _ _ ▸ Iff.rfl
  | soa | caa =>
    rw [hdata rfl]
    simp [rdata, recordFor, SameOthers, newSOARecord, newCAARecord, newLocalRecord]
  | mx | srv | cname | ptr | ns =>
    rw [hdata rfl]
    simp [rdata, recordFor, SameOthers, newMXRecord, newSRVRecord, newCNAMERecord, newPTRRecord,
      newNSRecord, newTargetRecord, newLocalRecord, h.target]

theorem sameUnseen_iff (lower : Nat → Nat) (h : SeenEqual x y) :
    answerOf (startRecord lower x) = answerOf (startRecord lower y) ↔ SameUnseen lower x y := by
  rw [answerOf_startRecord, answerOf_startRecord, ← h.type]
  unfold SameUnseen
  cases ht : recordTypeOf x.type with
  | none =>
    have hy : recordTypeOf y.type = none := h.type ▸ ht
    simp [accepted, ht, hy]
  | some t =>
    rw [Option.bind_some, Option.bind_some]
    cases accepted x <;> cases accepted y
    case true.true =>
      rw [if_pos rfl, if_pos rfl, Option.some.injEq, shown_eq_iff h]
      simp
    all_goals simp

theorem keeps_seenEqual (lower : Nat → Nat) (h : SeenEqual x y) :
    Keeps (recordTypeOf x.type) (normalizeDomain lower (normalizeDomain lower x.domain))
      x.wildcard (entryTTL x) (kept lower (startRecord lower y))
      (answerOf (startRecord lower y)) := by
  have hkeeps := keeps_start lower y
  have httl : entryTTL x = entryTTL y := by unfold entryTTL; rw [h.ttl]
  rwa [← h.type, ← h.domain, ← h.wildcard, ← httl] at hkeeps

theorem rel_of_sameUnseen (h : SeenEqual x y) (hsame : SameUnseen lower x y) :
    Option.Rel (fun r r' => Alike lower r r' ∧ r.ttl = r'.ttl) (kept lower (startRecord lower x))
      (kept lower (startRecord lower y)) := by
  have hy := keeps_seenEqual lower h
  rw [← (sameUnseen_iff lower h).mpr hsame] at hy
  apply (keeps_start lower x).rel hy (fun _ => rfl)
  intro r r' halike httl httl'
  exact ⟨halike, httl.trans httl'.symm⟩

end Entries

/-! ## Changes that are not seen -/

theorem ttlOf_eq_of_forall₂ {lower : Nat → Nat} {rs rs' : List LocalRecord}
    (h : List.Forall₂ (fun r r' => Alike lower r r' ∧ r.ttl = r'.ttl) rs rs') (t : RecordType)
    (name : GoString) : ttlOf t (exactAt lower name rs) = ttlOf t (exactAt lower name rs') := by
  have hexact : List.Forall₂ (fun r r' => Alike lower r r' ∧ r.ttl = r'.ttl)
      (exactAt lower name rs) (exactAt lower name rs') :=
    forall₂_filter (fun r r' hr => by rw [hr.1.wildcard, hr.1.covers]) h
  rw [ttlOf_eq, ttlOf_eq]
  congr 1
  exact map_eq_of_forall₂ (fun _ _ hr => hr.2) (forall₂_filter (fun r r' hr => hr.1.isOf t) hexact)

theorem seenEqual_of_equalLocalRecordsConfig {a b : LocalRecordsConfig}
    (h : equalLocalRecordsConfig a b = true) :
    a.enabled = b.enabled ∧ ∀ p ∈ a.records.zip b.records, SeenEqual p.1 p.2 := by
  simp only [equalLocalRecordsConfig, Bool.and_eq_true, beq_iff_eq, List.all_eq_true] at h
  exact ⟨h.1.1, fun p hp => equalEntry_iff.mp (h.2 p hp)⟩

/-- If the comparison sees no change, the records of every part of the old entries are served as
those of the same part of the new ones exactly if each pair agrees on what is not compared. -/
theorem unseen_change_serves_alike_iff (lower : Nat → Nat) {a b : LocalRecordsConfig}
    (h : equalLocalRecordsConfig a b = true) :
    (∀ pairs : List (LocalRecordEntry × LocalRecordEntry),
        pairs.Sublist (a.records.zip b.records) →
        ServedAlike lower (changeLocalRecords lower { a with records := pairs.map (·.1) })
          (changeLocalRecords lower { b with records := pairs.map (·.2) })) ↔
      (a.enabled = true → ∀ p ∈ a.records.zip b.records, SameUnseen lower p.1 p.2) := by
  obtain ⟨henabled, hseen⟩ := seenEqual_of_equalLocalRecordsConfig h
  simp only [changeLocalRecords_eq, ServedAlike, startLocalRecords, getD_buildManager, ← henabled,
    List.filterMap_map]
  cases a.enabled with
  | false => simp [Manager.SameAnswers.refl]
  | true =>
    simp only [if_true, forall_const]
    constructor
    · intro hparts p hp
      have hpair := hseen p hp
      have hone := hparts [p] (List.singleton_sublist.mpr hp)
      rw [filterMap_one, filterMap_one] at hone
      rw [← sameUnseen_iff lower hpair]
      exact ((keeps_start lower p.1).answer_eq (keeps_seenEqual lower hpair) hone.answers).1
    · intro hsame pairs hsub
      have hrel := forall₂_filterMap fun p hp =>
        rel_of_sameUnseen (hseen p (hsub.subset hp)) (hsame p (hsub.subset hp))
      apply sameAnswers_of_forall₂ (hrel.imp fun _ _ hr => hr.1)
      intro t _ name
      exact ttlOf_eq_of_forall₂ hrel t name

def exchangerConfig (priority : Option UInt16) : LocalRecordsConfig :=
  { enabled := true
    records := [
      { type := lit "MX", domain := lit "home.lan", target := lit "mail.home.lan",
        priority := priority }] }

theorem unseen_change_serves_alike_default :
    equalLocalRecordsConfig (exchangerConfig none) (exchangerConfig (some 10)) = true ∧
      ServedAlike id (changeLocalRecords id (exchangerConfig none))
        (changeLocalRecords id (exchangerConfig (some 10))) := by
  have hequal : equalLocalRecordsConfig (exchangerConfig none) (exchangerConfig (some 10)) :=
    by decide
  refine ⟨hequal, ?_⟩
  apply (unseen_change_serves_alike_iff id hequal).mpr _ _ (List.Sublist.refl _)
  intro _ p hp
  obtain rfl := List.mem_singleton.mp hp
  refine ⟨by decide, ?_⟩
  rintro _ _ ⟨⟩
  rfl

/-- A priority that is changed in the file is not seen. -/
theorem changed_priority_not_seen :
    equalLocalRecordsConfig (exchangerConfig (some 5)) (exchangerConfig (some 20)) = true ∧
      ¬ ServedAlike id (changeLocalRecords id (exchangerConfig (some 5)))
        (changeLocalRecords id (exchangerConfig (some 20))) := by
  refine ⟨by decide, ?_⟩
  intro h
  have hmx := h.answers .mx (lit "home.lan")
  revert hmx
  decide

end GloryHole.LocalRecords
