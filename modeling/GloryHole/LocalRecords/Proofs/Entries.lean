import GloryHole.LocalRecords.Proofs.Serving

/-!
# What an entry is served as

Each builder makes at most one record of an entry.  `Keeps` says what is known of it: its type and
name, its TTL, and the answer it gives on its own.  If two builders agree on these entry by entry,
they build managers that answer alike; and if those they build of one entry answer alike, they
agree on it.
-/

namespace GloryHole.LocalRecords

open Go Config

/-! ## Records kept of an entry -/

def kept (lower : Nat → Nat) (r : Option LocalRecord) : Option LocalRecord :=
  r.bind (added lower)

def answerOf (r : Option LocalRecord) : Option Answer :=
  r.bind fun r => if (validateRecord r).isOk then some (shown r) else none

structure Keeps (type : Option RecordType) (domain : GoString) (wildcard : Bool) (ttl : UInt32)
    (r : Option LocalRecord) (answer : Option Answer) : Prop where
  answer : r.map shown = answer
  valid : ∀ x ∈ r, Valid x
  type : ∀ x ∈ r, type = some x.type
  domain : ∀ x ∈ r, x.domain = domain
  wildcard : ∀ x ∈ r, x.wildcard = wildcard
  ttl : ∀ x ∈ r, x.ttl = ttl

theorem isOk_ite (c : Prop) [Decidable c] (err : RecordError) (x : Except RecordError Unit) :
    (if c then .error err else x : Except RecordError Unit).isOk = (!decide c && x.isOk) := by
  split
  case isTrue h => simp [h, Except.isOk, Except.toBool]
  case isFalse h => simp [h]

theorem isOk_ok (u : Unit) : (.ok u : Except RecordError Unit).isOk = true := rfl

def hasData (r : LocalRecord) : RecordType → Bool
  | .a => r.ips ≠ [] && r.ips.all fun ip => (to4 ip).isSome
  | .aaaa => r.ips ≠ [] && r.ips.all fun ip => (to4 ip).isNone
  | .cname | .mx | .ptr | .ns => r.target ≠ []
  | .srv => r.target ≠ [] && r.port ≠ 0
  | .txt => r.txtRecords ≠ [] && r.txtRecords.all fun txt => txt.length ≤ 255
  | .soa => r.ns ≠ [] && r.mbox ≠ []
  | .caa => r.caaTag ≠ [] && r.caaValue ≠ [] && r.caaTag ∈ validTags

theorem isOk_validateRecord (r : LocalRecord) :
    (validateRecord r).isOk = (decide (r.domain ≠ []) && hasData r r.type) := by
  have hdata : (validateData r).isOk = hasData r r.type := by
    unfold validateData
    cases r.type <;> simp only [isOk_ite, isOk_ok, hasData, decide_not, Bool.not_not, Bool.and_true,
      Bool.decide_eq_true, Bool.decide_or, Bool.not_or, Bool.and_assoc, List.all_eq_not_any_not,
      Option.not_isSome, Option.not_isNone]
    simp only [← decide_not, Nat.not_le]
  rw [validateRecord, isOk_ite, hdata, decide_not]

variable {r : LocalRecord} {lower : Nat → Nat} {e : LocalRecordEntry} {t : RecordType}

theorem valid_of_isOk (henabled : r.enabled = true) (h : (validateRecord r).isOk = true) :
    Valid r where
  enabled := henabled
  ips_ne := by
    intro ht hips
    rw [isOk_validateRecord] at h
    cases hr : r.type <;> rw [hr] at ht h
    case a => simp [hasData, hips] at h
    case aaaa => simp [hasData, hips] at h
    all_goals cases ht

theorem added_eq (lower : Nat → Nat) (r : LocalRecord) :
    added lower r = if (validateRecord r).isOk then
      some { r with domain := normalizeDomain lower r.domain } else none := by
  unfold added
  cases validateRecord r <;> rfl

/-- A record of the type, name, flag and TTL is kept as such. -/
theorem keeps_of_record {lower : Nat → Nat} {type : Option RecordType} {domain : GoString}
    {wildcard : Bool} {ttl : UInt32} {record : Option LocalRecord}
    (h : ∀ r ∈ record, r.enabled = true ∧ type = some r.type ∧ r.domain = domain ∧
      r.wildcard = wildcard ∧ r.ttl = ttl) :
    Keeps type (normalizeDomain lower domain) wildcard ttl (kept lower record)
      (answerOf record) := by
  cases record with
  | none => constructor <;> simp [kept, answerOf]
  | some r =>
    obtain ⟨henabled, htype, hdomain, hwildcard, httl⟩ := h r rfl
    unfold kept answerOf
    rw [Option.bind_some, Option.bind_some, added_eq]
    by_cases hok : (validateRecord r).isOk = true
    · have hvalid := valid_of_isOk henabled hok
      rw [if_pos hok, if_pos hok]
      constructor
      case answer => rfl
      case valid => rintro x ⟨⟩; exact ⟨hvalid.enabled, hvalid.ips_ne⟩
      case type => rintro x ⟨⟩; exact htype
      case domain => rintro x ⟨⟩; rw [← hdomain]
      case wildcard => rintro x ⟨⟩; exact hwildcard
      case ttl => rintro x ⟨⟩; exact httl
    · rw [if_neg hok, if_neg hok]
      constructor <;> simp

/-! ## Names of records -/

theorem normalizeDomain_ne_nil (lower : Nat → Nat) (domain : GoString) :
    normalizeDomain lower domain ≠ [] := by
  unfold normalizeDomain
  dsimp only
  split
  case isTrue h => intro hempty; rw [hempty] at h; exact absurd h (by decide)
  case isFalse => exact List.append_ne_nil_of_right_ne_nil _ (by decide)

theorem covers_of_domain {name : GoString} (h : r.domain = normalizeDomain lower name) :
    r.covers lower name = true := by
  unfold LocalRecord.covers
  rw [h]
  split
  · exact matchesWildcard_self _
  · exact beq_self_eq_true _

theorem matchesWildcard_star {domain suffix : GoString}
    (h : matchesWildcard domain (lit "*." ++ suffix) = true) :
    ∃ label, domain = label ++ suffix ∧
      containsByte (trimSuffix label (lit ".")) (byte '.') = false := by
  unfold matchesWildcard at h
  have hpre : hasPrefix (lit "*." ++ suffix) (lit "*.") = true :=
    List.isPrefixOf_iff_prefix.mpr (List.prefix_append _ _)
  rw [if_pos hpre] at h
  have hdrop : (lit "*." ++ suffix).drop 2 = suffix := rfl
  dsimp only at h
  rw [hdrop] at h
  split at h
  case isTrue => cases h
  case isFalse hnot =>
    have hsuffix : hasSuffix domain suffix = true := by
      by_contra hno
      exact hnot (by simp [hno])
    obtain ⟨label, hlabel⟩ := List.isSuffixOf_iff_suffix.mp hsuffix
    refine ⟨label, hlabel.symm, ?_⟩
    have htake : domain.take (domain.length - suffix.length) = label := by
      rw [← hlabel, List.length_append, Nat.add_sub_cancel, List.take_left]
    rw [htake] at h
    simpa using h

/-- A name that starts with a star and a label is not matched by the wildcard for what follows. -/
theorem length_le_of_matchesWildcard {rest suffix : GoString}
    (h : matchesWildcard (lit "*." ++ rest) (lit "*." ++ suffix) = true) :
    rest.length ≤ suffix.length := by
  obtain ⟨label, hlabel, hdot⟩ := matchesWildcard_star h
  by_contra hlt
  rcases List.append_eq_append_iff.mp hlabel with ⟨more, hmore, hrest⟩ | ⟨more, _, hsuffix⟩
  · have htrim : ∃ tail, trimSuffix label (lit ".") = lit "*." ++ tail := by
      unfold trimSuffix
      split
      · refine ⟨more.take (more.length - 1), ?_⟩
        have hpos : 0 < more.length := by
          have hlength := congrArg List.length hrest
          rw [List.length_append] at hlength
          omega
        have hone : (lit ".").length = 1 := by decide
        rw [hmore, hone, List.length_append, Nat.add_sub_assoc hpos, List.take_length_add_append]
      · exact ⟨more, hmore⟩
    obtain ⟨tail, htail⟩ := htrim
    rw [htail] at hdot
    exact absurd hdot (by simp [containsByte, lit, byte])
  · have hlength := congrArg List.length hsuffix
    rw [List.length_append] at hlength
    omega

theorem matchesWildcard_antisymm {d d' : GoString} (h : matchesWildcard d d' = true)
    (h' : matchesWildcard d' d = true) : d = d' := by
  by_cases hd' : hasPrefix d' (lit "*.") = true
  · by_cases hd : hasPrefix d (lit "*.") = true
    · obtain ⟨rest, rfl⟩ := List.isPrefixOf_iff_prefix.mp hd
      obtain ⟨rest', rfl⟩ := List.isPrefixOf_iff_prefix.mp hd'
      have hlength := Nat.le_antisymm (length_le_of_matchesWildcard h)
        (length_le_of_matchesWildcard h')
      obtain ⟨label, hlabel, _⟩ := matchesWildcard_star h
      rw [(List.append_inj' hlabel hlength).2]
    · rw [matchesWildcard, if_neg hd] at h'
      exact (beq_iff_eq.mp h').symm
  · rw [matchesWildcard, if_neg hd'] at h
    exact beq_iff_eq.mp h

/-- Records for the same names are filed under one name. -/
theorem domain_eq_of_covers {r' : LocalRecord} {name name' : GoString}
    (hwildcard : r.wildcard = r'.wildcard) (hr : r.domain = normalizeDomain lower name)
    (hr' : r'.domain = normalizeDomain lower name') (h : r'.covers lower name = true)
    (h' : r.covers lower name' = true) :
    r.domain = r'.domain := by
  unfold LocalRecord.covers at h h'
  rw [← hr] at h
  rw [← hr', hwildcard] at h'
  cases hw : r'.wildcard with
  | true =>
    rw [hw, if_pos rfl] at h h'
    exact matchesWildcard_antisymm h h'
  | false =>
    rw [hw, if_neg Bool.false_ne_true] at h
    exact (beq_iff_eq.mp h).symm

/-! ## One entry and lists of entries -/

section Agreement

variable {lower : Nat → Nat} {type : Option RecordType} {domain domain' : GoString}
  {wildcard : Bool} {ttl ttl' : UInt32} {r r' : Option LocalRecord} {answer answer' : Option Answer}

theorem Keeps.rel {R : LocalRecord → LocalRecord → Prop}
    (h : Keeps type domain wildcard ttl r answer) (h' : Keeps type domain' wildcard ttl' r' answer)
    (hdomain : answer ≠ none → domain = domain')
    (hR : ∀ x x', Alike lower x x' → x.ttl = ttl → x'.ttl = ttl' → R x x') :
    Option.Rel R r r' := by
  cases r with
  | none =>
    cases r' with
    | none => exact Option.Rel.none
    | some x' => exact absurd (h.answer.trans h'.answer.symm) (by simp)
  | some x =>
    cases r' with
    | none => exact absurd (h.answer.trans h'.answer.symm) (by simp)
    | some x' =>
      have hname : x.domain = x'.domain := by
        rw [h.domain x rfl, h'.domain x' rfl]
        apply hdomain
        rw [← h.answer]
        simp
      have hwildcard : x.wildcard = x'.wildcard := by
        rw [h.wildcard x rfl, h'.wildcard x' rfl]
      apply Option.Rel.some
      apply hR x x' _ (h.ttl x rfl) (h'.ttl x' rfl)
      constructor
      case valid => exact h.valid x rfl
      case valid' => exact h'.valid x' rfl
      case type => exact Option.some.inj ((h.type x rfl).symm.trans (h'.type x' rfl))
      case wildcard => exact hwildcard
      case covers => intro name; unfold LocalRecord.covers; rw [hwildcard, hname]
      case shown => exact Option.some.inj (h.answer.trans h'.answer.symm)

theorem Keeps.exists_eq_some (h : Keeps type domain wildcard ttl r answer)
    (hne : answer ≠ none) : ∃ x, r = some x := by
  cases r with
  | none => exact absurd h.answer.symm hne
  | some x => exact ⟨x, rfl⟩

theorem answers_nil (t : RecordType) (name : GoString) :
    (ofRecords []).answers lower t name = [] := by
  cases t <;> rfl

/-- A record that is kept shows at the name of its entry. -/
theorem Keeps.answers_eq (h : Keeps type (normalizeDomain lower domain) wildcard ttl r answer)
    {x : LocalRecord} (hx : x ∈ r) :
    (ofRecords r.toList).answers lower x.type domain = [shown x] := by
  obtain rfl : r = some x := hx
  rw [Option.toList_some, answers_singleton (h.valid x rfl),
    if_pos ⟨rfl, covers_of_domain (h.domain x rfl)⟩]

/-- Managers of one entry that answer alike have it under one name, with one answer. -/
theorem Keeps.answer_eq (h : Keeps type (normalizeDomain lower domain) wildcard ttl r answer)
    (h' : Keeps type (normalizeDomain lower domain') wildcard ttl' r' answer')
    (hsame : ∀ t name, (ofRecords r.toList).answers lower t name =
      (ofRecords r'.toList).answers lower t name) :
    answer = answer' ∧
      (answer ≠ none → normalizeDomain lower domain = normalizeDomain lower domain') := by
  cases r with
  | none =>
    cases r' with
    | none => exact ⟨h.answer.symm.trans h'.answer, fun hne => absurd h.answer.symm hne⟩
    | some x' =>
      have hshown := h'.answers_eq (x := x') rfl
      rw [← hsame] at hshown
      exact absurd (hshown.symm.trans (answers_nil _ _)) (List.cons_ne_nil _ _)
  | some x =>
    have hshown := h.answers_eq (x := x) rfl
    rw [hsame] at hshown
    cases r' with
    | none => exact absurd (hshown.symm.trans (answers_nil _ _)) (List.cons_ne_nil _ _)
    | some x' =>
      have hshown' := h'.answers_eq (x := x') rfl
      rw [← hsame, Option.toList_some, answers_singleton (h.valid x rfl)] at hshown'
      rw [Option.toList_some, answers_singleton (h'.valid x' rfl)] at hshown
      have hcovers : x'.type = x.type ∧ x'.covers lower domain = true := by
        by_contra hnot
        rw [if_neg hnot] at hshown
        exact absurd hshown.symm (List.cons_ne_nil _ _)
      have hcovers' : x.type = x'.type ∧ x.covers lower domain' = true := by
        by_contra hnot
        rw [if_neg hnot] at hshown'
        exact absurd hshown'.symm (List.cons_ne_nil _ _)
      have hwildcard : x.wildcard = x'.wildcard := by
        rw [h.wildcard x rfl, h'.wildcard x' rfl]
      constructor
      · rw [if_pos hcovers] at hshown
        rw [← h.answer, ← h'.answer, Option.map_some, Option.map_some,
          (List.cons.inj hshown).1]
      · intro _
        rw [← h.domain x rfl, ← h'.domain x' rfl]
        exact domain_eq_of_covers hwildcard (h.domain x rfl) (h'.domain x' rfl) hcovers.2
          hcovers'.2

end Agreement

theorem forall₂_filterMap {α : Type} {R : LocalRecord → LocalRecord → Prop}
    {f g : α → Option LocalRecord} {xs : List α} (h : ∀ x ∈ xs, Option.Rel R (f x) (g x)) :
    List.Forall₂ R (xs.filterMap f) (xs.filterMap g) := by
  induction xs with
  | nil => exact List.Forall₂.nil
  | cons x xs ih =>
    have hrest := ih fun y hy => h y (List.mem_cons_of_mem x hy)
    have hx := h x List.mem_cons_self
    rw [List.filterMap_cons, List.filterMap_cons]
    cases hf : f x <;> cases hg : g x <;> rw [hf, hg] at hx
    case none.none => exact hrest
    case some.some => cases hx with | some hr => exact List.Forall₂.cons hr hrest
    all_goals cases hx

theorem filterMap_one {α : Type} (f : α → Option LocalRecord) (x : α) :
    [x].filterMap f = (f x).toList := by
  rw [List.filterMap_cons]
  cases f x <;> rfl

theorem getD_buildManager (lower : Nat → Nat) (record : LocalRecordEntry → Option LocalRecord)
    (cfg : LocalRecordsConfig) :
    (buildManager lower record cfg).getD {} =
      if cfg.enabled then ofRecords (cfg.records.filterMap fun e => kept lower (record e))
      else {} := by
  unfold buildManager
  cases cfg.enabled with
  | false => rfl
  | true =>
    cases hrecords : cfg.records with
    | nil => rfl
    | cons e records => simp [addEntries_eq, kept]

/-! ## The record of an entry at start-up -/

def entryTTL (e : LocalRecordEntry) : UInt32 := if e.ttl > 0 then e.ttl else 300

def hasFields (e : LocalRecordEntry) : RecordType → Bool
  | .a => v4Addresses e.ips ≠ []
  | .aaaa => v6Addresses e.ips ≠ []
  | .cname | .mx | .ptr | .ns => e.target ≠ []
  | .srv => e.target ≠ [] ∧ e.port.getD 0 ≠ 0
  | .txt => e.txtRecords ≠ []
  | .soa => e.ns ≠ [] ∧ e.mbox ≠ []
  | .caa => e.caaTag ≠ [] ∧ e.caaValue ≠ []

def recordFor (lower : Nat → Nat) (e : LocalRecordEntry) : RecordType → LocalRecord
  | .a => { newLocalRecord lower e.domain .a with ips := v4Addresses e.ips }
  | .aaaa => { newLocalRecord lower e.domain .aaaa with ips := v6Addresses e.ips }
  | .cname => newCNAMERecord lower e.domain e.target
  | .txt => { newLocalRecord lower e.domain .txt with txtRecords := e.txtRecords }
  | .mx => newMXRecord lower e.domain e.target (e.priority.getD 10)
  | .ptr => newPTRRecord lower e.domain e.target
  | .srv =>
    newSRVRecord lower e.domain e.target (e.priority.getD 0) (e.weight.getD 0) (e.port.getD 0)
  | .ns => newNSRecord lower e.domain e.target
  | .soa =>
    newSOARecord lower e.domain e.ns e.mbox (e.serial.getD 1) (e.refresh.getD 3600)
      (e.retry.getD 600) (e.expire.getD 86400) (e.minttl.getD 300)
  | .caa => newCAARecord lower e.domain e.caaTag e.caaValue (e.caaFlag.getD 0)

theorem startRecord_eq (lower : Nat → Nat) (e : LocalRecordEntry) :
    startRecord lower e = (recordTypeOf e.type).bind fun t =>
      if hasFields e t then some (applyEntry e (recordFor lower e t)) else none := by
  unfold startRecord
  cases recordTypeOf e.type with
  | none => rfl
  | some t =>
    dsimp only
    rw [Option.bind_some]
    cases t with
    | a =>
      dsimp only [hasFields, recordFor]
      by_cases hips : e.ips = []
      · simp [hips, v4Addresses]
      · by_cases hnone : v4Addresses e.ips = []
        · simp [hips, hnone]
        · obtain ⟨ip, more, hcons⟩ := List.exists_cons_of_ne_nil hnone
          cases more <;> simp [hips, hcons, withAddresses, newARecord]
    | aaaa =>
      dsimp only [hasFields, recordFor]
      by_cases hips : e.ips = []
      · simp [hips, v6Addresses]
      · by_cases hnone : v6Addresses e.ips = []
        · simp [hips, hnone]
        · obtain ⟨ip, more, hcons⟩ := List.exists_cons_of_ne_nil hnone
          cases more <;> simp [hips, hcons, withAddresses, newAAAARecord]
    | srv =>
      dsimp only [hasFields, recordFor]
      by_cases htarget : e.target = []
      · simp [htarget]
      · rcases Option.eq_none_or_eq_some e.port with hport | ⟨port, hport⟩
        · simp [htarget, hport]
        · by_cases hzero : port = 0 <;> simp [htarget, hport, hzero]
    | soa =>
      by_cases hns : e.ns = [] <;> by_cases hmbox : e.mbox = [] <;>
        simp [hasFields, recordFor, hns, hmbox]
    | caa =>
      by_cases htag : e.caaTag = [] <;> by_cases hvalue : e.caaValue = [] <;>
        simp [hasFields, recordFor, htag, hvalue]
    | txt => by_cases htxt : e.txtRecords = [] <;> simp [hasFields, recordFor, htxt]
    | cname | mx | ptr | ns =>
      by_cases htarget : e.target = [] <;> simp [hasFields, recordFor, htarget]

theorem recordFor_spec (lower : Nat → Nat) (e : LocalRecordEntry) (t : RecordType) :
    (recordFor lower e t).enabled = true ∧ (recordFor lower e t).type = t ∧
      (recordFor lower e t).domain = normalizeDomain lower e.domain ∧
      (recordFor lower e t).ttl = 300 := by
  cases t <;> exact ⟨rfl, rfl, rfl, rfl⟩

theorem keeps_start (lower : Nat → Nat) (e : LocalRecordEntry) :
    Keeps (recordTypeOf e.type) (normalizeDomain lower (normalizeDomain lower e.domain))
      e.wildcard (entryTTL e) (kept lower (startRecord lower e))
      (answerOf (startRecord lower e)) := by
  apply keeps_of_record
  intro r hr
  rw [startRecord_eq] at hr
  obtain ⟨t, ht, hr⟩ := Option.bind_eq_some_iff.mp hr
  split at hr
  case isTrue =>
    cases hr
    obtain ⟨henabled, htype, hdomain, httl⟩ := recordFor_spec lower e t
    refine ⟨henabled, ht.trans (congrArg some htype.symm), hdomain, rfl, ?_⟩
    rw [applyEntry, httl]
    rfl
  case isFalse => cases hr

def fitsData (e : LocalRecordEntry) : RecordType → Bool
  | .txt => e.txtRecords.all fun txt => txt.length ≤ 255
  | .caa => e.caaTag ∈ validTags
  | _ => true

def accepted (e : LocalRecordEntry) : Bool :=
  (recordTypeOf e.type).any fun t => hasFields e t && fitsData e t

/-- The four bytes of an IPv4 address are its own short form. -/
theorem to4_of_to4 {ip short : IP} (h : to4 ip = some short) : to4 short = some short := by
  unfold to4 at h
  split at h
  case isTrue hlength => cases h; exact to4_of_length hlength
  case isFalse =>
    split at h
    case isTrue hmapped =>
      cases h
      apply to4_of_length
      rw [List.length_drop, hmapped.1]
    case isFalse => cases h

theorem all_v4Addresses (ips : List GoString) :
    (v4Addresses ips).all (fun ip => (to4 ip).isSome) = true := by
  rw [List.all_eq_true]
  intro short hshort
  obtain ⟨s, _, hs⟩ := List.mem_filterMap.mp hshort
  obtain ⟨ip, _, hip⟩ := Option.bind_eq_some_iff.mp hs
  rw [to4_of_to4 hip]
  rfl

theorem all_v6Addresses (ips : List GoString) :
    (v6Addresses ips).all (fun ip => (to4 ip).isNone) = true := by
  rw [List.all_eq_true]
  intro long hlong
  obtain ⟨s, _, hs⟩ := List.mem_filterMap.mp hlong
  obtain ⟨ip, hip, hs⟩ := Option.bind_eq_some_iff.mp hs
  have hlength := parseIP_length hip
  split at hs
  case isTrue => cases hs
  case isFalse hno =>
    have hlong : long = ip := by simpa [to16, hlength] using hs.symm
    rw [hlong]
    simpa using hno

theorem isOk_recordFor (lower : Nat → Nat) (h : hasFields e t = true) :
    (validateRecord (applyEntry e (recordFor lower e t))).isOk = fitsData e t := by
  have hnorm : ∀ domain, normalizeDomain lower domain ≠ [] := normalizeDomain_ne_nil lower
  have hdomain : (applyEntry e (recordFor lower e t)).domain = normalizeDomain lower e.domain :=
    (recordFor_spec lower e t).2.2.1
  have htype : (applyEntry e (recordFor lower e t)).type = t := (recordFor_spec lower e t).2.1
  rw [isOk_validateRecord, hdomain, htype, decide_eq_true (hnorm e.domain), Bool.true_and]
  cases t <;> simp only [hasFields, decide_eq_true_eq] at h
  case a => simp [hasData, fitsData, applyEntry, recordFor, h, all_v4Addresses]
  case aaaa => simp [hasData, fitsData, applyEntry, recordFor, h, all_v6Addresses]
  case txt => simp [hasData, fitsData, applyEntry, recordFor, h]
  case srv =>
    simp [hasData, fitsData, applyEntry, recordFor, newSRVRecord, newTargetRecord, h, hnorm]
  case soa => simp [hasData, fitsData, applyEntry, recordFor, newSOARecord, h, hnorm]
  case caa => simp [hasData, fitsData, applyEntry, recordFor, newCAARecord, h]
  case mx => simp [hasData, fitsData, applyEntry, recordFor, newMXRecord, newTargetRecord, hnorm]
  case cname =>
    simp [hasData, fitsData, applyEntry, recordFor, newCNAMERecord, newTargetRecord, hnorm]
  case ptr => simp [hasData, fitsData, applyEntry, recordFor, newPTRRecord, newTargetRecord, hnorm]
  case ns => simp [hasData, fitsData, applyEntry, recordFor, newNSRecord, newTargetRecord, hnorm]

theorem answerOf_startRecord (lower : Nat → Nat) (e : LocalRecordEntry) :
    answerOf (startRecord lower e) = (recordTypeOf e.type).bind fun t =>
      if accepted e then some (shown (applyEntry e (recordFor lower e t))) else none := by
  rw [startRecord_eq]
  unfold accepted answerOf
  cases recordTypeOf e.type with
  | none => rfl
  | some t =>
    rw [Option.bind_some, Option.bind_some, Option.any_some]
    cases hfields : hasFields e t with
    | false => rfl
    | true => rw [if_pos rfl, Option.bind_some, isOk_recordFor lower hfields, Bool.true_and]

theorem entryTTL_ne_zero (e : LocalRecordEntry) : entryTTL e ≠ 0 := by
  unfold entryTTL
  split
  case isTrue h => exact UInt32.pos_iff_ne_zero.mp h
  case isFalse => decide

theorem shown_applyEntry_address (ht : t.isAddress = true) :
    shown (applyEntry e (recordFor lower e t)) =
      .addresses ((recordFor lower e t).ips.map sixteen) (entryTTL e) := by
  obtain ⟨_, htype, _, httl⟩ := recordFor_spec lower e t
  have httl' : (applyEntry e (recordFor lower e t)).ttl = entryTTL e := by
    rw [applyEntry, httl]
    rfl
  have htype' : (applyEntry e (recordFor lower e t)).type = t := htype
  rw [shown, htype', if_pos ht, httl', if_neg (fun h => entryTTL_ne_zero e h.2)]
  rfl

theorem shown_applyEntry_data (ht : t.isAddress = false) :
    shown (applyEntry e (recordFor lower e t)) =
      .data (rdata (recordFor lower e t)) (entryTTL e) := by
  obtain ⟨_, htype, _, httl⟩ := recordFor_spec lower e t
  have htype' : (applyEntry e (recordFor lower e t)).type = t := htype
  rw [shown, htype', if_neg (by simp [ht]), served, applyEntry, httl]
  rfl

end GloryHole.LocalRecords
