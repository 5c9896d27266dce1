import GloryHole.LocalRecords.Proofs.Entries

/-!
# Records after an edit

The API rebuilds the manager from all entries as they are written.  An entry is served as after a
start if it has a domain, nothing that the start-up code would drop, fill in or normalise, and is
no SOA or CAA record, whose fields are not copied.  Address records of one name share a TTL, so one
without a TTL after one with another TTL is told apart as well.
-/

namespace GloryHole.LocalRecords

open Go Config
open Dns (RData)

/-! ## The record that the API makes -/

def copyOf (e : LocalRecordEntry) (t : RecordType) : LocalRecord :=
  { domain := e.domain
    type := t
    target := e.target
    ips := e.ips.filterMap parseIP
    txtRecords := e.txtRecords
    ttl := e.ttl
    wildcard := e.wildcard
    priority := e.priority.getD 0
    weight := e.weight.getD 0
    port := e.port.getD 0 }

theorem apiRecord_eq (e : LocalRecordEntry) :
    apiRecord e = (recordTypeOf e.type).map (copyOf e) := rfl

theorem keeps_api (lower : Nat → Nat) (e : LocalRecordEntry) :
    Keeps (recordTypeOf e.type) (normalizeDomain lower e.domain) e.wildcard e.ttl
      (kept lower (apiRecord e)) (answerOf (apiRecord e)) := by
  apply keeps_of_record
  intro r hr
  obtain ⟨t, ht, rfl⟩ := Option.map_eq_some_iff.mp hr
  exact ⟨rfl, ht, rfl, rfl, rfl⟩

theorem answerOf_apiRecord (e : LocalRecordEntry) :
    answerOf (apiRecord e) = (recordTypeOf e.type).bind fun t =>
      if e.domain ≠ [] ∧ hasData (copyOf e t) t = true then some (shown (copyOf e t))
      else none := by
  rw [apiRecord_eq, answerOf]
  cases recordTypeOf e.type with
  | none => rfl
  | some t =>
    rw [Option.map_some, Option.bind_some, Option.bind_some, isOk_validateRecord]
    simp only [Bool.and_eq_true, decide_eq_true_eq]
    rfl

/-! ## Addresses and TTLs -/

theorem sixteen_of_to4 {s : GoString} {ip short : IP} (hs : parseIP s = some ip)
    (h : to4 ip = some short) : sixteen short = sixteen ip := by
  have hlength := parseIP_length hs
  unfold to4 at h
  rw [if_neg (by omega)] at h
  split at h
  case isFalse => cases h
  case isTrue hmapped =>
    cases h
    have hfour : (ip.drop 12).length = 4 := by rw [List.length_drop, hlength]
    rw [sixteen, sixteen, to16, to16, if_pos hfour, if_neg (by omega), if_pos hlength]
    change v4InV6Head ++ ip.drop 12 = ip
    rw [← hmapped.2, List.take_append_drop]

theorem all_parsed_iff (p : IP → Bool) (ips : List GoString) :
    (ips.filterMap parseIP).all p = true ↔ ∀ s ∈ ips, ∀ ip ∈ parseIP s, p ip = true := by
  rw [List.all_eq_true]
  constructor
  · intro h s hs ip hip
    exact h ip (List.mem_filterMap.mpr ⟨s, hs, hip⟩)
  · intro h ip hip
    obtain ⟨s, hs, hip⟩ := List.mem_filterMap.mp hip
    exact h s hs ip hip

theorem sixteen_v4Addresses {ips : List GoString}
    (h : ∀ s ∈ ips, ∀ ip ∈ parseIP s, (to4 ip).isSome = true) :
    (v4Addresses ips).map sixteen = (ips.filterMap parseIP).map sixteen := by
  induction ips with
  | nil => rfl
  | cons s ips ih =>
    have hrest := ih fun s' hs' => h s' (List.mem_cons_of_mem s hs')
    unfold v4Addresses at hrest ⊢
    rw [List.filterMap_cons, List.filterMap_cons]
    cases hs : parseIP s with
    | none => exact hrest
    | some ip =>
      obtain ⟨short, hshort⟩ := Option.isSome_iff_exists.mp (h s List.mem_cons_self ip hs)
      rw [Option.bind_some, hshort]
      dsimp only
      rw [List.map_cons, List.map_cons, hrest, sixteen_of_to4 hs hshort]

theorem v6Addresses_eq {ips : List GoString}
    (h : ∀ s ∈ ips, ∀ ip ∈ parseIP s, (to4 ip).isNone = true) :
    v6Addresses ips = ips.filterMap parseIP := by
  unfold v6Addresses
  apply List.filterMap_congr
  intro s hs
  cases hip : parseIP s with
  | none => rfl
  | some ip =>
    have hlength := parseIP_length hip
    rw [Option.bind_some, if_neg (by simpa using h s hs ip hip), to16, if_neg (by omega),
      if_pos hlength]

theorem ttl_eq_entryTTL_iff (e : LocalRecordEntry) : e.ttl = entryTTL e ↔ e.ttl ≠ 0 := by
  unfold entryTTL
  by_cases h : e.ttl = 0
  · simp [h]
  · simp [h, UInt32.pos_iff_ne_zero.mpr h]

/-- An exact address record without a TTL is given the default by the lookup. -/
theorem shownTTL_eq_entryTTL_iff (e : LocalRecordEntry) :
    (if e.wildcard = false ∧ e.ttl = 0 then 300 else e.ttl) = entryTTL e ↔
      (e.wildcard = true → e.ttl ≠ 0) := by
  unfold entryTTL
  by_cases h : e.ttl = 0
  · cases e.wildcard <;> simp [h]
  · simp [h, UInt32.pos_iff_ne_zero.mpr h]

/-! ## Entries that are served alike -/

/-- The fields of an entry that are treated in the same way at start-up and by the API. -/
def SameData (lower : Nat → Nat) (e : LocalRecordEntry) : RecordType → Prop
  | .a =>
    (∀ s ∈ e.ips, ∀ ip ∈ parseIP s, (to4 ip).isSome = true) ∧ (e.wildcard = true → e.ttl ≠ 0)
  | .aaaa =>
    (∀ s ∈ e.ips, ∀ ip ∈ parseIP s, (to4 ip).isNone = true) ∧ (e.wildcard = true → e.ttl ≠ 0)
  | .cname | .ptr | .srv | .ns => e.target = normalizeDomain lower e.target ∧ e.ttl ≠ 0
  | .mx => e.priority ≠ none ∧ e.target = normalizeDomain lower e.target ∧ e.ttl ≠ 0
  | .txt => e.ttl ≠ 0
  | .soa | .caa => False

def SoundEntry (lower : Nat → Nat) (e : LocalRecordEntry) : Prop :=
  accepted e = true → e.domain ≠ [] ∧
    normalizeDomain lower (normalizeDomain lower e.domain) = normalizeDomain lower e.domain ∧
    ∀ t ∈ recordTypeOf e.type, SameData lower e t

section Entry

variable {lower : Nat → Nat} {e : LocalRecordEntry} {t : RecordType}

theorem accepted_iff (ht : recordTypeOf e.type = some t) :
    accepted e = (hasFields e t && fitsData e t) := by
  rw [accepted, ht, Option.any_some]

theorem parsed_ne_nil {ips : List GoString} {form : IP → Option IP}
    (h : ips.filterMap (fun s => (parseIP s).bind form) ≠ []) : ips.filterMap parseIP ≠ [] := by
  obtain ⟨addr, haddr⟩ := List.exists_mem_of_ne_nil _ h
  obtain ⟨s, hs, hip⟩ := List.mem_filterMap.mp haddr
  obtain ⟨ip, hip, _⟩ := Option.bind_eq_some_iff.mp hip
  exact List.ne_nil_of_mem (List.mem_filterMap.mpr ⟨s, hs, hip⟩)

/-- A record without authority or tag is refused. -/
theorem hasData_copyOf_iff :
    hasData (copyOf e t) t = true ↔
      (t = .a → e.ips.filterMap parseIP ≠ [] ∧
        ∀ s ∈ e.ips, ∀ ip ∈ parseIP s, (to4 ip).isSome = true) ∧
      (t = .aaaa → e.ips.filterMap parseIP ≠ [] ∧
        ∀ s ∈ e.ips, ∀ ip ∈ parseIP s, (to4 ip).isNone = true) ∧
      (t ≠ .a → t ≠ .aaaa → t ≠ .soa ∧ t ≠ .caa ∧ (hasFields e t && fitsData e t) = true) := by
  cases t <;> simp only [hasData, hasFields, fitsData, Bool.and_eq_true, decide_eq_true_eq] <;>
    simp only [copyOf, all_parsed_iff] <;> simp

theorem accepted_of_hasData (ht : recordTypeOf e.type = some t)
    (h : hasData (copyOf e t) t = true) : accepted e = true := by
  rw [accepted_iff ht]
  obtain ⟨ha, haaaa, hother⟩ := hasData_copyOf_iff.mp h
  by_cases hta : t = .a
  · obtain ⟨hne, hall⟩ := ha hta
    have hmap := sixteen_v4Addresses hall
    subst hta
    simp only [hasFields, fitsData, Bool.and_true, decide_eq_true_eq]
    intro hnone
    rw [hnone] at hmap
    exact hne (List.map_eq_nil_iff.mp hmap.symm)
  · by_cases htaaaa : t = .aaaa
    · obtain ⟨hne, hall⟩ := haaaa htaaaa
      subst htaaaa
      simp only [hasFields, fitsData, Bool.and_true, decide_eq_true_eq, v6Addresses_eq hall]
      exact hne
    · exact (hother hta htaaaa).2.2

theorem shown_copyOf_address (ht : t.isAddress = true) :
    shown (copyOf e t) = .addresses ((e.ips.filterMap parseIP).map sixteen)
      (if e.wildcard = false ∧ e.ttl = 0 then 300 else e.ttl) :=
  if_pos ht

theorem shown_copyOf_data (ht : t.isAddress = false) :
    shown (copyOf e t) = .data (rdata (copyOf e t)) e.ttl :=
  if_neg (by simp [copyOf, ht])

/-- The API serves an entry of the data alike. -/
theorem shown_copyOf_iff (ht : recordTypeOf e.type = some t) (haccepted : accepted e = true) :
    (hasData (copyOf e t) t = true ∧
        shown (copyOf e t) = shown (applyEntry e (recordFor lower e t))) ↔ SameData lower e t := by
  rw [accepted_iff ht] at haccepted
  rw [hasData_copyOf_iff]
  cases t with
  | a =>
    have hfields : v4Addresses e.ips ≠ [] := by simpa [hasFields, fitsData] using haccepted
    rw [shown_copyOf_address rfl, shown_applyEntry_address rfl, Answer.addresses.injEq,
      shownTTL_eq_entryTTL_iff]
    constructor
    · rintro ⟨⟨ha, _⟩, _, httl⟩
      exact ⟨(ha rfl).2, httl⟩
    · rintro ⟨hall, httl⟩
      have hne := parsed_ne_nil hfields
      exact ⟨⟨fun _ => ⟨hne, hall⟩, fun h => absurd h (by decide), fun h => absurd rfl h⟩,
        (sixteen_v4Addresses hall).symm, httl⟩
  | aaaa =>
    have hfields : v6Addresses e.ips ≠ [] := by simpa [hasFields, fitsData] using haccepted
    rw [shown_copyOf_address rfl, shown_applyEntry_address rfl, Answer.addresses.injEq,
      shownTTL_eq_entryTTL_iff]
    constructor
    · rintro ⟨⟨_, haaaa, _⟩, _, httl⟩
      exact ⟨(haaaa rfl).2, httl⟩
    · rintro ⟨hall, httl⟩
      have hne := parsed_ne_nil hfields
      exact ⟨⟨fun h => absurd h (by decide), fun _ => ⟨hne, hall⟩, fun _ h => absurd rfl h⟩,
        congrArg (List.map sixteen) (v6Addresses_eq hall).symm, httl⟩
  | soa | caa => simp [SameData]
  | mx =>
    have hpriority : e.priority.getD 0 = e.priority.getD 10 ↔ e.priority ≠ none := by
      cases e.priority <;> simp
    rw [shown_copyOf_data rfl, shown_applyEntry_data rfl, Answer.data.injEq, ttl_eq_entryTTL_iff]
    simp only [rdata, copyOf, recordFor, newMXRecord, newTargetRecord, newLocalRecord,
      RData.mx.injEq, hpriority]
    simp [SameData, haccepted, and_assoc]
  | txt | srv | cname | ptr | ns =>
    rw [shown_copyOf_data rfl, shown_applyEntry_data rfl, Answer.data.injEq, ttl_eq_entryTTL_iff]
    simp [SameData, haccepted, rdata, copyOf, recordFor, newSRVRecord, newCNAMERecord,
      newPTRRecord, newNSRecord, newTargetRecord, newLocalRecord]

theorem soundEntry_iff (lower : Nat → Nat) (e : LocalRecordEntry) :
    (answerOf (apiRecord e) = answerOf (startRecord lower e) ∧
        (answerOf (apiRecord e) ≠ none → normalizeDomain lower e.domain =
          normalizeDomain lower (normalizeDomain lower e.domain))) ↔ SoundEntry lower e := by
  rw [answerOf_apiRecord, answerOf_startRecord]
  unfold SoundEntry
  cases ht : recordTypeOf e.type with
  | none => simp [accepted, ht]
  | some t =>
    rw [Option.bind_some, Option.bind_some]
    cases haccepted : accepted e with
    | false =>
      have hnone : ¬ (e.domain ≠ [] ∧ hasData (copyOf e t) t = true) := by
        intro h
        rw [accepted_of_hasData ht h.2] at haccepted
        cases haccepted
      simp [hnone]
    | true =>
      rw [if_pos rfl]
      constructor
      · rintro ⟨hanswer, hname⟩ _
        have hkept : e.domain ≠ [] ∧ hasData (copyOf e t) t = true := by
          by_contra hnot
          rw [if_neg hnot] at hanswer
          cases hanswer
        rw [if_pos hkept] at hanswer hname
        refine ⟨hkept.1, (hname (by simp)).symm, ?_⟩
        rintro _ ⟨⟩
        exact (shown_copyOf_iff ht haccepted).mp ⟨hkept.2, Option.some.inj hanswer⟩
      · intro hsound
        obtain ⟨hdomain, hname, hdata⟩ := hsound rfl
        obtain ⟨hkept, hshown⟩ := (shown_copyOf_iff ht haccepted).mpr (hdata t rfl)
        rw [if_pos ⟨hdomain, hkept⟩, hshown]
        exact ⟨rfl, fun _ => hname.symm⟩

end Entry

/-! ## The TTL of several addresses -/

def orDefault (ttl : UInt32) : UInt32 := if ttl > 0 then ttl else 300

theorem lastTTL_append (ttls : List UInt32) (ttl : UInt32) :
    lastTTL (ttls ++ [ttl]) = if ttl > 0 then ttl else lastTTL ttls := by
  rw [lastTTL, List.foldl_append]
  rfl

theorem lastTTL_of_default {ttls : List UInt32} (h : ∀ ttl ∈ ttls, ttl = 0 ∨ ttl = 300) :
    lastTTL ttls = 300 := by
  induction ttls using List.reverseRecOn with
  | nil => rfl
  | append_singleton ttls ttl ih =>
    rw [lastTTL_append, ih fun t ht => h t (List.mem_append_left _ ht)]
    rcases h ttl (by simp) with rfl | rfl <;> rfl

theorem lastTTL_map_orDefault {ttls : List UInt32}
    (h : ttls.Pairwise fun x y => y = 0 → x = 0 ∨ x = 300) :
    lastTTL (ttls.map orDefault) = lastTTL ttls := by
  induction ttls using List.reverseRecOn with
  | nil => rfl
  | append_singleton ttls ttl ih =>
    obtain ⟨hpre, _, hlast⟩ := List.pairwise_append.mp h
    rw [List.map_append, List.map_singleton, lastTTL_append, lastTTL_append, ih hpre]
    by_cases hzero : ttl = 0
    · have hdefault : lastTTL ttls = 300 :=
        lastTTL_of_default fun t ht => hlast t ht ttl (List.mem_singleton_self ttl) hzero
      rw [hzero, hdefault]
      rfl
    · have hpos := UInt32.pos_iff_ne_zero.mpr hzero
      rw [orDefault, if_pos hpos, if_pos hpos]

/-- A record with a TTL of its own stands before one without for the same addresses. -/
structure Masks (r r' : LocalRecord) : Prop where
  type : r.type = r'.type
  address : r.type.isAddress = true
  exact : r.wildcard = false ∧ r'.wildcard = false
  domain : r.domain = r'.domain
  ttl : r.ttl ≠ 0 ∧ r.ttl ≠ 300 ∧ r'.ttl = 0

theorem map_ttl_of_forall₂ {lower : Nat → Nat} {rs rs' : List LocalRecord}
    (h : List.Forall₂ (fun r r' => Alike lower r r' ∧ r'.ttl = orDefault r.ttl) rs rs') :
    rs'.map (·.ttl) = (rs.map (·.ttl)).map orDefault := by
  induction h with
  | nil => rfl
  | cons hr _ ih => simp only [List.map_cons, hr.2, ih]

theorem ttlOf_exactAt {lower : Nat → Nat} {rs rs' : List LocalRecord}
    (h : List.Forall₂ (fun r r' => Alike lower r r' ∧ r'.ttl = orDefault r.ttl) rs rs')
    (hmasks : rs.Pairwise fun r r' => ¬ Masks r r') {t : RecordType} (ht : t.isAddress = true)
    (name : GoString) :
    ttlOf t (exactAt lower name rs) = ttlOf t (exactAt lower name rs') := by
  have hfiltered : List.Forall₂ (fun r r' => Alike lower r r' ∧ r'.ttl = orDefault r.ttl)
      ((exactAt lower name rs).filter (·.isOf t)) ((exactAt lower name rs').filter (·.isOf t)) := by
    apply forall₂_filter (fun r r' hr => hr.1.isOf t)
    exact forall₂_filter (fun r r' hr => by rw [hr.1.wildcard, hr.1.covers]) h
  rw [ttlOf_eq, ttlOf_eq, map_ttl_of_forall₂ hfiltered, lastTTL_map_orDefault]
  rw [List.pairwise_map]
  have hsub : ((exactAt lower name rs).filter (·.isOf t)).Sublist rs :=
    List.filter_sublist.trans List.filter_sublist
  apply (hmasks.sublist hsub).imp_of_mem
  intro r r' hr hr' hnot hzero
  by_contra hother
  apply hnot
  have hfacts : ∀ x ∈ (exactAt lower name rs).filter (·.isOf t),
      x.type = t ∧ x.wildcard = false ∧ x.domain = normalizeDomain lower name := by
    intro x hx
    simp only [exactAt, List.mem_filter, Bool.and_eq_true, Bool.not_eq_true', LocalRecord.isOf,
      decide_eq_true_eq] at hx
    obtain ⟨⟨_, hexact, hcovers⟩, htype, _⟩ := hx
    rw [LocalRecord.covers, hexact, if_neg Bool.false_ne_true, beq_iff_eq] at hcovers
    exact ⟨htype, hexact, hcovers⟩
  obtain ⟨htype, hexact, hdomain⟩ := hfacts r hr
  obtain ⟨htype', hexact', hdomain'⟩ := hfacts r' hr'
  constructor
  case type => rw [htype, htype']
  case address => rw [htype]; exact ht
  case exact => exact ⟨hexact, hexact'⟩
  case domain => rw [hdomain, hdomain']
  case ttl => exact ⟨fun h => hother (Or.inl h), fun h => hother (Or.inr h), hzero⟩

/-- Exact address records of one name are found together, and their TTL shows. -/
theorem ttlOf_eq_of_answers {lower : Nat → Nat} {rs rs' : List LocalRecord} {t : RecordType}
    {name : GoString} (ht : t.isAddress = true) (hne : rs ≠ []) (hne' : rs' ≠ [])
    (hrs : ∀ r ∈ rs, Valid r ∧ r.type = t ∧ r.wildcard = false ∧ r.covers lower name = true)
    (hrs' : ∀ r ∈ rs', Valid r ∧ r.type = t ∧ r.wildcard = false ∧ r.covers lower name = true)
    (h : (ofRecords rs).answers lower t name = (ofRecords rs').answers lower t name) :
    ttlOf t rs = ttlOf t rs' := by
  have hfound : ∀ {qs : List LocalRecord}, qs ≠ [] →
      (∀ r ∈ qs, Valid r ∧ r.type = t ∧ r.wildcard = false ∧ r.covers lower name = true) →
      ∃ ips, sixteenAll ((ofRecords qs).lookupAddresses lower t name) = some (ips, ttlOf t qs) := by
    intro qs hqs hall
    have hexact : exactAt lower name qs = qs := by
      apply List.filter_eq_self.mpr
      intro r hr
      obtain ⟨_, _, hwildcard, hcovers⟩ := hall r hr
      rw [hwildcard, hcovers]
      rfl
    rw [lookupAddresses_ofRecords, hexact, if_neg hqs, sixteenAll_extractIPs, if_neg]
    · exact ⟨_, rfl⟩
    · intro hempty
      obtain ⟨r, hr⟩ := List.exists_mem_of_ne_nil _ hqs
      obtain ⟨hvalid, htype, _, _⟩ := hall r hr
      have hof : r ∈ qs.filter (·.isOf t) :=
        List.mem_filter.mpr ⟨hr, by simp [isOf_eq hvalid, htype]⟩
      have hnil := List.flatten_eq_nil_iff.mp hempty _ (List.mem_map_of_mem hof)
      exact hvalid.ips_ne (by rw [htype]; exact ht) (List.map_eq_nil_iff.mp hnil)
  obtain ⟨ips, hips⟩ := hfound hne hrs
  obtain ⟨ips', hips'⟩ := hfound hne' hrs'
  cases t with
  | a | aaaa =>
    simp only [Manager.answers, Manager.lookupA, Manager.lookupAAAA, hips, hips',
      Option.toList_some, List.map_singleton, List.cons.injEq, Answer.addresses.injEq] at h
    exact h.1.2
  | _ => cases ht

/-! ## Configurations that are served alike -/

/-- An exact address entry with a TTL of its own stands before one without, for one name. -/
structure Clash (lower : Nat → Nat) (x y : LocalRecordEntry) : Prop where
  accepted : accepted x = true ∧ accepted y = true
  type : recordTypeOf x.type = recordTypeOf y.type
  address : ∀ t ∈ recordTypeOf x.type, t.isAddress = true
  exact : x.wildcard = false ∧ y.wildcard = false
  domain : normalizeDomain lower x.domain = normalizeDomain lower y.domain
  ttl : x.ttl ≠ 0 ∧ x.ttl ≠ 300 ∧ y.ttl = 0

section Configuration

variable {lower : Nat → Nat} {e x y : LocalRecordEntry}

theorem rel_of_soundEntry (hsound : SoundEntry lower e) :
    Option.Rel (fun r r' => Alike lower r r' ∧ r'.ttl = orDefault r.ttl)
      (kept lower (apiRecord e)) (kept lower (startRecord lower e)) := by
  obtain ⟨hanswer, hdomain⟩ := (soundEntry_iff lower e).mpr hsound
  have hstart := keeps_start lower e
  rw [← hanswer] at hstart
  apply (keeps_api lower e).rel hstart hdomain
  intro r r' halike httl httl'
  rw [httl, httl']
  exact ⟨halike, rfl⟩

theorem accepted_of_kept {r : LocalRecord} (h : kept lower (apiRecord e) = some r) :
    accepted e = true := by
  have hanswer := (keeps_api lower e).answer
  rw [h, Option.map_some, answerOf_apiRecord] at hanswer
  obtain ⟨t, ht, hshown⟩ := Option.bind_eq_some_iff.mp hanswer.symm
  split at hshown
  case isTrue hdata => exact accepted_of_hasData ht hdata.2
  case isFalse => cases hshown

theorem answerOf_ne_none (h : accepted e = true) : answerOf (startRecord lower e) ≠ none := by
  rw [answerOf_startRecord]
  cases ht : recordTypeOf e.type with
  | none => rw [accepted, ht] at h; cases h
  | some t => simp [h]

theorem pairwise_masks {records : List LocalRecordEntry}
    (h : records.Pairwise fun x y => ¬ Clash lower x y) :
    (records.filterMap fun e => kept lower (apiRecord e)).Pairwise fun r r' => ¬ Masks r r' := by
  rw [List.pairwise_filterMap]
  apply h.imp
  intro x y hclash r hr r' hr' hmasks
  apply hclash
  have hx := keeps_api lower x
  have hy := keeps_api lower y
  constructor
  case accepted => exact ⟨accepted_of_kept hr, accepted_of_kept hr'⟩
  case type => rw [hx.type r hr, hy.type r' hr', hmasks.type]
  case address =>
    intro t ht
    obtain rfl : t = r.type := Option.some.inj (ht.symm.trans (hx.type r hr))
    exact hmasks.address
  case exact =>
    rw [← hx.wildcard r hr, ← hy.wildcard r' hr']
    exact hmasks.exact
  case domain => rw [← hx.domain r hr, ← hy.domain r' hr', hmasks.domain]
  case ttl =>
    rw [← hx.ttl r hr, ← hy.ttl r' hr']
    exact hmasks.ttl

theorem sameAnswers_of_sound {records : List LocalRecordEntry}
    (hsound : ∀ e ∈ records, SoundEntry lower e)
    (hclash : records.Pairwise fun x y => ¬ Clash lower x y) :
    Manager.SameAnswers lower (ofRecords (records.filterMap fun e => kept lower (apiRecord e)))
      (ofRecords (records.filterMap fun e => kept lower (startRecord lower e))) := by
  have hrel := forall₂_filterMap fun e he => rel_of_soundEntry (hsound e he)
  apply sameAnswers_of_forall₂ (hrel.imp fun _ _ h => h.1)
  intro t ht name
  exact ttlOf_exactAt hrel (pairwise_masks hclash) ht name

theorem soundEntry_of_answers
    (h : Manager.SameAnswers lower (ofRecords ([e].filterMap fun e => kept lower (apiRecord e)))
      (ofRecords ([e].filterMap fun e => kept lower (startRecord lower e)))) :
    SoundEntry lower e := by
  rw [← soundEntry_iff]
  apply (keeps_api lower e).answer_eq (keeps_start lower e)
  intro t name
  have hanswers := h.answers t name
  rwa [filterMap_one, filterMap_one] at hanswers

/-- What is kept of an exact entry is found at its name. -/
theorem Keeps.found {t : RecordType} {name : GoString} {ttl : UInt32} {r : Option LocalRecord}
    {answer : Option Answer} (h : Keeps (some t) (normalizeDomain lower name) false ttl r answer)
    (hne : answer ≠ none) :
    ∃ q, r = some q ∧ q.ttl = ttl ∧
      (Valid q ∧ q.type = t ∧ q.wildcard = false ∧ q.covers lower name = true) := by
  obtain ⟨q, rfl⟩ := h.exists_eq_some hne
  exact ⟨q, rfl, h.ttl q rfl, h.valid q rfl, (Option.some.inj (h.type q rfl)).symm,
    h.wildcard q rfl, covers_of_domain (h.domain q rfl)⟩

theorem not_clash_of_answers (hx : SoundEntry lower x) (hy : SoundEntry lower y)
    (h : Manager.SameAnswers lower (ofRecords ([x, y].filterMap fun e => kept lower (apiRecord e)))
      (ofRecords ([x, y].filterMap fun e => kept lower (startRecord lower e)))) :
    ¬ Clash lower x y := by
  intro hclash
  obtain ⟨hax, hay⟩ := hclash.accepted
  obtain ⟨hxttl, hxother, hyttl⟩ := hclash.ttl
  obtain ⟨_, hxname, _⟩ := hx hax
  obtain ⟨_, hyname, _⟩ := hy hay
  obtain ⟨hxanswer, _⟩ := (soundEntry_iff lower x).mpr hx
  obtain ⟨hyanswer, _⟩ := (soundEntry_iff lower y).mpr hy
  obtain ⟨t, ht⟩ : ∃ t, recordTypeOf x.type = some t := by
    cases ht : recordTypeOf x.type with
    | none => rw [accepted, ht] at hax; cases hax
    | some t => exact ⟨t, rfl⟩
  have hxapi := keeps_api lower x
  have hyapi := keeps_api lower y
  have hxstart := keeps_start lower x
  have hystart := keeps_start lower y
  rw [ht, hclash.exact.1, hxanswer] at hxapi
  rw [← hclash.type, ht, hclash.exact.2, ← hclash.domain, hyanswer] at hyapi
  rw [ht, hclash.exact.1, hxname] at hxstart
  rw [← hclash.type, ht, hclash.exact.2, hyname, ← hclash.domain] at hystart
  obtain ⟨rx, hrx, hrxttl, hrxfound⟩ := hxapi.found (answerOf_ne_none hax)
  obtain ⟨ry, hry, hryttl, hryfound⟩ := hyapi.found (answerOf_ne_none hay)
  obtain ⟨sx, hsx, hsxttl, hsxfound⟩ := hxstart.found (answerOf_ne_none hax)
  obtain ⟨sy, hsy, hsyttl, hsyfound⟩ := hystart.found (answerOf_ne_none hay)
  have hanswers := h.answers t x.domain
  simp only [List.filterMap_cons, List.filterMap_nil, hrx, hry, hsx, hsy] at hanswers
  have httl := ttlOf_eq_of_answers (hclash.address t ht) (by simp) (by simp)
    (by simp [hrxfound, hryfound]) (by simp [hsxfound, hsyfound]) hanswers
  have hapi : ttlOf t [rx, ry] = x.ttl := by
    have hpos := UInt32.pos_iff_ne_zero.mpr hxttl
    simp [ttlOf, isOf_eq hrxfound.1, isOf_eq hryfound.1, hrxfound.2.1, hryfound.2.1, hrxttl,
      hryttl, hyttl, hpos]
  have hstart : ttlOf t [sx, sy] = 300 := by
    simp [ttlOf, isOf_eq hsxfound.1, isOf_eq hsyfound.1, hsxfound.2.1, hsyfound.2.1, hsyttl,
      entryTTL, hyttl]
  exact hxother (hapi.symm.trans (httl.trans hstart))

end Configuration

/-- The API serves every part of a configuration as start-up does exactly if it does so with each
entry and no exact address entry without a TTL follows one of another TTL for its name.  Parts,
since entries can hide each other. -/
theorem reload_serves_as_start_iff (lower : Nat → Nat) (cfg : LocalRecordsConfig) :
    (∀ records, records.Sublist cfg.records →
        ServedAlike lower (reloadLocalRecords lower { cfg with records := records })
          (startLocalRecords lower { cfg with records := records })) ↔
      (cfg.enabled = true → (∀ e ∈ cfg.records, SoundEntry lower e) ∧
        cfg.records.Pairwise fun x y => ¬ Clash lower x y) := by
  unfold ServedAlike reloadLocalRecords startLocalRecords
  simp only [getD_buildManager]
  cases cfg.enabled with
  | false => simp [Manager.SameAnswers.refl]
  | true =>
    simp only [if_true, forall_const]
    constructor
    · intro h
      have hsound : ∀ e ∈ cfg.records, SoundEntry lower e := fun e he =>
        soundEntry_of_answers (h [e] (List.singleton_sublist.mpr he))
      refine ⟨hsound, List.pairwise_iff_forall_sublist.mpr ?_⟩
      intro x y hxy
      exact not_clash_of_answers (hsound x (hxy.subset (by simp)))
        (hsound y (hxy.subset (by simp))) (h [x, y] hxy)
    · rintro ⟨hsound, hclash⟩ records hsub
      exact sameAnswers_of_sound (fun e he => hsound e (hsub.subset he)) (hclash.sublist hsub)

def mailConfig : LocalRecordsConfig :=
  { enabled := true
    records := [
      { type := lit "MX", domain := lit "home.lan", target := lit "mail.home.lan.", ttl := 60 }] }

/-- The priority that is not given is 10 after a start and 0 after an edit. -/
theorem reload_changes_default_priority :
    ¬ ServedAlike id (reloadLocalRecords id mailConfig) (startLocalRecords id mailConfig) := by
  intro h
  have hmx := h.answers .mx (lit "home.lan")
  revert hmx
  decide

end GloryHole.LocalRecords
