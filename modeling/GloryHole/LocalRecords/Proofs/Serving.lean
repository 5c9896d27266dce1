import GloryHole.Dns.LocalAnswers
import GloryHole.LocalRecords.Builders
import GloryHole.LocalRecords.Proofs.Sorting

/-!
# What a list of records is served as

A manager is made of the records that could be added, in their order.  A lookup sees the exact
records of the name and the wildcards that match it.  Managers made of lists whose records cover
the same names with the same data answer every lookup alike; only the TTL of several address
records of one name needs a word of its own.
-/

namespace GloryHole.LocalRecords

open Go Config
open Dns (RData)

/-! ## Managers made of records -/

def added (lower : Nat → Nat) (r : LocalRecord) : Option LocalRecord :=
  match validateRecord r with
  | .ok () => some { r with domain := normalizeDomain lower r.domain }
  | .error _ => none

def ofRecords (rs : List LocalRecord) : Manager := rs.foldl Manager.insert {}

theorem tryAdd_eq (lower : Nat → Nat) (m : Manager) (r : Option LocalRecord) :
    m.tryAdd lower r = (r.bind (added lower)).toList.foldl Manager.insert m := by
  cases r with
  | none => rfl
  | some r =>
    simp only [Manager.tryAdd, Manager.addRecord, added, Option.bind_some]
    cases validateRecord r with
    | error err | ok u => rfl

theorem addEntries_eq (lower : Nat → Nat) (record : LocalRecordEntry → Option LocalRecord)
    (entries : List LocalRecordEntry) :
    addEntries lower record entries =
      ofRecords (entries.filterMap fun e => (record e).bind (added lower)) := by
  unfold addEntries ofRecords
  generalize ({} : Manager) = m
  induction entries generalizing m with
  | nil => rfl
  | cons e entries ih =>
    rw [List.foldl_cons, ih, tryAdd_eq, List.filterMap_cons]
    cases (record e).bind (added lower) with
    | none | some r => rfl

theorem lookup_appendAt (domain n : GoString) (r : LocalRecord)
    (groups : List (GoString × List LocalRecord)) :
    (appendAt domain r groups).lookup n =
      if n = domain then some ((groups.lookup n).getD [] ++ [r]) else groups.lookup n := by
  induction groups with
  | nil =>
    rw [appendAt, List.lookup_cons, List.lookup_nil]
    by_cases h : n = domain
    · simp [h]
    · simp [h, beq_eq_false_iff_ne.mpr h]
  | cons group groups ih =>
    rw [appendAt]
    by_cases hgroup : group.1 = domain
    · rw [if_pos hgroup, List.lookup_cons, List.lookup_cons, hgroup]
      by_cases h : n = domain
      · simp [h]
      · simp [h, beq_eq_false_iff_ne.mpr h]
    · rw [if_neg hgroup, List.lookup_cons, List.lookup_cons, ih]
      by_cases hn : n = group.1
      · have h : n ≠ domain := fun h => hgroup (hn.symm.trans h)
        simp [hn, hgroup]
      · simp [beq_eq_false_iff_ne.mpr hn]

def grouped (n : GoString) (rs : List LocalRecord) : List LocalRecord :=
  rs.filter fun r => !r.wildcard && r.domain == n

theorem ofRecords_append (rs : List LocalRecord) (r : LocalRecord) :
    ofRecords (rs ++ [r]) = (ofRecords rs).insert r := by
  unfold ofRecords
  rw [List.foldl_append]
  rfl

theorem ofRecords_wildcards (rs : List LocalRecord) :
    (ofRecords rs).wildcards = rs.filter fun r => r.wildcard := by
  induction rs using List.reverseRecOn with
  | nil => rfl
  | append_singleton rs r ih =>
    rw [ofRecords_append, List.filter_append, ← ih, Manager.insert]
    cases hr : r.wildcard <;> simp [hr]

theorem ofRecords_lookup (rs : List LocalRecord) (n : GoString) :
    (ofRecords rs).records.lookup n =
      if grouped n rs = [] then none else some (grouped n rs) := by
  induction rs using List.reverseRecOn with
  | nil => rfl
  | append_singleton rs r ih =>
    have hgrouped : grouped n (rs ++ [r]) = grouped n rs ++ grouped n [r] :=
      List.filter_append _ _
    rw [ofRecords_append, hgrouped, Manager.insert]
    cases hr : r.wildcard with
    | true =>
      have hnone : grouped n [r] = [] := by simp [grouped, hr]
      rw [if_pos rfl, hnone, List.append_nil]
      exact ih
    | false =>
      rw [if_neg Bool.false_ne_true]
      dsimp only
      rw [lookup_appendAt, ih]
      by_cases hn : n = r.domain
      · have hone : grouped n [r] = [r] := by simp [grouped, hr, hn]
        have hgroup : (if grouped n rs = [] then none else some (grouped n rs)).getD [] =
            grouped n rs := by
          split
          case isTrue hempty => rw [hempty]; rfl
          case isFalse => rfl
        rw [if_pos hn, hone, hgroup, if_neg (List.concat_ne_nil _ _)]
      · have hnone : grouped n [r] = [] := by simp [grouped, hr, Ne.symm hn]
        rw [if_neg hn, hnone, List.append_nil]

/-! ## What a lookup sees -/

def LocalRecord.covers (lower : Nat → Nat) (r : LocalRecord) (name : GoString) : Bool :=
  if r.wildcard then matchesWildcard (normalizeDomain lower name) r.domain
  else r.domain == normalizeDomain lower name

def exactAt (lower : Nat → Nat) (name : GoString) (rs : List LocalRecord) : List LocalRecord :=
  rs.filter fun r => !r.wildcard && r.covers lower name

def wildAt (lower : Nat → Nat) (name : GoString) (rs : List LocalRecord) : List LocalRecord :=
  rs.filter fun r => r.wildcard && r.covers lower name

theorem grouped_eq (lower : Nat → Nat) (name : GoString) (rs : List LocalRecord) :
    grouped (normalizeDomain lower name) rs = exactAt lower name rs := by
  apply List.filter_congr
  intro r _
  unfold LocalRecord.covers
  cases r.wildcard <;> rfl

/-- A wildcard that is not matched is not looked at. -/
theorem wildcards_filter (lower : Nat → Nat) (name : GoString) (rs : List LocalRecord)
    (p : LocalRecord → Bool) :
    ((ofRecords rs).wildcards.filter fun wc =>
        p wc && matchesWildcard (normalizeDomain lower name) wc.domain) =
      (wildAt lower name rs).filter p := by
  unfold wildAt
  rw [ofRecords_wildcards, List.filter_filter, List.filter_filter]
  apply List.filter_congr
  intro r _
  unfold LocalRecord.covers
  cases r.wildcard <;> simp

theorem find?_wildcards (lower : Nat → Nat) (name : GoString) (rs : List LocalRecord)
    (p : LocalRecord → Bool) :
    ((ofRecords rs).wildcards.find? fun wc =>
        p wc && matchesWildcard (normalizeDomain lower name) wc.domain) =
      (wildAt lower name rs).find? p := by
  rw [← List.head?_filter, ← List.head?_filter, wildcards_filter]

theorem getD_lookup (lower : Nat → Nat) (name : GoString) (rs : List LocalRecord) :
    ((ofRecords rs).records.lookup (normalizeDomain lower name)).getD [] =
      exactAt lower name rs := by
  rw [ofRecords_lookup, grouped_eq]
  split
  case isTrue hempty => exact hempty.symm
  case isFalse => rfl

theorem lookupAddresses_ofRecords (lower : Nat → Nat) (t : RecordType) (name : GoString)
    (rs : List LocalRecord) :
    (ofRecords rs).lookupAddresses lower t name =
      if exactAt lower name rs = [] then
        ((wildAt lower name rs).find? (·.isOf t)).bind fun wc =>
          if wc.ips = [] then none else some (wc.ips, wc.ttl)
      else extractIPs (exactAt lower name rs) t := by
  unfold Manager.lookupAddresses
  dsimp only
  rw [ofRecords_lookup, grouped_eq]
  by_cases hempty : exactAt lower name rs = []
  · rw [if_pos hempty, if_pos hempty]
    dsimp only
    rw [Manager.matchWildcard, find?_wildcards]
    cases (wildAt lower name rs).find? (·.isOf t) <;> rfl
  · rw [if_neg hempty, if_neg hempty]

theorem lookupCNAME_ofRecords (lower : Nat → Nat) (name : GoString) (rs : List LocalRecord) :
    (ofRecords rs).lookupCNAME lower name =
      (((exactAt lower name rs).find? (·.isOf .cname)).or
        ((wildAt lower name rs).find? (·.isOf .cname))).map fun r => (r.target, r.ttl) := by
  unfold Manager.lookupCNAME
  dsimp only
  rw [getD_lookup, find?_wildcards]
  cases (exactAt lower name rs).find? (·.isOf .cname) with
  | some r => rfl
  | none => cases (wildAt lower name rs).find? (·.isOf .cname) <;> rfl

theorem collect_ofRecords (lower : Nat → Nat) (t : RecordType) (name : GoString)
    (rs : List LocalRecord) :
    (ofRecords rs).collect lower t name =
      (exactAt lower name rs).filter (·.isOf t) ++ (wildAt lower name rs).filter (·.isOf t) := by
  unfold Manager.collect
  dsimp only
  rw [getD_lookup, wildcards_filter]

/-! ## Answers -/

inductive Answer where
  | addresses (ips : List IP) (ttl : UInt32)
  | data (data : RData) (ttl : UInt32)
  deriving DecidableEq

def sixteen (ip : IP) : IP := (to16 ip).getD ip

def rdata (r : LocalRecord) : RData :=
  match r.type with
  | .txt => .txt r.txtRecords
  | .mx => .mx r.priority r.target
  | .ptr => .ptr r.target
  | .srv => .srv r.priority r.weight r.port r.target
  | .ns => .ns r.target
  | .soa => .soa r.ns r.mbox r.serial r.refresh r.retry r.expire r.minttl
  | .caa => .caa r.caaFlag r.caaTag r.caaValue
  | .a | .aaaa | .cname => .cname r.target

def served (r : LocalRecord) : Answer := .data (rdata r) r.ttl

def sixteenAll (found : Option (List IP × UInt32)) : Option (List IP × UInt32) :=
  found.map fun found => (found.1.map sixteen, found.2)

namespace Manager

def answers (lower : Nat → Nat) (m : Manager) (t : RecordType) (name : GoString) : List Answer :=
  match t with
  | .a => (sixteenAll (m.lookupA lower name)).toList.map fun found => .addresses found.1 found.2
  | .aaaa =>
    (sixteenAll (m.lookupAAAA lower name)).toList.map fun found => .addresses found.1 found.2
  | .cname => (m.lookupCNAME lower name).toList.map fun found => .data (.cname found.1) found.2
  | .mx => (m.lookupMX lower name).map served
  | .txt => (m.lookupTXT lower name).map served
  | .srv => (m.lookupSRV lower name).map served
  | .ptr => (m.lookupPTR lower name).map served
  | .ns => (m.lookupNS lower name).map served
  | .soa => (m.lookupSOA lower name).map served
  | .caa => (m.lookupCAA lower name).map served

structure SameAnswers (lower : Nat → Nat) (m m' : Manager) : Prop where
  answers : ∀ t name, m.answers lower t name = m'.answers lower t name
  resolved : ∀ name depth, sixteenAll (m.resolveCNAME lower name depth) =
    sixteenAll (m'.resolveCNAME lower name depth)

theorem SameAnswers.refl (lower : Nat → Nat) (m : Manager) : SameAnswers lower m m :=
  ⟨fun _ _ => rfl, fun _ _ => rfl⟩

end Manager

/-- The handler answers alike; without a manager it answers as with an empty one. -/
def ServedAlike (lower : Nat → Nat) (m m' : Option Manager) : Prop :=
  Manager.SameAnswers lower (m.getD {}) (m'.getD {})

/-! ## Records that are served alike -/

def RecordType.isAddress (t : RecordType) : Bool := t == .a || t == .aaaa

def shown (r : LocalRecord) : Answer :=
  if r.type.isAddress then
    .addresses (r.ips.map sixteen) (if r.wildcard = false ∧ r.ttl = 0 then 300 else r.ttl)
  else served r

structure Valid (r : LocalRecord) : Prop where
  enabled : r.enabled = true
  ips_ne : r.type.isAddress = true → r.ips ≠ []

structure Alike (lower : Nat → Nat) (r r' : LocalRecord) : Prop where
  valid : Valid r
  valid' : Valid r'
  type : r.type = r'.type
  wildcard : r.wildcard = r'.wildcard
  covers : ∀ name, r.covers lower name = r'.covers lower name
  shown : shown r = shown r'

def ttlOf (t : RecordType) (rs : List LocalRecord) : UInt32 :=
  (rs.filter (·.isOf t)).foldl (fun ttl r => if r.ttl > 0 then r.ttl else ttl) 300

def lastTTL (ttls : List UInt32) : UInt32 :=
  ttls.foldl (fun last ttl => if ttl > 0 then ttl else last) 300

theorem ttlOf_eq (t : RecordType) (rs : List LocalRecord) :
    ttlOf t rs = lastTTL ((rs.filter (·.isOf t)).map (·.ttl)) := by
  rw [ttlOf, lastTTL, List.foldl_map]

section Lists

variable {lower : Nat → Nat} {rs rs' : List LocalRecord} {r r' : LocalRecord}

theorem Alike.isOf (h : Alike lower r r') (t : RecordType) : r.isOf t = r'.isOf t := by
  unfold LocalRecord.isOf
  rw [h.type, h.valid.enabled, h.valid'.enabled]

theorem Alike.served (h : Alike lower r r') (ht : r.type.isAddress = false) :
    served r = served r' := by
  have hshown := h.shown
  have ht' : r'.type.isAddress = false := h.type ▸ ht
  unfold LocalRecords.shown at hshown
  rwa [if_neg (by simp [ht]), if_neg (by simp [ht'])] at hshown

theorem Alike.ips (h : Alike lower r r') (ht : r.type.isAddress = true) :
    r.ips.map sixteen = r'.ips.map sixteen := by
  have hshown := h.shown
  have ht' : r'.type.isAddress = true := h.type ▸ ht
  unfold LocalRecords.shown at hshown
  rw [if_pos ht, if_pos ht', Answer.addresses.injEq] at hshown
  exact hshown.1

/-- A wildcard is given with its own TTL. -/
theorem Alike.ttl_of_wildcard (h : Alike lower r r') (ht : r.type.isAddress = true)
    (hw : r.wildcard = true) : r.ttl = r'.ttl := by
  have hshown := h.shown
  have ht' : r'.type.isAddress = true := h.type ▸ ht
  have hw' : r'.wildcard = true := h.wildcard ▸ hw
  unfold LocalRecords.shown at hshown
  rw [if_pos ht, if_pos ht', Answer.addresses.injEq, if_neg (by simp [hw]),
    if_neg (by simp [hw'])] at hshown
  exact hshown.2

theorem forall₂_filter {R : LocalRecord → LocalRecord → Prop} {p q : LocalRecord → Bool}
    (hpq : ∀ r r', R r r' → p r = q r') (h : List.Forall₂ R rs rs') :
    List.Forall₂ R (rs.filter p) (rs'.filter q) := by
  apply List.rel_filter _ h
  intro r r' hr
  change p r = true ↔ q r' = true
  rw [hpq r r' hr]

theorem forall₂_exactAt (h : List.Forall₂ (Alike lower) rs rs') (name : GoString) :
    List.Forall₂ (Alike lower) (exactAt lower name rs) (exactAt lower name rs') :=
  forall₂_filter (fun _ _ hr => by rw [hr.wildcard, hr.covers]) h

theorem forall₂_wildAt (h : List.Forall₂ (Alike lower) rs rs') (name : GoString) :
    List.Forall₂ (Alike lower) (wildAt lower name rs) (wildAt lower name rs') :=
  forall₂_filter (fun _ _ hr => by rw [hr.wildcard, hr.covers]) h

theorem map_eq_of_forall₂ {α β : Type} {R : α → α → Prop} {f : α → β}
    (hf : ∀ x y, R x y → f x = f y) {xs ys : List α} (h : List.Forall₂ R xs ys) :
    xs.map f = ys.map f := by
  induction h with
  | nil => rfl
  | cons hxy _ ih => rw [List.map_cons, List.map_cons, hf _ _ hxy, ih]

/-- The first records of a type are alike. -/
theorem find?_of_forall₂ (t : RecordType) (h : List.Forall₂ (Alike lower) rs rs') :
    (rs.find? (·.isOf t) = none ∧ rs'.find? (·.isOf t) = none) ∨
      ∃ r r', rs.find? (·.isOf t) = some r ∧ rs'.find? (·.isOf t) = some r' ∧
        Alike lower r r' := by
  induction h with
  | nil => exact Or.inl ⟨rfl, rfl⟩
  | @cons r r' rs rs' hr _ ih =>
    rw [List.find?_cons, List.find?_cons, ← hr.isOf t]
    cases r.isOf t with
    | true => exact Or.inr ⟨r, r', rfl, rfl, hr⟩
    | false => exact ih

theorem forall₂_filter_isOf (t : RecordType) (h : List.Forall₂ (Alike lower) rs rs') :
    List.Forall₂ (fun r r' => Alike lower r r' ∧ r.type = t) (rs.filter (·.isOf t))
      (rs'.filter (·.isOf t)) := by
  induction h with
  | nil => exact List.Forall₂.nil
  | @cons r r' rs rs' hr _ ih =>
    rw [List.filter_cons, List.filter_cons, ← hr.isOf t]
    split
    case isTrue hof =>
      refine List.Forall₂.cons ⟨hr, ?_⟩ ih
      simp only [LocalRecord.isOf, Bool.and_eq_true, decide_eq_true_eq] at hof
      exact hof.1
    case isFalse => exact ih

/-! ## Each kind of lookup -/

theorem sixteenAll_extractIPs (rs : List LocalRecord) (t : RecordType) :
    sixteenAll (extractIPs rs t) =
      if ((rs.filter (·.isOf t)).map fun r => r.ips.map sixteen).flatten = [] then none
      else some (((rs.filter (·.isOf t)).map fun r => r.ips.map sixteen).flatten, ttlOf t rs) := by
  have hmap : ((rs.filter (·.isOf t)).flatMap (·.ips)).map sixteen =
      ((rs.filter (·.isOf t)).map fun r => r.ips.map sixteen).flatten := by
    rw [List.map_flatMap]
    rfl
  unfold extractIPs
  dsimp only
  rw [← hmap]
  by_cases hempty : (rs.filter (·.isOf t)).flatMap (·.ips) = []
  · rw [if_pos hempty, if_pos (by rw [hempty]; rfl)]
    rfl
  · rw [if_neg hempty, if_neg (mt List.map_eq_nil_iff.mp hempty)]
    rfl

theorem extractIPs_alike (h : List.Forall₂ (Alike lower) rs rs') {t : RecordType}
    (ht : t.isAddress = true) (httl : ttlOf t rs = ttlOf t rs') :
    sixteenAll (extractIPs rs t) = sixteenAll (extractIPs rs' t) := by
  have hips : (rs.filter (·.isOf t)).map (fun r => r.ips.map sixteen) =
      (rs'.filter (·.isOf t)).map fun r => r.ips.map sixteen :=
    map_eq_of_forall₂ (fun _ _ hr => hr.1.ips (by rw [hr.2]; exact ht)) (forall₂_filter_isOf t h)
  rw [sixteenAll_extractIPs, sixteenAll_extractIPs, hips, httl]

theorem lookupAddresses_alike (h : List.Forall₂ (Alike lower) rs rs') {t : RecordType}
    (ht : t.isAddress = true) (name : GoString)
    (httl : ttlOf t (exactAt lower name rs) = ttlOf t (exactAt lower name rs')) :
    sixteenAll ((ofRecords rs).lookupAddresses lower t name) =
      sixteenAll ((ofRecords rs').lookupAddresses lower t name) := by
  have hexact := forall₂_exactAt h name
  have hempty : exactAt lower name rs = [] ↔ exactAt lower name rs' = [] := by
    rw [← List.length_eq_zero_iff, ← List.length_eq_zero_iff, hexact.length_eq]
  rw [lookupAddresses_ofRecords, lookupAddresses_ofRecords]
  by_cases hnone : exactAt lower name rs = []
  · rw [if_pos hnone, if_pos (hempty.mp hnone)]
    rcases find?_of_forall₂ t (forall₂_wildAt h name) with ⟨hr, hr'⟩ | ⟨r, r', hr, hr', halike⟩
    · rw [hr, hr']
    · have hof := List.find?_some hr
      simp only [LocalRecord.isOf, Bool.and_eq_true, decide_eq_true_eq] at hof
      have htype : r.type.isAddress = true := by rw [hof.1]; exact ht
      have hwild : r.wildcard = true := by
        have hmem := List.mem_of_find?_eq_some hr
        simp only [wildAt, List.mem_filter, Bool.and_eq_true] at hmem
        exact hmem.2.1
      have hne := halike.valid.ips_ne htype
      have hne' := halike.valid'.ips_ne (halike.type ▸ htype)
      rw [hr, hr', Option.bind_some, Option.bind_some, if_neg hne, if_neg hne']
      simp only [sixteenAll, Option.map_some, halike.ips htype,
        halike.ttl_of_wildcard htype hwild]
  · rw [if_neg hnone, if_neg (mt hempty.mpr hnone)]
    exact extractIPs_alike hexact ht httl

theorem lookupCNAME_alike (h : List.Forall₂ (Alike lower) rs rs') (name : GoString) :
    (ofRecords rs).lookupCNAME lower name = (ofRecords rs').lookupCNAME lower name := by
  have hshown : ∀ {qs qs' : List LocalRecord}, List.Forall₂ (Alike lower) qs qs' →
      (qs.find? (·.isOf .cname)).map (fun r => (r.target, r.ttl)) =
        (qs'.find? (·.isOf .cname)).map fun r => (r.target, r.ttl) := by
    intro qs qs' hqs
    rcases find?_of_forall₂ .cname hqs with ⟨hr, hr'⟩ | ⟨r, r', hr, hr', halike⟩
    · rw [hr, hr']
    · have hof := List.find?_some hr
      simp only [LocalRecord.isOf, Bool.and_eq_true, decide_eq_true_eq] at hof
      have hserved := halike.served (by rw [hof.1]; rfl)
      have htype' : r'.type = .cname := halike.type ▸ hof.1
      simp only [served, rdata, hof.1, htype', Answer.data.injEq, RData.cname.injEq] at hserved
      rw [hr, hr', Option.map_some, Option.map_some, hserved.1, hserved.2]
  rw [lookupCNAME_ofRecords, lookupCNAME_ofRecords, Option.map_or, Option.map_or,
    hshown (forall₂_exactAt h name), hshown (forall₂_wildAt h name)]

theorem collect_alike (h : List.Forall₂ (Alike lower) rs rs') (t : RecordType)
    (name : GoString) :
    List.Forall₂ (fun r r' => Alike lower r r' ∧ r.type = t) ((ofRecords rs).collect lower t name)
      ((ofRecords rs').collect lower t name) := by
  rw [collect_ofRecords, collect_ofRecords]
  exact List.rel_append (forall₂_filter_isOf t (forall₂_exactAt h name))
    (forall₂_filter_isOf t (forall₂_wildAt h name))

theorem map_served_of_alike {t : RecordType} (ht : t.isAddress = false)
    (h : List.Forall₂ (fun r r' => Alike lower r r' ∧ r.type = t) rs rs') :
    rs.map served = rs'.map served :=
  map_eq_of_forall₂ (fun _ _ hr => hr.1.served (by rw [hr.2]; exact ht)) h

/-! ## Sorted lookups -/

theorem priority_of_mx (h : Alike lower r r' ∧ r.type = .mx) : r.priority = r'.priority := by
  have hserved := h.1.served (by rw [h.2]; rfl)
  have htype' : r'.type = .mx := h.1.type ▸ h.2
  simp only [served, rdata, h.2, htype', Answer.data.injEq, RData.mx.injEq] at hserved
  exact hserved.1.1

theorem priority_weight_of_srv (h : Alike lower r r' ∧ r.type = .srv) :
    r.priority = r'.priority ∧ r.weight = r'.weight := by
  have hserved := h.1.served (by rw [h.2]; rfl)
  have htype' : r'.type = .srv := h.1.type ▸ h.2
  simp only [served, rdata, h.2, htype', Answer.data.injEq, RData.srv.injEq] at hserved
  exact ⟨hserved.1.1, hserved.1.2.1⟩

theorem lookupMX_alike (h : List.Forall₂ (Alike lower) rs rs') (name : GoString) :
    ((ofRecords rs).lookupMX lower name).map served =
      ((ofRecords rs').lookupMX lower name).map served := by
  have hcollect := collect_alike h .mx name
  unfold Manager.lookupMX
  dsimp only
  rw [hcollect.length_eq]
  apply map_served_of_alike (t := .mx) rfl
  apply swapSort_alike _ _ hcollect
  intro x x' y y' hx hy
  rw [priority_of_mx hx, priority_of_mx hy]

theorem lookupSRV_alike (h : List.Forall₂ (Alike lower) rs rs') (name : GoString) :
    ((ofRecords rs).lookupSRV lower name).map served =
      ((ofRecords rs').lookupSRV lower name).map served := by
  have hcollect := collect_alike h .srv name
  unfold Manager.lookupSRV
  dsimp only
  rw [hcollect.length_eq]
  apply map_served_of_alike (t := .srv) rfl
  apply swapSort_alike _ _ hcollect
  intro x x' y y' hx hy
  rw [(priority_weight_of_srv hx).1, (priority_weight_of_srv hx).2,
    (priority_weight_of_srv hy).1, (priority_weight_of_srv hy).2]

/-! ## All lookups -/

theorem answers_alike (h : List.Forall₂ (Alike lower) rs rs')
    (httl : ∀ t, t.isAddress = true → ∀ name,
      ttlOf t (exactAt lower name rs) = ttlOf t (exactAt lower name rs'))
    (t : RecordType) (name : GoString) :
    (ofRecords rs).answers lower t name = (ofRecords rs').answers lower t name := by
  cases t with
  | a | aaaa =>
    simp only [Manager.answers, Manager.lookupA, Manager.lookupAAAA]
    rw [lookupAddresses_alike h rfl name (httl _ rfl _)]
  | cname =>
    simp only [Manager.answers]
    rw [lookupCNAME_alike h]
  | mx => exact lookupMX_alike h name
  | srv => exact lookupSRV_alike h name
  | txt | ptr | ns | soa | caa => exact map_served_of_alike rfl (collect_alike h _ name)

end Lists

/-- Addresses that agree in sixteen bytes are found together, with one TTL. -/
theorem sixteenAll_eq_cases {a b : Option (List IP × UInt32)} (h : sixteenAll a = sixteenAll b) :
    (a = none ∧ b = none) ∨ ∃ ips ips' ttl, a = some (ips, ttl) ∧ b = some (ips', ttl) ∧
      ips.map sixteen = ips'.map sixteen := by
  cases a with
  | none =>
    cases b with
    | none => exact Or.inl ⟨rfl, rfl⟩
    | some found => cases h
  | some found =>
    cases b with
    | none => cases h
    | some found' =>
      simp only [sixteenAll, Option.map_some, Option.some.injEq, Prod.mk.injEq] at h
      refine Or.inr ⟨found.1, found'.1, found.2, rfl, ?_, h.1⟩
      rw [h.2]

/-- A chain of aliases is followed by the lookups of aliases and addresses alone. -/
theorem resolveLoop_alike {lower : Nat → Nat} {m m' : Manager}
    (hcname : ∀ name, m.lookupCNAME lower name = m'.lookupCNAME lower name)
    (ha : ∀ name, sixteenAll (m.lookupA lower name) = sixteenAll (m'.lookupA lower name))
    (haaaa : ∀ name, sixteenAll (m.lookupAAAA lower name) = sixteenAll (m'.lookupAAAA lower name))
    (depth : Nat) (visited : List GoString) (domain : GoString) (minTTL : UInt32) :
    sixteenAll (m.resolveLoop lower depth visited domain minTTL) =
      sixteenAll (m'.resolveLoop lower depth visited domain minTTL) := by
  induction depth generalizing visited domain minTTL with
  | zero => rfl
  | succ depth ih =>
    unfold Manager.resolveLoop
    rw [hcname]
    split
    · rfl
    · cases m'.lookupCNAME lower domain with
      | some found => exact ih _ _ _
      | none =>
        rcases sixteenAll_eq_cases (ha domain) with ⟨hm, hm'⟩ | ⟨ips, ips', ttl, hm, hm', hips⟩
        · rw [hm, hm']
          rcases sixteenAll_eq_cases (haaaa domain) with
            ⟨hn, hn'⟩ | ⟨ips, ips', ttl, hn, hn', hips⟩
          · rw [hn, hn']
          · rw [hn, hn']
            simp only [sixteenAll, Option.map_some, hips]
        · rw [hm, hm']
          simp only [sixteenAll, Option.map_some, hips]

theorem sameAnswers_of_forall₂ {lower : Nat → Nat} {rs rs' : List LocalRecord}
    (h : List.Forall₂ (Alike lower) rs rs')
    (httl : ∀ t, t.isAddress = true → ∀ name,
      ttlOf t (exactAt lower name rs) = ttlOf t (exactAt lower name rs')) :
    Manager.SameAnswers lower (ofRecords rs) (ofRecords rs') where
  answers := answers_alike h httl
  resolved _ _ := resolveLoop_alike (lookupCNAME_alike h)
    (fun name => lookupAddresses_alike h rfl name (httl _ rfl name))
    (fun name => lookupAddresses_alike h rfl name (httl _ rfl name)) _ _ _ _

/-! ## One record -/

theorem matchesWildcard_self (pattern : GoString) : matchesWildcard pattern pattern = true := by
  unfold matchesWildcard
  split
  case isTrue hpre =>
    obtain ⟨rest, hrest⟩ := List.isPrefixOf_iff_prefix.mp hpre
    have hdrop : pattern.drop 2 = rest := by rw [← hrest]; rfl
    have hsuffix : hasSuffix pattern rest = true :=
      List.isSuffixOf_iff_suffix.mpr ⟨_, hrest⟩
    have hne : (pattern == rest) = false := by
      rw [beq_eq_false_iff_ne]
      intro h
      have hlength := congrArg List.length hrest
      rw [h, List.length_append] at hlength
      have htwo : (lit "*.").length = 2 := by decide
      omega
    have htake : pattern.take (pattern.length - rest.length) = lit "*." := by
      have htwo : (lit "*.").length = 2 := by decide
      rw [← hrest, List.length_append, htwo, Nat.add_sub_cancel]
      rfl
    dsimp only
    rw [hdrop, hsuffix, hne, htake]
    decide
  case isFalse => simp

section Singleton

variable {lower : Nat → Nat} {r : LocalRecord}

theorem isOf_eq (hvalid : Valid r) (t : RecordType) : r.isOf t = decide (r.type = t) := by
  unfold LocalRecord.isOf
  rw [hvalid.enabled, Bool.and_true]

theorem collect_singleton (hvalid : Valid r) (t : RecordType) (name : GoString) :
    (ofRecords [r]).collect lower t name =
      if r.type = t ∧ r.covers lower name = true then [r] else [] := by
  rw [collect_ofRecords]
  unfold exactAt wildAt
  cases hw : r.wildcard <;> cases hc : r.covers lower name <;> by_cases ht : r.type = t <;>
    simp [hw, hc, ht, isOf_eq hvalid]

theorem lookupCNAME_singleton (hvalid : Valid r) (name : GoString) :
    (ofRecords [r]).lookupCNAME lower name =
      if r.type = .cname ∧ r.covers lower name = true then some (r.target, r.ttl) else none := by
  rw [lookupCNAME_ofRecords]
  unfold exactAt wildAt
  cases hw : r.wildcard <;> cases hc : r.covers lower name <;> by_cases ht : r.type = .cname <;>
    simp [hw, hc, ht, isOf_eq hvalid]

theorem lookupAddresses_singleton (hvalid : Valid r) {t : RecordType} (ht : t.isAddress = true)
    (name : GoString) :
    sixteenAll ((ofRecords [r]).lookupAddresses lower t name) =
      if r.type = t ∧ r.covers lower name = true then
        some (r.ips.map sixteen, if r.wildcard = false ∧ r.ttl = 0 then 300 else r.ttl)
      else none := by
  rw [lookupAddresses_ofRecords]
  unfold exactAt wildAt
  by_cases htype : r.type = t
  · have hne : r.ips ≠ [] := hvalid.ips_ne (by rw [htype]; exact ht)
    cases hw : r.wildcard <;> cases hc : r.covers lower name
    case true.true => simp [hw, hc, htype, hne, isOf_eq hvalid, sixteenAll]
    case false.true =>
      have hexact : [r].filter (fun r => !r.wildcard && r.covers lower name) = [r] := by
        simp [hw, hc]
      have hof : [r].filter (·.isOf t) = [r] := by simp [isOf_eq hvalid, htype]
      rw [hexact, if_neg (List.cons_ne_nil _ _), sixteenAll_extractIPs, ttlOf, hof]
      by_cases httl : r.ttl = 0
      · simp [httl, hne, htype]
      · simp [httl, hne, htype, UInt32.pos_iff_ne_zero.mpr httl]
    all_goals simp [hw, hc, sixteenAll]
  · cases hw : r.wildcard <;> cases hc : r.covers lower name <;>
      simp [hw, hc, htype, isOf_eq hvalid, sixteenAll, extractIPs]

theorem sorted_singleton {α : Type} (worse : α → α → Bool) (p : Prop) [Decidable p] (x : α) :
    swapSort worse (if p then [x] else []).length (if p then [x] else []) =
      if p then [x] else [] := by
  split <;> rfl

theorem answers_singleton (hvalid : Valid r) (t : RecordType) (name : GoString) :
    (ofRecords [r]).answers lower t name =
      if r.type = t ∧ r.covers lower name = true then [shown r] else [] := by
  have hserved : t.isAddress = false →
      (if r.type = t ∧ r.covers lower name = true then [r] else []).map served =
        if r.type = t ∧ r.covers lower name = true then [shown r] else [] := by
    intro ht
    split
    case isTrue h =>
      have htype : r.type.isAddress = false := by rw [h.1]; exact ht
      rw [shown, if_neg (by simp [htype])]
      rfl
    case isFalse => rfl
  have haddresses : t.isAddress = true →
      (sixteenAll ((ofRecords [r]).lookupAddresses lower t name)).toList.map
          (fun found => Answer.addresses found.1 found.2) =
        if r.type = t ∧ r.covers lower name = true then [shown r] else [] := by
    intro ht
    rw [lookupAddresses_singleton hvalid ht]
    split
    case isTrue h =>
      have htype : r.type.isAddress = true := by rw [h.1]; exact ht
      rw [shown, if_pos htype]
      rfl
    case isFalse => rfl
  have hcollect : (ofRecords [r]).collect lower t name =
      if r.type = t ∧ r.covers lower name = true then [r] else [] :=
    collect_singleton hvalid t name
  cases t with
  | a | aaaa => exact haddresses rfl
  | cname =>
    rw [← hserved rfl, Manager.answers, lookupCNAME_singleton hvalid]
    split
    case isTrue h => simp [served, rdata, h.1]
    case isFalse => rfl
  | mx =>
    rw [← hserved rfl, Manager.answers, Manager.lookupMX, hcollect, sorted_singleton]
  | srv =>
    rw [← hserved rfl, Manager.answers, Manager.lookupSRV, hcollect, sorted_singleton]
  | txt | ptr | ns | soa | caa => rw [← hserved rfl, ← hcollect]; rfl

end Singleton

end GloryHole.LocalRecords
