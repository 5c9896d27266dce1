import GloryHole.LocalRecords.Proofs.Serving

/-!
# Chains of local aliases

`ResolveCNAME` follows aliases until a name has none.  The names it has met are kept as they are
written in the records; a name met twice means that the chain goes round, since the lookups depend
on the name only, so that the loop gives up exactly on the chains that have no end within the depth.
-/

namespace GloryHole.LocalRecords

open Go Dns
open Config (LocalRecordEntry LocalRecordsConfig)

/-! ## Following aliases -/

/-- Following the aliases from a name leads to another; the TTLs are those of the aliases. -/
inductive Follows (lower : Nat → Nat) (m : Manager) : GoString → List UInt32 → GoString → Prop
  | here (name : GoString) : Follows lower m name [] name
  | next {name target last : GoString} {ttl : UInt32} {ttls : List UInt32}
      (halias : m.lookupCNAME lower name = some (target, ttl))
      (hrest : Follows lower m target ttls last) : Follows lower m name (ttl :: ttls) last

section Follows

variable {lower : Nat → Nat} {m : Manager} {a b c : GoString} {ttl : UInt32}
  {ttls ttls' : List UInt32}

theorem Follows.append (h : Follows lower m a ttls b) (h' : Follows lower m b ttls' c) :
    Follows lower m a (ttls ++ ttls') c := by
  induction h with
  | here => exact h'
  | next halias _ ih => exact Follows.next halias (ih h')

/-- There is one way on from a name, so a chain to an end passes every name of another chain. -/
theorem Follows.rest (h : Follows lower m a ttls b) (h' : Follows lower m a ttls' c)
    (hend : m.lookupCNAME lower c = none) :
    ∃ rest, ttls' = ttls ++ rest ∧ Follows lower m b rest c := by
  induction h generalizing ttls' with
  | here => exact ⟨ttls', rfl, h'⟩
  | next halias _ ih =>
    cases h' with
    | here =>
      rw [halias] at hend
      cases hend
    | next halias' hrest =>
      rw [halias] at halias'
      cases halias'
      obtain ⟨rest, rfl, hfollows⟩ := ih hrest
      exact ⟨rest, rfl, hfollows⟩

/-- A chain that goes round has no end. -/
theorem Follows.not_cycle (h : Follows lower m a ttls c) (hend : m.lookupCNAME lower c = none) :
    ¬ Follows lower m a (ttl :: ttls') a := by
  intro hcycle
  induction hlength : ttls.length using Nat.strong_induction_on generalizing ttls with
  | _ n ih =>
    obtain ⟨rest, rfl, hrest⟩ := hcycle.rest h hend
    refine ih rest.length ?_ hrest rfl
    simp only [← hlength, List.length_append, List.length_cons]
    omega

end Follows

/-! ## `ResolveCNAME` -/

/-- The data of a name: the addresses of its A records or else of its AAAA records. -/
def Manager.hostData (lower : Nat → Nat) (m : Manager) (name : GoString) :
    Option (List IP × UInt32) :=
  (m.lookupA lower name).or (m.lookupAAAA lower name)

def LeastTTL (ttls : List UInt32) (ttl : UInt32) : Prop := ttl ∈ ttls ∧ ∀ t ∈ ttls, ttl ≤ t

theorem leastTTL_singleton {ttl t : UInt32} : LeastTTL [t] ttl ↔ ttl = t := by
  simp only [LeastTTL, List.mem_singleton, forall_eq]
  exact ⟨And.left, fun h => ⟨h, h ▸ UInt32.le_refl _⟩⟩

theorem leastTTL_cons_min {ttl t minTTL : UInt32} {ttls : List UInt32} :
    LeastTTL ((if t < minTTL then t else minTTL) :: ttls) ttl ↔
      LeastTTL (minTTL :: t :: ttls) ttl := by
  simp only [LeastTTL, List.mem_cons, forall_eq_or_imp]
  simp only [UInt32.le_iff_toNat_le, UInt32.lt_iff_toNat_lt, ← UInt32.toNat_inj]
  split
  · constructor
    · rintro ⟨hmem, hle, hrest⟩
      exact ⟨Or.inr hmem, by omega, hle, hrest⟩
    · rintro ⟨hmem, hle, hle', hrest⟩
      exact ⟨hmem.resolve_left (by omega), hle', hrest⟩
  · constructor
    · rintro ⟨hmem, hle, hrest⟩
      exact ⟨hmem.imp_right Or.inr, hle, by omega, hrest⟩
    · rintro ⟨hmem, hle, hle', hrest⟩
      refine ⟨?_, hle, hrest⟩
      rcases hmem with heq | heq | hmem
      · exact Or.inl heq
      · exact Or.inl (by omega)
      · exact Or.inr hmem

theorem leastTTL_swap {ttl t t' minTTL : UInt32} {ttls : List UInt32} :
    LeastTTL (minTTL :: t :: t' :: ttls) ttl ↔ LeastTTL (minTTL :: t' :: t :: ttls) ttl := by
  have hperm : (minTTL :: t :: t' :: ttls).Perm (minTTL :: t' :: t :: ttls) :=
    (List.Perm.swap t' t ttls).cons minTTL
  simp only [LeastTTL, hperm.mem_iff]

theorem exists_leastTTL (t : UInt32) (ttls : List UInt32) : ∃ ttl, LeastTTL (t :: ttls) ttl := by
  induction ttls generalizing t with
  | nil => exact ⟨t, leastTTL_singleton.mpr rfl⟩
  | cons t' ttls ih => exact (ih (if t' < t then t' else t)).imp fun _ => leastTTL_cons_min.mp

structure Ends (lower : Nat → Nat) (m : Manager) (name : GoString) (depth : Nat)
    (last : GoString) (ttls : List UInt32) : Prop where
  follows : Follows lower m name ttls last
  within : ttls.length < depth
  noAlias : m.lookupCNAME lower last = none

section Resolve

variable {lower : Nat → Nat} {m : Manager} {name last target : GoString} {depth : Nat}
  {minTTL ttl t : UInt32} {ttls : List UInt32} {ips : List IP}

theorem ends_of_alias (halias : m.lookupCNAME lower name = some (target, t)) :
    Ends lower m name (depth + 1) last ttls ↔
      ∃ rest, ttls = t :: rest ∧ Ends lower m target depth last rest := by
  constructor
  · rintro ⟨hfollows, hwithin, hend⟩
    cases hfollows with
    | here =>
      rw [halias] at hend
      cases hend
    | next halias' hrest =>
      rw [halias] at halias'
      cases halias'
      exact ⟨_, rfl, hrest, Nat.lt_of_succ_lt_succ hwithin, hend⟩
  · rintro ⟨rest, rfl, hfollows, hwithin, hend⟩
    exact ⟨Follows.next halias hfollows, Nat.succ_lt_succ hwithin, hend⟩

theorem ends_of_noAlias (halias : m.lookupCNAME lower name = none) :
    Ends lower m name (depth + 1) last ttls ↔ last = name ∧ ttls = [] := by
  constructor
  · rintro ⟨hfollows, -, -⟩
    cases hfollows with
    | here => exact ⟨rfl, rfl⟩
    | next halias' _ =>
      rw [halias] at halias'
      cases halias'
  · rintro ⟨rfl, rfl⟩
    exact ⟨Follows.here _, Nat.succ_pos _, halias⟩

theorem resolveLoop_of_noAlias {visited : List GoString} (hmem : name ∉ visited)
    (halias : m.lookupCNAME lower name = none) :
    m.resolveLoop lower (depth + 1) visited name minTTL =
      (m.hostData lower name).map fun found =>
        (found.1, if found.2 < minTTL then found.2 else minTTL) := by
  simp only [Manager.resolveLoop, if_neg hmem, halias, Manager.hostData]
  cases m.lookupA lower name with
  | some found => rfl
  | none => cases m.lookupAAAA lower name <;> rfl

theorem resolveLoop_eq_some_iff {visited : List GoString}
    (hvisited : ∀ v ∈ visited, ∃ t ts, Follows lower m v (t :: ts) name) :
    m.resolveLoop lower depth visited name minTTL = some (ips, ttl) ↔
      ∃ last ttls own, Ends lower m name depth last ttls ∧
        m.hostData lower last = some (ips, own) ∧ LeastTTL (minTTL :: own :: ttls) ttl := by
  induction depth generalizing visited name minTTL with
  | zero =>
    simp only [Manager.resolveLoop, reduceCtorEq, false_iff]
    rintro ⟨last, ttls, own, hends, -, -⟩
    exact Nat.not_lt_zero _ hends.within
  | succ depth ih =>
    by_cases hmem : name ∈ visited
    · -- a name met before lies on a chain that goes round
      rw [Manager.resolveLoop, if_pos hmem]
      simp only [reduceCtorEq, false_iff]
      rintro ⟨last, ttls, own, hends, -, -⟩
      obtain ⟨t, ts, hcycle⟩ := hvisited name hmem
      exact hends.follows.not_cycle hends.noAlias hcycle
    · rcases halias : m.lookupCNAME lower name with _ | ⟨target, t⟩
      · rw [resolveLoop_of_noAlias hmem halias]
        simp only [ends_of_noAlias halias, Option.map_eq_some_iff, Prod.exists, Prod.mk.injEq]
        constructor
        · rintro ⟨ips, own, hhost, rfl, hmin⟩
          exact ⟨name, [], own, ⟨rfl, rfl⟩, hhost,
            leastTTL_cons_min.mp (leastTTL_singleton.mpr hmin.symm)⟩
        · rintro ⟨last, ttls, own, ⟨rfl, rfl⟩, hhost, hleast⟩
          exact ⟨ips, own, hhost, rfl, (leastTTL_singleton.mp (leastTTL_cons_min.mpr hleast)).symm⟩
      · have hvisited' : ∀ v ∈ name :: visited, ∃ t ts, Follows lower m v (t :: ts) target := by
          have hstep := Follows.next halias (Follows.here target)
          rw [List.forall_mem_cons]
          refine ⟨⟨t, [], hstep⟩, ?_⟩
          intro v hv
          obtain ⟨t', ts, hfollows⟩ := hvisited v hv
          exact ⟨t', _, hfollows.append hstep⟩
        rw [Manager.resolveLoop, if_neg hmem]
        simp only [halias, ih hvisited', ends_of_alias halias, leastTTL_cons_min]
        constructor
        · rintro ⟨last, rest, own, hends, hhost, hleast⟩
          exact ⟨last, t :: rest, own, ⟨rest, rfl, hends⟩, hhost, leastTTL_swap.mp hleast⟩
        · rintro ⟨last, ttls, own, ⟨rest, rfl, hends⟩, hhost, hleast⟩
          exact ⟨last, rest, own, hends, hhost, leastTTL_swap.mp hleast⟩

/-- `ResolveCNAME` with a depth of `n` finds an answer exactly if the aliases lead from the name, in
at most `n - 1` steps, to a name without alias that has data; it is the data of that name, with the
least of 300, the TTLs of the aliases and the TTL of the data. -/
theorem resolveCNAME_eq_some_iff (lower : Nat → Nat) (m : Manager) (name : GoString) {n : Int}
    (hn : 0 < n) (ips : List IP) (ttl : UInt32) :
    m.resolveCNAME lower name n = some (ips, ttl) ↔
      ∃ last ttls own, Follows lower m (normalizeDomain lower name) ttls last ∧
        (ttls.length : Int) ≤ n - 1 ∧ m.lookupCNAME lower last = none ∧
        m.hostData lower last = some (ips, own) ∧ LeastTTL (300 :: own :: ttls) ttl := by
  have hwithin (ttls : List UInt32) : (ttls.length : Int) ≤ n - 1 ↔ ttls.length < n.toNat := by
    omega
  rw [Manager.resolveCNAME, if_neg hn.not_ge, resolveLoop_eq_some_iff (by simp)]
  simp only [hwithin]
  constructor
  · rintro ⟨last, ttls, own, ⟨hfollows, hlength, hend⟩, hrest⟩
    exact ⟨last, ttls, own, hfollows, hlength, hend, hrest⟩
  · rintro ⟨last, ttls, own, hfollows, hlength, hend, hrest⟩
    exact ⟨last, ttls, own, ⟨hfollows, hlength, hend⟩, hrest⟩

end Resolve

def dualStack : Manager :=
  ⟨[(lit "alias.home.",
      [{ domain := lit "alias.home.", type := .cname, target := lit "host.home.", ttl := 60 }]),
    (lit "host.home.",
      [{ domain := lit "host.home.", type := .a, ips := [[192, 0, 2, 1]], ttl := 120 },
       { domain := lit "host.home.", type := .aaaa, ttl := 120
         ips := [[32, 1, 13, 184, 0, 0, 0, 0, 0, 0, 0, 0, 0, 0, 0, 1]] }])], []⟩

theorem resolveCNAME_eq_some_iff_dualStack :
    ∃ last ttls own, Follows id dualStack (normalizeDomain id (lit "alias.home.")) ttls last ∧
      (ttls.length : Int) ≤ 10 - 1 ∧ dualStack.lookupCNAME id last = none ∧
      dualStack.hostData id last = some ([[192, 0, 2, 1]], own) ∧
      LeastTTL (300 :: own :: ttls) 60 :=
  (resolveCNAME_eq_some_iff id dualStack (lit "alias.home.") (by decide) [[192, 0, 2, 1]] 60).mp
    (by decide +kernel)

/-! ## Records that have been validated -/

structure Manager.Validated (m : Manager) : Prop where
  exact : ∀ group ∈ m.records, ∀ r ∈ group.2, validateData r = .ok ()
  wildcards : ∀ wc ∈ m.wildcards, validateData wc = .ok ()

theorem mem_appendAt {domain : GoString} {r x : LocalRecord}
    {groups : List (GoString × List LocalRecord)} {group : GoString × List LocalRecord}
    (hgroup : group ∈ appendAt domain r groups) (hx : x ∈ group.2) :
    x = r ∨ ∃ old ∈ groups, x ∈ old.2 := by
  induction groups with
  | nil =>
    rw [appendAt, List.mem_singleton] at hgroup
    rw [hgroup, List.mem_singleton] at hx
    exact Or.inl hx
  | cons first groups ih =>
    rw [appendAt] at hgroup
    split at hgroup
    · rcases List.mem_cons.mp hgroup with rfl | hmem
      · rcases List.mem_append.mp hx with hold | hnew
        · exact Or.inr ⟨first, List.mem_cons_self, hold⟩
        · exact Or.inl (List.mem_singleton.mp hnew)
      · exact Or.inr ⟨group, List.mem_cons_of_mem _ hmem, hx⟩
    · rcases List.mem_cons.mp hgroup with rfl | hmem
      · exact Or.inr ⟨group, List.mem_cons_self, hx⟩
      · rcases ih hmem with hnew | ⟨old, hold, hin⟩
        · exact Or.inl hnew
        · exact Or.inr ⟨old, List.mem_cons_of_mem _ hold, hin⟩

theorem Manager.Validated.addRecord {lower : Nat → Nat} {m m' : Manager} {r : LocalRecord}
    (hm : m.Validated) (hadd : m.addRecord lower r = .ok m') : m'.Validated := by
  rw [Manager.addRecord] at hadd
  split at hadd
  · cases hadd
  · rename_i hr
    cases hadd
    rw [validateRecord] at hr
    split at hr
    · cases hr
    · rw [Manager.insert]
      split
      · refine ⟨hm.exact, ?_⟩
        intro wc hwc
        rcases List.mem_append.mp hwc with hold | hnew
        · exact hm.wildcards wc hold
        · rw [List.mem_singleton.mp hnew]
          exact hr
      · refine ⟨?_, hm.wildcards⟩
        intro group hgroup x hx
        rcases mem_appendAt hgroup hx with rfl | ⟨old, hold, hin⟩
        · exact hr
        · exact hm.exact old hold x hin

theorem Manager.Validated.tryAdd {lower : Nat → Nat} {m : Manager} (hm : m.Validated)
    (r : Option LocalRecord) : (m.tryAdd lower r).Validated := by
  unfold Manager.tryAdd
  split
  · exact hm
  split
  · exact hm.addRecord ‹_›
  · exact hm

/-- An A record has IPv4 addresses, an AAAA record others. -/
theorem ips_of_validateData {r : LocalRecord} (h : validateData r = .ok ())
    (ht : r.type.isAddress = true) :
    r.ips ≠ [] ∧ ∀ ip ∈ r.ips, (to4 ip).isSome = (r.type == .a) := by
  have hchecks {p : IP → Bool} {isV4 : Bool}
      (h : (if r.ips = [] then .error .noIPs
        else if r.ips.any p then .error .invalidIP else .ok () : Except RecordError Unit) = .ok ())
      (hp : ∀ ip, p ip = !((to4 ip).isSome == isV4)) :
      r.ips ≠ [] ∧ ∀ ip ∈ r.ips, (to4 ip).isSome = isV4 := by
    split_ifs at h with hne hany
    refine ⟨hne, ?_⟩
    intro ip hip
    by_contra hfamily
    apply hany
    rw [List.any_eq_true]
    exact ⟨ip, hip, by simpa [hp] using hfamily⟩
  unfold validateData at h
  cases htype : r.type <;> simp only [htype] at h ht ⊢
  case a => exact hchecks h fun ip => by cases to4 ip <;> rfl
  case aaaa => exact hchecks h fun ip => by cases to4 ip <;> rfl
  all_goals exact absurd ht (by decide)

section Families

variable {lower : Nat → Nat} {m : Manager} {name last : GoString} {t : RecordType}

theorem type_of_isOf {r : LocalRecord} (h : r.isOf t = true) : r.type = t := by
  simp only [LocalRecord.isOf, Bool.and_eq_true, decide_eq_true_eq] at h
  exact h.1

theorem lookupAddresses_of_validated (hm : m.Validated) (ht : t.isAddress = true) {ips : List IP}
    {ttl : UInt32} (h : m.lookupAddresses lower t name = some (ips, ttl)) :
    ips ≠ [] ∧ ∀ ip ∈ ips, (to4 ip).isSome = (t == .a) := by
  simp only [Manager.lookupAddresses] at h
  split at h
  · rename_i records hrecords
    simp only [extractIPs] at h
    split at h
    · cases h
    · rename_i hne
      cases h
      refine ⟨hne, ?_⟩
      intro ip hip
      obtain ⟨r, hr, hip⟩ := List.mem_flatMap.mp hip
      obtain ⟨hr, hof⟩ := List.mem_filter.mp hr
      obtain ⟨l₁, l₂, hmem, -⟩ := List.lookup_eq_some_iff.mp hrecords
      have hvalid :=
        hm.exact _ (by rw [hmem]; exact List.mem_append_right _ List.mem_cons_self) r hr
      rw [← type_of_isOf hof] at ht ⊢
      exact (ips_of_validateData hvalid ht).2 ip hip
  · simp only [Manager.matchWildcard] at h
    split at h
    · cases h
    · rename_i wc hwc
      split at h
      · cases h
      · rename_i hne
        cases h
        refine ⟨hne, ?_⟩
        have hfound := List.find?_some hwc
        rw [Bool.and_eq_true] at hfound
        rw [← type_of_isOf hfound.1] at ht ⊢
        exact (ips_of_validateData (hm.wildcards wc (List.mem_of_find?_eq_some hwc)) ht).2

/-- Whatever the configuration says, and in whichever place the manager is built from it, an A
query is answered with IPv4 addresses and an AAAA query with others. -/
theorem built_lookup_family (lower : Nat → Nat) (record : LocalRecordEntry → Option LocalRecord)
    (cfg : LocalRecordsConfig) {m : Manager} (hm : buildManager lower record cfg = some m)
    {t : RecordType} (ht : t.isAddress = true) (name : GoString) {ips : List IP} {ttl : UInt32}
    (h : m.lookupAddresses lower t name = some (ips, ttl)) :
    ips ≠ [] ∧ ∀ ip ∈ ips, (to4 ip).isSome = (t == .a) := by
  unfold buildManager at hm
  split at hm
  · cases hm
    have hvalidated : (addEntries lower record cfg.records).Validated :=
      List.foldlRecOn _ _ ⟨nofun, nofun⟩ fun _ hm e _ => hm.tryAdd (record e)
    exact lookupAddresses_of_validated hvalidated ht h
  · cases hm

def nasRecords : LocalRecordsConfig where
  enabled := true
  records := [{ domain := lit "nas.home", type := lit "A", ips := [lit "192.0.2.1"] }]

theorem built_lookup_family_nas :
    ∃ m found, reloadLocalRecords id nasRecords = some m ∧
      m.lookupA id (lit "nas.home.") = some found ∧ ∀ ip ∈ found.1, (to4 ip).isSome = true :=
  have hfound : (addEntries id apiRecord nasRecords.records).lookupA id (lit "nas.home.") =
    some ([v4InV6Head ++ [192, 0, 2, 1]], 300) := by decide +kernel
  ⟨_, _, rfl, hfound, (built_lookup_family id apiRecord nasRecords rfl rfl _ hfound).2⟩

/-! ## Both families -/

def aRecord (name : GoString) (ttl : UInt32) (ip : IP) : RR := ⟨name, typeA, 1, ttl, ip⟩
def aaaaRecord (name : GoString) (ttl : UInt32) (ip : IP) : RR := ⟨name, typeAAAA, 1, ttl, ip⟩

def v4Of (found : Option (List IP × UInt32)) : List IP := (found.elim [] Prod.fst).filterMap to4

def v6Of (found : Option (List IP × UInt32)) : List IP :=
  (found.elim [] Prod.fst).filterMap fun ip =>
    if (to4 ip).isSome then none else some ((to16 ip).getD [])

def ttlFound (found : Option (List IP × UInt32)) : UInt32 := found.elim 0 Prod.snd

def AnsweredWith (lower : Nat → Nat) (pack : RData → List UInt8) (m : Manager) (name : GoString)
    (qtype : UInt16) (record : UInt32 → IP → RR) (ips : List IP) : Prop :=
  ∃ ttl, ∀ msg : Msg, msg.answer = [] →
    serveFromLocalRecords lower pack m msg name qtype = (msg.append (ips.map (record ttl)), true)

theorem unlessServed_addresses {records : UInt32 → List IP → List RR}
    {record : UInt32 → IP → RR} {family : Option (List IP × UInt32) → List IP}
    (hrecords : ∀ ips ttl, records ttl ips = (family (some (ips, ttl))).map (record ttl))
    (hnone : family none = []) (first second : Option (List IP × UInt32)) {msg : Msg}
    (hmsg : msg.answer = []) :
    unlessServed (appendAddresses records first msg) (appendAddresses records second) =
      let found := if family first = [] then second else first
      (msg.append ((family found).map (record (ttlFound found))), decide (family found ≠ [])) := by
  have happend (found : Option (List IP × UInt32)) :
      appendAddresses records found msg =
        (msg.append ((family found).map (record (ttlFound found))),
          decide (family found ≠ [])) := by
    cases found with
    | none => simp [appendAddresses, hnone, Msg.append_nil]
    | some found => simp [appendAddresses, hrecords, Msg.append, hmsg, ttlFound]
  simp only [unlessServed, happend]
  by_cases hfirst : family first = []
  · simp only [hfirst, List.map_nil, Msg.append_nil, ne_eq, not_true_eq_false, decide_false,
      Bool.false_eq_true, if_false, if_true, happend]
  · simp only [hfirst, ne_eq, not_false_eq_true, decide_true, if_true, if_false]

theorem answeredWith_iff {pack : RData → List UInt8} {qtype : UInt16}
    {record : UInt32 → IP → RR} (hrecord : ∀ ttl ip, (record ttl ip).rdata = ip)
    {ips served : List IP} {ttl : UInt32}
    (hserve : ∀ msg : Msg, msg.answer = [] → serveFromLocalRecords lower pack m msg name qtype =
      (msg.append (served.map (record ttl)), decide (served ≠ []))) :
    AnsweredWith lower pack m name qtype record ips ↔ served = ips ∧ ips ≠ [] := by
  have hrdata (ttl : UInt32) (l : List IP) : (l.map (record ttl)).map RR.rdata = l := by
    simp [List.map_map, Function.comp_def, hrecord]
  constructor
  · rintro ⟨ttl', h⟩
    have heq := (hserve {} rfl).symm.trans (h {} rfl)
    simp only [Msg.append, List.nil_append, Prod.mk.injEq, Msg.mk.injEq, true_and, and_true,
      decide_eq_true_eq] at heq
    have hips := congrArg (List.map RR.rdata) heq.1
    rw [hrdata, hrdata] at hips
    exact ⟨hips, hips ▸ heq.2⟩
  · rintro ⟨rfl, hne⟩
    refine ⟨ttl, ?_⟩
    intro msg hmsg
    rw [hserve msg hmsg, decide_eq_true hne]

section Serve

variable (pack : RData → List UInt8) {msg : Msg}

theorem serve_a (hmsg : msg.answer = []) :
    serveFromLocalRecords lower pack m msg name typeA =
      let found := if v4Of (m.lookupA lower name) = [] then m.resolveCNAME lower name 10
        else m.lookupA lower name
      (msg.append ((v4Of found).map (aRecord name (ttlFound found))),
        decide (v4Of found ≠ [])) := by
  rw [serveFromLocalRecords, if_pos rfl]
  refine unlessServed_addresses ?_ rfl _ _ hmsg
  intro ips ttl
  exact List.map_filterMap.symm

theorem serve_aaaa (hmsg : msg.answer = []) :
    serveFromLocalRecords lower pack m msg name typeAAAA =
      let found := if v6Of (m.lookupAAAA lower name) = [] then m.resolveCNAME lower name 10
        else m.lookupAAAA lower name
      (msg.append ((v6Of found).map (aaaaRecord name (ttlFound found))),
        decide (v6Of found ≠ [])) := by
  rw [serveFromLocalRecords, if_neg (by decide), if_pos rfl]
  refine unlessServed_addresses ?_ rfl _ _ hmsg
  intro ips ttl
  rw [v6Of, List.map_filterMap]
  apply List.filterMap_congr
  intro ip _
  cases to4 ip <;> rfl

end Serve

/-- A and AAAA queries for the name are answered with exactly the addresses that another name has in
its own records. -/
structure ServesBoth (lower : Nat → Nat) (pack : RData → List UInt8) (m : Manager)
    (name last : GoString) : Prop where
  v4 : AnsweredWith lower pack m name typeA (aRecord name) (v4Of (m.lookupA lower last))
  v6 : AnsweredWith lower pack m name typeAAAA (aaaaRecord name) (v6Of (m.lookupAAAA lower last))

/-- For the end of the chain of a name, if it has records of both types, that is so exactly if the
name's own records have the same IPv6 addresses, and the same IPv4 addresses or none. -/
theorem alias_serves_both_iff (pack : RData → List UInt8) (hm : m.Validated) {ttls : List UInt32}
    (hends : Ends lower m (normalizeDomain lower name) 10 last ttls)
    {found4 found6 : List IP × UInt32} (h4 : m.lookupA lower last = some found4)
    (h6 : m.lookupAAAA lower last = some found6) :
    ServesBoth lower pack m name last ↔
      (v4Of (m.lookupA lower name) = [] ∨
        v4Of (m.lookupA lower name) = v4Of (m.lookupA lower last)) ∧
      v6Of (m.lookupAAAA lower name) = v6Of (m.lookupAAAA lower last) := by
  obtain ⟨hne4, hall4⟩ := lookupAddresses_of_validated hm rfl h4
  obtain ⟨hne6, hall6⟩ := lookupAddresses_of_validated hm rfl h6
  obtain ⟨ttl, hleast⟩ := exists_leastTTL 300 (found4.2 :: ttls)
  have hresolve : m.resolveCNAME lower name 10 = some (found4.1, ttl) := by
    rw [Manager.resolveCNAME, if_neg (by decide), resolveLoop_eq_some_iff (by simp)]
    exact ⟨last, ttls, found4.2, hends, by rw [Manager.hostData, h4]; rfl, hleast⟩
  have hv4 : v4Of (m.lookupA lower last) ≠ [] := by
    obtain ⟨ip, hip⟩ := List.exists_mem_of_ne_nil _ hne4
    obtain ⟨v4, hto⟩ := Option.isSome_iff_exists.mp (hall4 ip hip)
    rw [h4]
    exact List.ne_nil_of_mem (List.mem_filterMap.mpr ⟨ip, hip, hto⟩)
  have hv6 : v6Of (m.lookupAAAA lower last) ≠ [] := by
    obtain ⟨ip, hip⟩ := List.exists_mem_of_ne_nil _ hne6
    rw [h6]
    exact List.ne_nil_of_mem (List.mem_filterMap.mpr ⟨ip, hip, by rw [hall6 ip hip]; rfl⟩)
  -- the chain is resolved to the IPv4 addresses of its end, for either type of query
  have hchain4 : v4Of (m.resolveCNAME lower name 10) = v4Of (m.lookupA lower last) := by
    rw [hresolve, h4]
    rfl
  have hchain6 : v6Of (m.resolveCNAME lower name 10) = [] := by
    rw [hresolve, v6Of, List.filterMap_eq_nil_iff]
    intro ip hip
    rw [hall4 ip hip]
    rfl
  have ha : AnsweredWith lower pack m name typeA (aRecord name) (v4Of (m.lookupA lower last)) ↔ _ :=
    answeredWith_iff (fun _ _ => rfl) fun msg hmsg => serve_a pack hmsg
  have haaaa : AnsweredWith lower pack m name typeAAAA (aaaaRecord name)
      (v6Of (m.lookupAAAA lower last)) ↔ _ :=
    answeredWith_iff (fun _ _ => rfl) fun msg hmsg => serve_aaaa pack hmsg
  have hboth : ServesBoth lower pack m name last ↔ _ ∧ _ :=
    ⟨fun h => ⟨ha.mp h.v4, haaaa.mp h.v6⟩, fun h => ⟨ha.mpr h.1, haaaa.mpr h.2⟩⟩
  rw [hboth]
  refine and_congr ?_ ?_
  · by_cases hown : v4Of (m.lookupA lower name) = []
    · simp [hown, hchain4, hv4]
    · simp [hown, hv4]
  · by_cases hown : v6Of (m.lookupAAAA lower name) = []
    · simp [hown, hchain6, hv6, hv6.symm]
    · simp [hown, hv6]

end Families

theorem dualStack_validated : dualStack.Validated := by
  constructor <;> decide +kernel

theorem alias_serves_both_iff_alias :
    ∃ ttls, Ends id dualStack (normalizeDomain id (lit "alias.home.")) 10 (lit "host.home.") ttls ∧
      ¬ ServesBoth id (fun _ => []) dualStack (lit "alias.home.") (lit "host.home.") := by
  have hname : normalizeDomain id (lit "alias.home.") = lit "alias.home." := by decide +kernel
  have halias : dualStack.lookupCNAME id (lit "alias.home.") = some (lit "host.home.", 60) := by
    decide +kernel
  have hends : Ends id dualStack (normalizeDomain id (lit "alias.home.")) 10 (lit "host.home.")
      [60] :=
    ⟨hname ▸ Follows.next halias (Follows.here _), by decide, by decide +kernel⟩
  obtain ⟨found4, h4⟩ : ∃ found, dualStack.lookupA id (lit "host.home.") = some found :=
    Option.isSome_iff_exists.mp (by decide +kernel)
  obtain ⟨found6, h6⟩ : ∃ found, dualStack.lookupAAAA id (lit "host.home.") = some found :=
    Option.isSome_iff_exists.mp (by decide +kernel)
  refine ⟨[60], hends, fun hserves => ?_⟩
  have hsame := ((alias_serves_both_iff _ dualStack_validated hends h4 h6).mp hserves).2
  revert hsame
  decide +kernel

theorem alias_hides_ipv6 :
    dualStack.lookupCNAME id (lit "alias.home.") = some (lit "host.home.", 60) ∧
      dualStack.lookupCNAME id (lit "host.home.") = none ∧
      (v4Of (dualStack.lookupA id (lit "host.home."))).length = 1 ∧
      (v6Of (dualStack.lookupAAAA id (lit "host.home."))).length = 1 ∧
      (serveFromLocalRecords id (fun _ => []) dualStack {} (lit "alias.home.") typeA).2 = true ∧
      (serveFromLocalRecords id (fun _ => []) dualStack {} (lit "alias.home.") typeAAAA).2 =
        false := by
  decide +kernel

end GloryHole.LocalRecords
