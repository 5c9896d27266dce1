import GloryHole.LocalRecords.Proofs.Entries

/-!
# Importing a custom.list

Every line of the file with two fields becomes an entry of type `A`.  The start-up code takes
only IPv4 addresses for that type, so an IPv6 line is imported and never served.
-/

namespace GloryHole.Boot

open Go Config LocalRecords

def importedEntry (ip domain : GoString) : LocalRecordEntry :=
  { domain := domain, type := lit "A", ips := [ip], ttl := 300 }

/-- One pass of the loop of `importLocalDNS`; `none` where it goes on. -/
def customListEntry (line : GoString) : Option LocalRecordEntry :=
  let line := trimSpace line
  if line = [] ∨ hasPrefix line (lit "#") then none
  else
    match fields line with
    | ip :: domain :: _ => some (importedEntry ip domain)
    | _ => none

def importLocalDNS (data : GoString) : List LocalRecordEntry :=
  (splitByte (byte '\n') data).filterMap customListEntry

/-- The section in the configuration that the import writes. -/
def importedLocalRecords (data : GoString) : LocalRecordsConfig :=
  let localRecords := importLocalDNS data
  if 0 < localRecords.length then { enabled := true, records := localRecords } else {}

/-- The section gives queries of the address's family the address. -/
def Serves (lower : Nat → Nat) (cfg : LocalRecordsConfig) (name : GoString) (addr : IP) : Prop :=
  let m := (startLocalRecords lower cfg).getD {}
  match to4 addr with
  | some short => ∃ answer, m.lookupA lower name = some answer ∧ short ∈ answer.1
  | none => ∃ answer, m.lookupAAAA lower name = some answer ∧ addr ∈ answer.1

variable {lower : Nat → Nat} {data line ip name : GoString} {addr short : IP}

def importedRecords (lower : Nat → Nat) (data : GoString) : List LocalRecord :=
  (importLocalDNS data).filterMap fun e => kept lower (startRecord lower e)

theorem startLocalRecords_imported (lower : Nat → Nat) (data : GoString) :
    (startLocalRecords lower (importedLocalRecords data)).getD {} =
      ofRecords (importedRecords lower data) := by
  rw [startLocalRecords, getD_buildManager, importedLocalRecords, importedRecords]
  cases importLocalDNS data with
  | nil | cons e es => rfl

theorem type_of_mem_importedRecords {r : LocalRecord} (hr : r ∈ importedRecords lower data) :
    r.type = .a ∧ r.wildcard = false := by
  obtain ⟨e, he, hr⟩ := List.mem_filterMap.mp hr
  obtain ⟨line, -, hline⟩ := List.mem_filterMap.mp he
  have hkeeps := keeps_start lower e
  have htype := hkeeps.type r hr
  have hwildcard := hkeeps.wildcard r hr
  unfold customListEntry at hline
  dsimp only at hline
  split at hline
  case isTrue => cases hline
  case isFalse =>
    split at hline
    · cases hline
      exact ⟨(Option.some.inj htype).symm, hwildcard⟩
    · cases hline

theorem lookupAAAA_imported (name : GoString) :
    (ofRecords (importedRecords lower data)).lookupAAAA lower name = none := by
  have hwild : wildAt lower name (importedRecords lower data) = [] := by
    apply List.filter_eq_nil_iff.mpr
    intro r hr
    simp [(type_of_mem_importedRecords hr).2]
  have hnone : (exactAt lower name (importedRecords lower data)).filter (·.isOf .aaaa) = [] := by
    apply List.filter_eq_nil_iff.mpr
    intro r hr
    have htype := (type_of_mem_importedRecords (List.mem_filter.mp hr).1).1
    simp [LocalRecord.isOf, htype]
  rw [Manager.lookupAAAA, lookupAddresses_ofRecords, hwild]
  split
  case isTrue => rfl
  case isFalse => rw [extractIPs, hnone]; rfl

theorem kept_startRecord (lower : Nat → Nat) (name : GoString) (hip : parseIP ip = some addr)
    (hshort : to4 addr = some short) :
    ∃ r, kept lower (startRecord lower (importedEntry ip name)) = some r ∧ r.ips = [short] := by
  generalize he : importedEntry ip name = e
  have hv4 : v4Addresses e.ips = [short] := by simp [← he, importedEntry, v4Addresses, hip, hshort]
  have hrecord : startRecord lower e = some (applyEntry e (recordFor lower e .a)) := by
    have ha : recordTypeOf e.type = some .a := by rw [← he]; rfl
    rw [startRecord_eq, ha, Option.bind_some, if_pos]
    simp [hasFields, hv4]
  have hok : (validateRecord (applyEntry e (recordFor lower e .a))).isOk = true := by
    rw [isOk_validateRecord, Bool.and_eq_true, decide_eq_true_eq]
    refine ⟨normalizeDomain_ne_nil lower e.domain, ?_⟩
    simp [applyEntry, recordFor, newLocalRecord, hasData, hv4, to4_of_to4 hshort]
  rw [hrecord, kept, Option.bind_some, added_eq, if_pos hok]
  exact ⟨_, rfl, hv4⟩

theorem lookupA_imported (he : importedEntry ip name ∈ importLocalDNS data)
    (hip : parseIP ip = some addr) (hshort : to4 addr = some short)
    (hname : normalizeDomain lower (normalizeDomain lower name) = normalizeDomain lower name) :
    ∃ answer, (ofRecords (importedRecords lower data)).lookupA lower name = some answer ∧
      short ∈ answer.1 := by
  obtain ⟨r, hr, hrips⟩ := kept_startRecord lower name hip hshort
  have hkeeps := keeps_start lower (importedEntry ip name)
  have hmem : r ∈ importedRecords lower data := List.mem_filterMap.mpr ⟨_, he, hr⟩
  obtain ⟨hra, hwildcard⟩ := type_of_mem_importedRecords hmem
  have hcovers : r.covers lower name = true :=
    covers_of_domain ((hkeeps.domain r hr).trans hname)
  have hexact : r ∈ exactAt lower name (importedRecords lower data) :=
    List.mem_filter.mpr ⟨hmem, by rw [hwildcard, hcovers]; rfl⟩
  have hips : short ∈ ((exactAt lower name (importedRecords lower data)).filter
      (·.isOf .a)).flatMap (·.ips) := by
    refine List.mem_flatMap.mpr ⟨r, List.mem_filter.mpr ⟨hexact, ?_⟩, ?_⟩
    · rw [isOf_eq (hkeeps.valid r hr), hra]
      rfl
    · rw [hrips]
      exact List.mem_singleton_self short
  rw [Manager.lookupA, lookupAddresses_ofRecords, if_neg (List.ne_nil_of_mem hexact), extractIPs]
  rw [if_neg (List.ne_nil_of_mem hips)]
  exact ⟨_, rfl, hips⟩

/-- Of the lines with an address and a name those with an IPv4 address are served. -/
theorem imported_served_iff (hline : line ∈ splitByte (byte '\n') data)
    (hcomment : hasPrefix (trimSpace line) (lit "#") = false) {more : List GoString}
    (hfields : fields (trimSpace line) = ip :: name :: more) (hip : parseIP ip = some addr)
    (hname : normalizeDomain lower (normalizeDomain lower name) = normalizeDomain lower name) :
    Serves lower (importedLocalRecords data) name addr ↔ (to4 addr).isSome = true := by
  have hne : trimSpace line ≠ [] := by
    intro hempty
    rw [hempty] at hfields
    exact List.cons_ne_nil _ _ hfields.symm
  have hentry : customListEntry line = some (importedEntry ip name) := by
    simp [customListEntry, hne, hcomment, hfields]
  have he := List.mem_filterMap.mpr ⟨line, hline, hentry⟩
  unfold Serves
  rw [startLocalRecords_imported]
  cases hshort : to4 addr with
  | some short => exact iff_of_true (lookupA_imported he hip hshort hname) rfl
  | none =>
    apply iff_of_false
    case hb => exact Bool.false_ne_true
    case ha =>
      rintro ⟨answer, hanswer, -⟩
      rw [lookupAAAA_imported] at hanswer
      cases hanswer

theorem imported_served_v4 :
    Serves id (importedLocalRecords (lit "10.0.0.5 nas.lan")) (lit "nas.lan")
      (v4InV6Head ++ [10, 0, 0, 5]) := by
  have hfields : fields (trimSpace (lit "10.0.0.5 nas.lan")) =
      [lit "10.0.0.5", lit "nas.lan"] := by decide
  exact (imported_served_iff (by decide) (by decide) hfields (by decide) (by decide)).mpr rfl

theorem imported_v6_not_served :
    customListEntry (lit "fd00::5 nas.lan") ≠ none ∧
      (parseIP (lit "fd00::5")).map (fun addr => (to4 addr).isSome) = some false ∧
      ((startLocalRecords id (importedLocalRecords (lit "fd00::5 nas.lan"))).getD {}).lookupAAAA id
        (lit "nas.lan") = none := by
  decide

end GloryHole.Boot
