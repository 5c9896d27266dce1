import GloryHole.Api.ConfigUpdate
import GloryHole.Go.Labels

/-!
# The ids of local records

The id of a record in the listing is its name, its type and its index, with colons between them.  A
request to delete a record takes the id apart at the colons and goes by name and type only.
-/

namespace GloryHole.Api

open Go
open Config (Config LocalRecordEntry Yaml clone validate)

theorem length_splitByte_eq_one_iff {b : UInt8} {s : GoString} :
    (splitByte b s).length = 1 ↔ b ∉ s := by
  constructor
  · intro h hmem
    obtain ⟨u, v, rfl⟩ := List.append_of_mem hmem
    have hu := List.length_pos_of_ne_nil (splitByte_ne_nil b u)
    have hv := List.length_pos_of_ne_nil (splitByte_ne_nil b v)
    rw [splitByte_concat, List.length_append] at h
    omega
  · intro h
    rw [splitByte_of_not_mem h, List.length_singleton]

theorem splitByte_recordID (entry : LocalRecordEntry) (i : Nat) :
    splitByte (byte ':') (recordID entry i) =
      splitByte (byte ':') entry.domain ++ splitByte (byte ':') entry.type ++ [itoa i] := by
  have hitoa : byte ':' ∉ itoa i := by
    intro h
    rcases mem_itoa h with hdigit | hminus
    · exact absurd hdigit (by decide)
    · exact absurd hminus (by decide)
  have hid : recordID entry i =
      entry.domain ++ byte ':' :: (entry.type ++ byte ':' :: itoa i) := by
    simp [recordID, lit, byte]
  rw [hid, splitByte_concat, splitByte_concat, splitByte_of_not_mem hitoa, List.append_assoc]

/-- The id has three parts exactly if neither the name nor the type has a colon. -/
theorem splitByte_recordID_iff (entry : LocalRecordEntry) (i : Nat) :
    (∃ d t k, splitByte (byte ':') (recordID entry i) = [d, t, k]) ↔
      byte ':' ∉ entry.domain ∧ byte ':' ∉ entry.type := by
  constructor
  · rintro ⟨d, t, k, h⟩
    have hd := List.length_pos_of_ne_nil (splitByte_ne_nil (byte ':') entry.domain)
    have ht := List.length_pos_of_ne_nil (splitByte_ne_nil (byte ':') entry.type)
    have hlength := congrArg List.length h
    simp only [splitByte_recordID, List.length_append, List.length_cons, List.length_nil] at hlength
    rw [← length_splitByte_eq_one_iff, ← length_splitByte_eq_one_iff]
    omega
  · rintro ⟨hd, ht⟩
    rw [splitByte_recordID, splitByte_of_not_mem hd, splitByte_of_not_mem ht]
    exact ⟨_, _, _, rfl⟩

/-- Dropping all elements of a kind drops one element exactly if it is the only one. -/
theorem filter_eq_eraseIdx_iff {α : Type} {p : α → Bool} {l : List α} {i : Nat} {a : α}
    (hi : l[i]? = some a) (ha : p a = true) :
    l.filter (fun x => ¬ p x) = l.eraseIdx i ↔ ∀ j x, l[j]? = some x → p x = true → j = i := by
  constructor
  · intro h j x hj hx
    by_contra hne
    have hmem : x ∈ l.filter fun x => ¬ p x := by
      rw [h, List.mem_eraseIdx_iff_getElem?]
      exact ⟨j, hne, hj⟩
    simp [hx] at hmem
  · intro h
    obtain ⟨hlt, rfl⟩ := List.getElem?_eq_some_iff.mp hi
    have hothers : ∀ x ∈ l.take i ++ l.drop (i + 1), decide (¬ p x) = true := by
      intro x hx
      rw [← List.eraseIdx_eq_take_drop_succ, List.mem_eraseIdx_iff_getElem?] at hx
      obtain ⟨j, hne, hj⟩ := hx
      simpa using fun hpx => hne (h j x hj hpx)
    rw [List.forall_mem_append] at hothers
    calc l.filter (fun x => ¬ p x)
        = (l.take i ++ l[i] :: l.drop (i + 1)).filter fun x => ¬ p x := by
          rw [List.getElem_cons_drop, List.take_append_drop]
      _ = l.take i ++ l.drop (i + 1) := by
          rw [List.filter_append, List.filter_cons_of_neg (by simpa using ha),
            List.filter_eq_self.mpr hothers.1, List.filter_eq_self.mpr hothers.2]
      _ = l.eraseIdx i := (List.eraseIdx_eq_take_drop_succ ..).symm

section

variable {hash : GoString → Option GoString} {δ : Type} {yaml : Yaml δ} {cfg cloned : Config}
  {entry : LocalRecordEntry} {i : Nat}

/-- `Validate` does not look at the local records. -/
theorem validate_localRecords {v : Config} (h : validate hash cfg = .ok v)
    (records : Config.LocalRecordsConfig) :
    validate hash { cfg with localRecords := records } =
      .ok { v with localRecords := records } := by
  simp only [validate, bind_eq_ok, pure_eq_ok] at h ⊢
  obtain ⟨_, hserver, _, hupstreams, _, hlogging, auth, hauth, rules, hrules, rfl⟩ := h
  exact ⟨_, hserver, _, hupstreams, _, hlogging, auth, hauth, rules, hrules, rfl⟩

theorem mem_handleGetLocalRecords (henabled : cfg.localRecords.enabled = true)
    (hentry : cfg.localRecords.records[i]? = some entry) :
    (recordID entry i, entry) ∈ handleGetLocalRecords cfg := by
  rw [handleGetLocalRecords, if_pos henabled, (List.perm_insertionSort _ _).mem_iff, List.mem_map]
  exact ⟨(entry, i), List.mem_zipIdx_iff_getElem?.mpr hentry, rfl⟩

def othersOf (entry : LocalRecordEntry) (records : List LocalRecordEntry) :
    List LocalRecordEntry :=
  records.filter fun r => ¬ (r.domain = entry.domain ∧ r.type = entry.type)

theorem removeRecord_eq (hentry : entry ∈ cfg.localRecords.records) :
    removeRecord entry.domain entry.type cfg =
      .ok { cfg with localRecords := { cfg.localRecords with
        records := othersOf entry cfg.localRecords.records } } := by
  have hshorter : (othersOf entry cfg.localRecords.records).length <
      cfg.localRecords.records.length :=
    List.length_filter_lt_length_iff_exists.mpr ⟨entry, hentry, by simp⟩
  exact if_neg hshorter.ne

theorem mutateLocalRecords_remove (hentry : entry ∈ cfg.localRecords.records)
    (hclone : clone hash yaml cfg = .ok cloned) (hsame : cloned.localRecords = cfg.localRecords)
    (hvalid : (validate hash cloned).isOk = true) :
    ∃ cfg', mutateLocalRecords hash yaml (removeRecord entry.domain entry.type) cfg = .ok cfg' ∧
      cfg'.localRecords.records = othersOf entry cfg.localRecords.records := by
  cases hvalidate : validate hash cloned with
  | error e =>
    rw [hvalidate] at hvalid
    cases hvalid
  | ok v =>
    rw [← hsame] at hentry ⊢
    refine ⟨{ v with localRecords := { cloned.localRecords with
      records := othersOf entry cloned.localRecords.records } }, ?_, rfl⟩
    simp only [mutateLocalRecords, bind_eq_ok, wrap_eq_ok]
    exact ⟨cloned, hclone, _, removeRecord_eq hentry, validate_localRecords hvalidate _⟩

/-- Deleting by the id that the listing shows removes that record only exactly if its id has no
more than two colons and no other record has its name and type. -/
theorem delete_removes_shown_iff (henabled : cfg.localRecords.enabled = true)
    (hentry : cfg.localRecords.records[i]? = some entry)
    (hclone : clone hash yaml cfg = .ok cloned) (hsame : cloned.localRecords = cfg.localRecords)
    (hvalid : (validate hash cloned).isOk = true) :
    (recordID entry i, entry) ∈ handleGetLocalRecords cfg ∧
    ((∃ cfg', updateRemoveLocalRecord hash yaml (recordID entry i) cfg = .ok cfg' ∧
      cfg'.localRecords.records = cfg.localRecords.records.eraseIdx i) ↔
    byte ':' ∉ entry.domain ∧ byte ':' ∉ entry.type ∧
      ∀ j other, cfg.localRecords.records[j]? = some other →
        other.domain = entry.domain → other.type = entry.type → j = i) := by
  refine ⟨mem_handleGetLocalRecords henabled hentry, ?_⟩
  have hid : recordID entry i ≠ [] := by simp [recordID, lit]
  rw [updateRemoveLocalRecord, if_neg hid]
  by_cases hcolon : byte ':' ∉ entry.domain ∧ byte ':' ∉ entry.type
  · obtain ⟨cfg', hmutate, hrecords⟩ :=
      mutateLocalRecords_remove (List.mem_of_getElem? hentry) hclone hsame hvalid
    have hone := filter_eq_eraseIdx_iff
      (p := fun r => decide (r.domain = entry.domain ∧ r.type = entry.type)) hentry (by simp)
    rw [splitByte_recordID, splitByte_of_not_mem hcolon.1, splitByte_of_not_mem hcolon.2]
    simp only [List.cons_append, List.nil_append, hmutate, Except.ok.injEq, exists_eq_left',
      hrecords, ← and_assoc]
    rw [and_iff_right hcolon]
    simpa [othersOf] using hone
  · refine iff_of_false ?_ fun h => hcolon ⟨h.1, h.2.1⟩
    rintro ⟨cfg', hdeleted, -⟩
    split at hdeleted
    · exact hcolon ((splitByte_recordID_iff entry i).mp ⟨_, _, _, ‹_›⟩)
    · cases hdeleted

end

def plainYaml : Yaml Config := ⟨.ok, .ok⟩

def nasRecord (target : String) : LocalRecordEntry :=
  { domain := lit "nas.lan", type := lit "CNAME", target := lit target }

def withRecords (records : List LocalRecordEntry) : Config := { localRecords := ⟨records, true⟩ }

def tvRecord : LocalRecordEntry := { nasRecord "a.lan" with domain := lit "tv.lan" }

theorem delete_removes_shown_nas :
    ∃ cfg', updateRemoveLocalRecord (fun _ => none) plainYaml (recordID (nasRecord "a.lan") 0)
        (withRecords [nasRecord "a.lan", tvRecord]) = .ok cfg' ∧
      cfg'.localRecords.records = [tvRecord] := by
  have h := @delete_removes_shown_iff (fun _ => none) Config plainYaml
    (withRecords [nasRecord "a.lan", tvRecord]) _ (nasRecord "a.lan") 0 rfl rfl rfl rfl
    (by decide +kernel)
  refine h.2.mpr ⟨by decide, by decide, ?_⟩
  rintro (_ | _ | j) other hj hdomain _
  · rfl
  · cases hj
    exact absurd hdomain (by decide)
  · cases hj

/-- Of two records of one name and type, deleting the second one deletes both. -/
theorem delete_removes_both :
    (updateRemoveLocalRecord (fun _ => none) plainYaml (recordID (nasRecord "b.lan") 1)
        (withRecords [nasRecord "a.lan", nasRecord "b.lan"])).map (·.localRecords.records) =
      .ok [] := by
  decide +kernel

end GloryHole.Api
