import GloryHole.Api.Doh

/-!
# The type of a DNS over HTTPS query

Every GET request with a name is answered for some type.  It is the one that was asked for if the
parameter is a type at all.
-/

namespace GloryHole.Api

open Go Dns

variable (lib : DohLib)

def decimal (s : GoString) : Int := s.foldl (fun n b => 10 * n + digitVal b) 0

/-- A mnemonic in any letter case, or a decimal number of sixteen bits. -/
def requestedType (type : GoString) : Option UInt16 :=
  (lib.stringToType (toUpper lib.upper type)).orElse fun _ =>
    if type ≠ [] ∧ type.all isDigit ∧ 0 ≤ decimal type ∧ decimal type ≤ 65535 then
      some (UInt16.ofNat (decimal type).toNat)
    else none

theorem atoi_of_digits {s : GoString} (hs : s ≠ []) (hdigits : s.all isDigit)
    (hpos : 0 ≤ decimal s) (hle : decimal s ≤ 65535) : atoi s = some (decimal s) := by
  obtain ⟨b, rest, rfl⟩ := List.exists_cons_of_ne_nil hs
  have hb : isDigit b = true := by
    rw [List.all_cons, Bool.and_eq_true] at hdigits
    exact hdigits.1
  have hsign : splitSign (b :: rest) = (false, b :: rest) := by
    have hminus : b ≠ byte '-' := by rintro rfl; cases hb
    have hplus : b ≠ byte '+' := by rintro rfl; cases hb
    rw [splitSign, if_neg hminus, if_neg hplus]
  have hrange : -2 ^ 63 ≤ decimal (b :: rest) ∧ decimal (b :: rest) < 2 ^ 63 := by omega
  rw [atoi, hsign]
  simp only [hs, hdigits, not_true, or_self, if_false, Bool.false_eq_true]
  exact if_pos hrange

variable {lib}

/-- What is asked for is what the query has, if anything is asked for. -/
theorem parseType_of_requested {type : GoString} {qtype : UInt16} (htype : type ≠ [])
    (h : requestedType lib type = some qtype) : parseType lib type = qtype := by
  unfold requestedType at h
  rw [parseType, if_neg htype]
  cases hknown : lib.stringToType (toUpper lib.upper type) with
  | some known =>
    rw [hknown] at h
    exact Option.some.inj h
  | none =>
    simp only [hknown, Option.orElse_none] at h
    split at h
    · rename_i hnumber
      rw [atoi_of_digits htype hnumber.2.1 hnumber.2.2.1 hnumber.2.2.2]
      cases h
      simp only [Int.emod_eq_of_lt hnumber.2.2.1 (show decimal type < 65536 by omega)]
    · cases h

/-- The resolver is asked for the requested type, and not asked at all if there is none, exactly if
the parameter is a mnemonic or a number of sixteen bits, or the query is too long anyway. -/
theorem doh_type_iff {query : DohParams} (hdns : query.dns = []) (hname : query.name ≠ [])
    (htype : query.type ≠ []) :
    (∀ msg, handleDNSQuery lib query = .serve msg →
      ∃ qtype, requestedType lib query.type = some qtype ∧
        msg.question = [⟨lib.fqdn query.name, qtype, 1⟩]) ↔
    requestedType lib query.type ≠ none ∨ 512 < lib.packedLength (dohQuery lib query) := by
  have hparse : parseDNSQueryGET lib query = .ok (dohQuery lib query) := by
    simp [parseDNSQueryGET, hdns, hname]
  have hquestion : (dohQuery lib query).question ≠ [] := List.cons_ne_nil _ _
  simp only [handleDNSQuery, hparse, if_neg hquestion]
  by_cases hlong : 512 < lib.packedLength (dohQuery lib query)
  · simp [hlong]
  · rw [if_neg hlong, or_iff_left hlong]
    constructor
    · intro h
      obtain ⟨qtype, hrequested, -⟩ := h _ rfl
      simp [hrequested]
    · intro h msg hmsg
      obtain ⟨qtype, hrequested⟩ := Option.ne_none_iff_exists'.mp h
      cases hmsg
      refine ⟨qtype, hrequested, ?_⟩
      rw [dohQuery, parseType_of_requested htype hrequested]

def smallLib : DohLib where
  stringToType s := if s = lit "AAAA" then some typeAAAA else none
  fqdn name := name ++ lit "."
  decode _ := .error []
  packedLength _ := 23
  upper := id

theorem doh_type_iff_aaaa :
    handleDNSQuery smallLib { name := lit "a.com", type := lit "aaaa" } =
      .serve (dohQuery smallLib { name := lit "a.com", type := lit "aaaa" }) ∧ ∀ msg,
      handleDNSQuery smallLib { name := lit "a.com", type := lit "aaaa" } = .serve msg →
      ∃ qtype, requestedType smallLib (lit "aaaa") = some qtype ∧
        msg.question = [⟨lit "a.com.", qtype, 1⟩] :=
  ⟨by decide +kernel, (doh_type_iff rfl (by decide) (by decide)).mpr (.inl (by decide +kernel))⟩

/-- A number of more than sixteen bits, a negative one and a text that is no type are answered for
other types. -/
theorem doh_type_wraps :
    parseType smallLib (lit "65537") = 1 ∧ parseType smallLib (lit "-1") = 65535 ∧
      parseType smallLib (lit "AAAAA") = typeA ∧
      (∀ t ∈ [lit "65537", lit "-1", lit "AAAAA"], requestedType smallLib t = none ∧
        handleDNSQuery smallLib { name := lit "a.com", type := t } =
          .serve (dohQuery smallLib { name := lit "a.com", type := t })) := by
  decide +kernel

end GloryHole.Api
