import GloryHole.LocalRecords.Manager

/-!
# Spellings of a name in the local records

Every lookup normalises the name first: it trims white space, none of whose runes has a letter in
it, and lower-cases the rest.  Names that differ in the case of ASCII letters become one.
-/

namespace GloryHole.Go

/-- No ASCII letter: lower-casing neither makes nor takes away such a byte. -/
def caseless (b : UInt8) : Bool := !(0x41 ≤ b && b ≤ 0x5A) && !(0x61 ≤ b && b ≤ 0x7A)

theorem asciiLower_eq_iff {b c : UInt8} (hb : caseless b = true) : asciiLower c = b ↔ c = b := by
  have hbounds : (b.toNat < 0x41 ∨ 0x5A < b.toNat) ∧ (b.toNat < 0x61 ∨ 0x7A < b.toNat) := by
    simpa [caseless, UInt8.le_iff_toNat_le] using hb
  rw [← UInt8.toNat_inj, ← UInt8.toNat_inj, asciiLower_toNat]
  split <;> omega

theorem isPrefixOf_asciiLower {r : GoString} (hr : r.all caseless = true) (s : GoString) :
    r.isPrefixOf (s.map asciiLower) = r.isPrefixOf s := by
  induction r generalizing s with
  | nil => rfl
  | cons b r ih =>
    cases s with
    | nil => rfl
    | cons c s =>
      rw [List.all_cons, Bool.and_eq_true] at hr
      have hhead : (b == asciiLower c) = (b == c) := by
        rw [Bool.eq_iff_iff, beq_iff_eq, beq_iff_eq, eq_comm, asciiLower_eq_iff hr.1, eq_comm]
      rw [List.map_cons, List.isPrefixOf_cons_cons, List.isPrefixOf_cons_cons, hhead,
        ih hr.2]

theorem spaceRunes_caseless : spaceRunes.all (·.all caseless) = true := by decide

theorem leadingSpace_asciiLower (s : GoString) :
    leadingSpace (s.map asciiLower) = leadingSpace s := by
  apply List.find?_congr
  intro r hr
  exact isPrefixOf_asciiLower (List.all_eq_true.mp spaceRunes_caseless r hr) s

theorem trailingSpace_asciiLower (s : GoString) :
    trailingSpace (s.map asciiLower) = trailingSpace s := by
  apply List.find?_congr
  intro r hr
  have hcaseless := List.all_eq_true.mp spaceRunes_caseless r hr
  rw [List.isSuffixOf, List.isSuffixOf, ← List.map_reverse]
  exact isPrefixOf_asciiLower (by rwa [List.all_reverse]) s.reverse

theorem trimLeftSpace_asciiLower (fuel : Nat) (s : GoString) :
    trimLeftSpace fuel (s.map asciiLower) = (trimLeftSpace fuel s).map asciiLower := by
  induction fuel generalizing s with
  | zero => rfl
  | succ fuel ih =>
    rw [trimLeftSpace, trimLeftSpace, leadingSpace_asciiLower]
    cases leadingSpace s with
    | none => rfl
    | some r =>
      simp only
      rw [← List.map_drop, ih]

theorem trimRightSpace_asciiLower (fuel : Nat) (s : GoString) :
    trimRightSpace fuel (s.map asciiLower) = (trimRightSpace fuel s).map asciiLower := by
  induction fuel generalizing s with
  | zero => rfl
  | succ fuel ih =>
    rw [trimRightSpace, trimRightSpace, trailingSpace_asciiLower]
    cases trailingSpace s with
    | none => rfl
    | some r =>
      simp only
      rw [List.length_map, ← List.map_take, ih]

theorem trimSpace_asciiLower (s : GoString) :
    trimSpace (s.map asciiLower) = (trimSpace s).map asciiLower := by
  simp only [trimSpace, trimLeftSpace_asciiLower, List.length_map, trimRightSpace_asciiLower]

theorem SameSpelling.trimSpace {s t : GoString} (h : SameSpelling s t) :
    SameSpelling (trimSpace s) (trimSpace t) := by
  rw [SameSpelling, ← trimSpace_asciiLower, h, trimSpace_asciiLower]

end GloryHole.Go

namespace GloryHole.LocalRecords

open Go

theorem normalizeDomain_eq_of_sameSpelling (lower : Nat → Nat) {s t : GoString}
    (h : SameSpelling s t) : normalizeDomain lower s = normalizeDomain lower t := by
  simp only [normalizeDomain, toLower_eq_of_sameSpelling lower h.trimSpace]

namespace Manager

variable {lower : Nat → Nat} {m : Manager} {s t : GoString}

structure SameLookups (lower : Nat → Nat) (m : Manager) (s t : GoString) : Prop where
  addresses : ∀ type, m.lookupAddresses lower type s = m.lookupAddresses lower type t
  cname : m.lookupCNAME lower s = m.lookupCNAME lower t
  collected : ∀ type, m.collect lower type s = m.collect lower type t
  resolved : ∀ depth, m.resolveCNAME lower s depth = m.resolveCNAME lower t depth

theorem sameLookups_of_sameSpelling (h : SameSpelling s t) : SameLookups lower m s t := by
  have hname := normalizeDomain_eq_of_sameSpelling lower h
  constructor
  · intro type
    simp only [lookupAddresses, hname]
  · simp only [lookupCNAME, hname]
  · intro type
    simp only [collect, hname]
  · intro depth
    simp only [resolveCNAME, hname]

theorem SameLookups.sorted (h : SameLookups lower m s t) :
    m.lookupMX lower s = m.lookupMX lower t ∧ m.lookupSRV lower s = m.lookupSRV lower t := by
  simp only [lookupMX, lookupSRV, h.collected, and_self]

end Manager

end GloryHole.LocalRecords
