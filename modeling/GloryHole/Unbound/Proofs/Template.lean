import GloryHole.Unbound.Writer

/-!
# The template of unbound.conf

What `SanitizeConfig` accepts, which of the values it accepts are words or strings that can be
read back, and when the lines of each part of the template can be.
-/

namespace GloryHole.Unbound

open Go Support.Directives

/-! ## What the checks accept -/

def Passes (pattern : GoString → Bool) (value : GoString) : Prop :=
  value.any (· ∈ illegal) = false ∧ value.length ≤ 512 ∧ pattern value

variable {quote : GoString → GoString} {s : GoString} {cls : UInt8 → Bool}

theorem sanitizeField_eq_ok {name value : GoString} {pattern : GoString → Bool} {u : Unit} :
    sanitizeField quote name value pattern = .ok u ↔ Passes pattern value := by
  simp only [sanitizeField, bind_eq_ok, refuse_eq_ok, exists_const, Passes, not_not, not_lt]
  rw [Bool.not_eq_true]

theorem forEach_eq_ok {α : Type} {check : Nat → α → Except GoString Unit} {ok : α → Prop}
    {xs : List α} {u : Unit} (h : ∀ i x u, check i x = .ok u ↔ ok x) (i : Nat) :
    forEach check i xs = .ok u ↔ ∀ x ∈ xs, ok x := by
  induction xs generalizing i with
  | nil => simp [forEach]
  | cons x xs ih => simp [forEach, bind_eq_ok, h, ih]

theorem sanitizeEach_eq_ok {name : Nat → GoString} {pattern : GoString → Bool}
    {values : List GoString} {u : Unit} :
    forEach (fun i value => sanitizeField quote (name i) value pattern) 0 values = .ok u ↔
      ∀ value ∈ values, Passes pattern value :=
  @forEach_eq_ok _ _ (Passes pattern) _ _ (fun _ _ _ => sanitizeField_eq_ok) 0

theorem sanitizeCacheSize_eq_ok {name : String} {value : GoString} {u : Unit} :
    sanitizeCacheSize quote name value = .ok u ↔ (value ≠ [] → Passes validCacheSize value) := by
  by_cases h : value = [] <;> simp [sanitizeCacheSize, h, sanitizeField_eq_ok]

structure Sanitized (cfg : UnboundServerConfig) : Prop where
  accessControl : ∀ acl ∈ cfg.server.accessControl,
    Passes validNetblock acl.netblock ∧ Passes validACLAction acl.action
  domainInsecure : ∀ d ∈ cfg.server.domainInsecure.getD [], Passes validDomainName d
  privateAddress : ∀ p ∈ cfg.server.privateAddress, Passes validPrivateAddr p
  forwardZones : ∀ fz ∈ cfg.forwardZones,
    Passes validDomainName fz.name ∧ ∀ addr ∈ fz.forwardAddrs, Passes validAddr addr
  stubZones : ∀ sz ∈ cfg.stubZones,
    Passes validDomainName sz.name ∧ ∀ addr ∈ sz.stubAddrs, Passes validAddr addr
  msgCacheSize : cfg.server.msgCacheSize ≠ [] → Passes validCacheSize cfg.server.msgCacheSize
  rrsetCacheSize : cfg.server.rrsetCacheSize ≠ [] → Passes validCacheSize cfg.server.rrsetCacheSize
  keyCacheSize : cfg.server.keyCacheSize ≠ [] → Passes validCacheSize cfg.server.keyCacheSize

theorem sanitized_of_sanitizeConfig {quote : GoString → GoString} {cfg : UnboundServerConfig}
    {u : Unit} (h : sanitizeConfig quote cfg = .ok u) : Sanitized cfg := by
  have hacl (i : Nat) (acl : ACLEntry) (u : Unit) : sanitizeACL quote i acl = .ok u ↔
      Passes validNetblock acl.netblock ∧ Passes validACLAction acl.action := by
    simp [sanitizeACL, bind_eq_ok, sanitizeField_eq_ok]
  have hforward (i : Nat) (fz : ForwardZone) (u : Unit) : sanitizeForwardZone quote i fz = .ok u ↔
      Passes validDomainName fz.name ∧ ∀ addr ∈ fz.forwardAddrs, Passes validAddr addr := by
    simp only [sanitizeForwardZone, bind_eq_ok, sanitizeField_eq_ok, sanitizeEach_eq_ok,
      exists_const]
  have hstub (i : Nat) (sz : StubZone) (u : Unit) : sanitizeStubZone quote i sz = .ok u ↔
      Passes validDomainName sz.name ∧ ∀ addr ∈ sz.stubAddrs, Passes validAddr addr := by
    simp only [sanitizeStubZone, bind_eq_ok, sanitizeField_eq_ok, sanitizeEach_eq_ok, exists_const]
  simp only [sanitizeConfig, bind_eq_ok, exists_const, forEach_eq_ok hacl, forEach_eq_ok hforward,
    forEach_eq_ok hstub, sanitizeEach_eq_ok, sanitizeCacheSize_eq_ok] at h
  obtain ⟨h1, h2, h3, h4, h5, h6, h7, h8⟩ := h
  exact ⟨h1, h2, h3, h4, h5, h6, h7, h8⟩

/-! ## Texts that can be read back -/

def special : List UInt8 := [newline, 0x0D, space, 0x09, doubleQuote, 0x27, backslash]

theorem scan_of_plain (h : ∀ b ∈ s, b ∉ special) : scan wordLetter s := by
  refine scan_of_forall fun b hb => ?_
  have hplain := h b hb
  simp only [special, List.mem_cons, List.not_mem_nil, or_false, not_or] at hplain
  obtain ⟨h1, h2, h3, h4, h5, h6, h7⟩ := hplain
  exact ⟨h7, by simp [wordLetter, isNewline, isBlank, isQuote, h1, h2, h3, h4, h5, h6]⟩

theorem allOf_iff :
    allOf cls s ↔ s ≠ [] ∧ ∀ b ∈ s, cls b := by
  simp [allOf]

theorem not_mem_of_class {bytes : List UInt8} {b : UInt8} (hcls : bytes.all fun b => !cls b)
    (hb : cls b) : b ∉ bytes := by
  intro hmem
  have hnot := List.all_eq_true.mp hcls b hmem
  rw [hb] at hnot
  cases hnot

/-- A text of a class without special bytes is a bare word, unless it begins a comment. -/
theorem isBareWord_iff_of_class (hcls : special.all fun b => !cls b) (h : allOf cls s) :
    isBareWord s ↔ s.head? ≠ some hash := by
  obtain ⟨hne, hall⟩ := allOf_iff.mp h
  have hplain : ∀ b ∈ s, b ∉ special := fun b hb => not_mem_of_class hcls (hall b hb)
  rw [isBareWord_iff]
  exact ⟨fun h => h.2.1, fun hhead => ⟨hne, hhead, scan_of_plain hplain⟩⟩

theorem isBareWord_of_class (hcls : (hash :: special).all fun b => !cls b) (h : allOf cls s) :
    isBareWord s := by
  have hspecial : special.all fun b => !cls b := by
    rw [List.all_cons, Bool.and_eq_true] at hcls
    exact hcls.2
  refine (isBareWord_iff_of_class hspecial h).mpr ?_
  intro hhead
  have hhash := (allOf_iff.mp h).2 hash (List.mem_of_head? hhead)
  exact not_mem_of_class hcls hhash List.mem_cons_self

theorem isQuotedText_of_class (hcls : special.all fun b => !cls b) (h : allOf cls s) :
    isQuotedText doubleQuote s := by
  refine isQuotedText_iff.mpr ⟨rfl, scan_of_forall fun b hb => ?_⟩
  have hplain : b ∉ special := not_mem_of_class hcls ((allOf_iff.mp h).2 b hb)
  simp only [special, List.mem_cons, List.not_mem_nil, or_false, not_or] at hplain
  obtain ⟨h1, h2, h3, h4, h5, h6, h7⟩ := hplain
  exact ⟨h7, by simp [stringLetter, isNewline, h1, h2, h5]⟩

/-- The classes of the checks have no special bytes; that of the addresses has `#`. -/
theorem classes_plain :
    ((hash :: special).all fun b => !(isHex b || b ∈ lit ".:/%")) ∧
      (special.all fun b => !(isAlnum b || b ∈ lit "._-")) ∧
      (special.all fun b => !(isHex b || b ∈ lit ".:@#%")) ∧
      ((hash :: special).all fun b => !(isDigit b || b ∈ lit "kmgKMG")) ∧
      (hash :: special).all fun b => !(isDigit b || b == byte '-') := by
  decide +kernel

/-- The texts that the checks and the template name. -/
theorem literals_readable :
    (∀ a ∈ aclActions, isBareWord a) ∧ (∀ b, isBareWord (yesno b)) ∧ isBareWord (lit "4m") ∧
      isQuotedText doubleQuote (lit "/etc/unbound") ∧
      isQuotedText doubleQuote (lit "3 2 1 0 0") := by
  decide +kernel

theorem isBareWord_of_validNetblock (h : validNetblock s) : isBareWord s :=
  isBareWord_of_class classes_plain.1 h

theorem isBareWord_of_validPrivateAddr (h : validPrivateAddr s) : isBareWord s :=
  isBareWord_of_class classes_plain.1 h

theorem isBareWord_of_validACLAction (h : validACLAction s) : isBareWord s :=
  literals_readable.1 s (of_decide_eq_true h)

theorem isQuotedText_of_validDomainName (h : validDomainName s) :
    isQuotedText doubleQuote s :=
  isQuotedText_of_class classes_plain.2.1 h

/-- An address may begin with `#`. -/
theorem isBareWord_iff_of_validAddr (h : validAddr s) :
    isBareWord s ↔ s.head? ≠ some hash :=
  isBareWord_iff_of_class classes_plain.2.2.1 h

theorem isBareWord_of_validCacheSize (h : validCacheSize s) : isBareWord s := by
  apply isBareWord_of_class classes_plain.2.2.2.1
  simp only [validCacheSize, Bool.and_eq_true, allOf_iff] at h
  obtain ⟨⟨hne, hdigits⟩, hunit⟩ := h
  refine allOf_iff.mpr ⟨fun hnil => hne (by rw [hnil]; rfl), fun b hb => ?_⟩
  rw [← @List.takeWhile_append_dropWhile _ isDigit s] at hb
  rcases List.mem_append.mp hb with hb | hb
  · simp [hdigits b hb]
  · split at hunit
    · simp_all
    · simp_all
    · cases hunit

theorem isBareWord_itoa (n : Int) : isBareWord (itoa n) := by
  apply isBareWord_of_class classes_plain.2.2.2.2
  refine allOf_iff.mpr ⟨itoa_ne_nil n, fun b hb => ?_⟩
  rcases mem_itoa hb with hdigit | rfl
  · simp [hdigit]
  · simp

theorem isBareWord_yesno (b : Bool) : isBareWord (yesno b) := literals_readable.2.1 b

/-! ## The lines of the template -/

section

variable {name : String} {lines : List Line}

@[simp] theorem readable_slot {value : GoString} :
    Readable (slot name value :: lines) ↔ isBareWord value ∧ Readable lines := by
  simp [slot, Arg.WellFormed]

@[simp] theorem readable_quotedSlot {value : GoString} :
    Readable (quotedSlot name value :: lines) ↔
      isQuotedText doubleQuote value ∧ Readable lines := by
  simp [quotedSlot, Arg.WellFormed]

@[simp] theorem readable_flag {value : Bool} :
    Readable (flag name value :: lines) ↔ Readable lines := by
  simp [flag, isBareWord_yesno]

@[simp] theorem readable_number {value : Int} :
    Readable (number name value :: lines) ↔ Readable lines := by
  simp [number, isBareWord_itoa]

@[simp] theorem readable_positive {value : Int} : Readable (positive name value) := by
  simp [positive]

@[simp] theorem readable_top : Readable (top name :: lines) ↔ Readable lines := Iff.rfl

@[simp] theorem readable_note : Readable (note name :: lines) ↔ Readable lines := Iff.rfl

@[simp] theorem readable_clause : Readable (clause name :: lines) ↔ Readable lines := by
  simp [clause]

end

section

variable {s : ServerBlock}

theorem readable_headerLines : Readable headerLines := by simp [headerLines]

theorem readable_networkLines :
    Readable (networkLines s) ↔ isBareWord s.interface ∧
      ∀ acl ∈ s.accessControl, isBareWord acl.netblock ∧ isBareWord acl.action := by
  have hempty : isQuotedText doubleQuote [] := by decide
  obtain ⟨-, -, -, hdirectory, -⟩ := literals_readable
  simp [networkLines, Arg.WellFormed, hempty, hdirectory]

theorem readable_dnssecLines :
    Readable (dnssecLines s) ↔ isQuotedText doubleQuote s.moduleConfig ∧
      (s.autoTrustAnchor ≠ [] → isBareWord s.autoTrustAnchor) ∧
      ∀ d ∈ s.domainInsecure.getD [], isQuotedText doubleQuote d := by
  simp [dnssecLines]

theorem readable_privacyLines :
    Readable (privacyLines s) ↔ ∀ p ∈ s.privateAddress, isBareWord p := by
  simp [privacyLines]

theorem readable_cacheLines :
    Readable (cacheLines s) ↔ isBareWord s.keyCacheSize ∧ isBareWord s.msgCacheSize ∧
      isBareWord s.rrsetCacheSize := by
  simp [cacheLines]

theorem readable_performanceLines : Readable (performanceLines s) := by
  obtain ⟨-, -, hbuffer, -, hpolicy⟩ := literals_readable
  simp [performanceLines, hpolicy, hbuffer]

theorem readable_loggingLines :
    Readable (loggingLines s) ↔ (s.tlsCertBundle ≠ [] → isBareWord s.tlsCertBundle) ∧
      (s.rootHints ≠ [] → isBareWord s.rootHints) := by
  simp [loggingLines]

theorem readable_remoteControlLines {rc : RemoteControl} :
    Readable (remoteControlLines rc) ↔ isBareWord rc.controlInterface := by
  simp [remoteControlLines]

theorem readable_dnstapLines {d : DnstapConfig} :
    Readable (dnstapLines d) ↔ (d.enabled → isQuotedText doubleQuote d.socketPath) := by
  simp [dnstapLines]

theorem readable_forwardZoneLines {fz : ForwardZone} :
    Readable (forwardZoneLines fz) ↔ isQuotedText doubleQuote fz.name ∧
      ∀ addr ∈ fz.forwardAddrs, isBareWord addr := by
  simp [forwardZoneLines]

theorem readable_stubZoneLines {sz : StubZone} :
    Readable (stubZoneLines sz) ↔ isQuotedText doubleQuote sz.name ∧
      ∀ addr ∈ sz.stubAddrs, isBareWord addr := by
  simp [stubZoneLines]

end

/-! ## The names of the template -/

-- The texts of the template are literals; their characters are checked, since a literal is
-- quick to take apart and slow to compute with.

def isNameText (cs : List Char) : Bool := cs != [] && cs.all fun c => isNameByte (byte c)

theorem printable_entry {cs : List Char} {indent : Nat} {args : List Arg} (h : isNameText cs) :
    (Line.entry indent ⟨lit (String.ofList cs), args⟩).Printable := by
  simpa [Line.Printable, isNameText, lit, byte] using h

theorem printable_comment {cs : List Char} {indent : Nat}
    (h : cs.all fun c => !isNewline (byte c)) :
    (Line.comment indent (lit (String.ofList cs))).Printable := by
  simpa [Line.Printable, lit, byte] using h

theorem forall_mem_ite {c : Prop} [Decidable c] {lines : List Line} {p : Line → Prop} :
    (∀ l ∈ (if c then lines else []), p l) ↔ (c → ∀ l ∈ lines, p l) := by
  by_cases hc : c <;> simp [hc]

/-- The template has proper names and one-line comments, whatever fills its slots. -/
theorem confTemplate_printable (cfg : UnboundServerConfig) :
    ∀ l ∈ confTemplate cfg, l.Printable := by
  simp only [confTemplate, headerLines, networkLines, dnssecLines, privacyLines, cacheLines,
    performanceLines, loggingLines, remoteControlLines, dnstapLines, forwardZoneLines,
    stubZoneLines, positive, List.forall_mem_append, List.forall_mem_cons, List.forall_mem_flatMap,
    forall_mem_ite, slot, quotedSlot, flag, number, top, note, clause]
  repeat' first
    | exact printable_entry (by decide +kernel)
    | exact printable_comment (by decide +kernel)
    | exact List.forall_mem_nil _
    | exact trivial
    | apply And.intro
    | intro _

end GloryHole.Unbound
