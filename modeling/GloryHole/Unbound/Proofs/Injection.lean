import GloryHole.Unbound.Proofs.Template

/-!
# Directives in unbound.conf

`SanitizeConfig` checks the lists and, if they are not empty, the cache sizes.  The other
texts of the template go into the file as they are.  The file reads as the directives of the
template exactly if these, too, are words or strings that can be read back.
-/

namespace GloryHole.Unbound

open Go Support.Directives

/-! ## What is written is what is read -/

/-- The texts that `SanitizeConfig` does not look at can be read back: the bare ones are
words, those in quotes end where the quotes do.  The cache sizes are not empty, and no address
of a zone begins a comment. -/
structure Clean (cfg : UnboundServerConfig) : Prop where
  interface : isBareWord cfg.server.interface
  moduleConfig : isQuotedText doubleQuote cfg.server.moduleConfig
  autoTrustAnchor : cfg.server.autoTrustAnchor ≠ [] → isBareWord cfg.server.autoTrustAnchor
  tlsCertBundle : cfg.server.tlsCertBundle ≠ [] → isBareWord cfg.server.tlsCertBundle
  rootHints : cfg.server.rootHints ≠ [] → isBareWord cfg.server.rootHints
  controlInterface : isBareWord cfg.remoteControl.controlInterface
  socketPath : cfg.dnstap.enabled → isQuotedText doubleQuote cfg.dnstap.socketPath
  keyCacheSize : cfg.server.keyCacheSize ≠ []
  msgCacheSize : cfg.server.msgCacheSize ≠ []
  rrsetCacheSize : cfg.server.rrsetCacheSize ≠ []
  forwardAddrs : ∀ fz ∈ cfg.forwardZones, ∀ addr ∈ fz.forwardAddrs, addr.head? ≠ some hash
  stubAddrs : ∀ sz ∈ cfg.stubZones, ∀ addr ∈ sz.stubAddrs, addr.head? ≠ some hash

theorem cacheSize_isBareWord_iff {s : GoString} (h : s ≠ [] → Passes validCacheSize s) :
    isBareWord s ↔ s ≠ [] :=
  ⟨fun hword => (isBareWord_iff.mp hword).1, fun hne => isBareWord_of_validCacheSize (h hne).2.2⟩

theorem addrs_isBareWord_iff {addrs : List GoString} (h : ∀ addr ∈ addrs, Passes validAddr addr) :
    (∀ addr ∈ addrs, isBareWord addr) ↔ ∀ addr ∈ addrs, addr.head? ≠ some hash :=
  forall₂_congr fun addr haddr => isBareWord_iff_of_validAddr (h addr haddr).2.2

theorem readable_confTemplate_iff {cfg : UnboundServerConfig} (h : Sanitized cfg) :
    Readable (confTemplate cfg) ↔ Clean cfg := by
  have hacl : ∀ acl ∈ cfg.server.accessControl, isBareWord acl.netblock ∧ isBareWord acl.action :=
    fun acl hacl => ⟨isBareWord_of_validNetblock (h.accessControl acl hacl).1.2.2,
      isBareWord_of_validACLAction (h.accessControl acl hacl).2.2.2⟩
  have hinsecure : ∀ d ∈ cfg.server.domainInsecure.getD [], isQuotedText doubleQuote d :=
    fun d hd => isQuotedText_of_validDomainName (h.domainInsecure d hd).2.2
  have hprivate : ∀ p ∈ cfg.server.privateAddress, isBareWord p :=
    fun p hp => isBareWord_of_validPrivateAddr (h.privateAddress p hp).2.2
  have hforward (fz : ForwardZone) (hfz : fz ∈ cfg.forwardZones) :
      Readable (forwardZoneLines fz) ↔ ∀ addr ∈ fz.forwardAddrs, addr.head? ≠ some hash := by
    obtain ⟨hname, haddrs⟩ := h.forwardZones fz hfz
    rw [readable_forwardZoneLines, addrs_isBareWord_iff haddrs]
    exact and_iff_right (isQuotedText_of_validDomainName hname.2.2)
  have hstub (sz : StubZone) (hsz : sz ∈ cfg.stubZones) :
      Readable (stubZoneLines sz) ↔ ∀ addr ∈ sz.stubAddrs, addr.head? ≠ some hash := by
    obtain ⟨hname, haddrs⟩ := h.stubZones sz hsz
    rw [readable_stubZoneLines, addrs_isBareWord_iff haddrs]
    exact and_iff_right (isQuotedText_of_validDomainName hname.2.2)
  simp only [confTemplate, readable_append, readable_flatMap, readable_headerLines,
    readable_networkLines, readable_dnssecLines, readable_privacyLines, readable_cacheLines,
    readable_performanceLines, readable_loggingLines, readable_remoteControlLines,
    readable_dnstapLines, cacheSize_isBareWord_iff h.keyCacheSize,
    cacheSize_isBareWord_iff h.msgCacheSize, cacheSize_isBareWord_iff h.rrsetCacheSize,
    forall₂_congr hforward, forall₂_congr hstub, true_and, and_true, and_assoc]
  constructor
  · rintro ⟨hinterface, -, hmodule, htrust, -, -, hkey, hmsg, hrrset, htls, hroot, hcontrol,
      hsocket, hforwards, hstubs⟩
    exact ⟨hinterface, hmodule, htrust, htls, hroot, hcontrol, hsocket, hkey, hmsg, hrrset,
      hforwards, hstubs⟩
  · intro hclean
    exact ⟨hclean.interface, hacl, hclean.moduleConfig, hclean.autoTrustAnchor, hinsecure, hprivate,
      hclean.keyCacheSize, hclean.msgCacheSize, hclean.rrsetCacheSize, hclean.tlsCertBundle,
      hclean.rootHints, hclean.controlInterface, hclean.socketPath, hclean.forwardAddrs,
      hclean.stubAddrs⟩

theorem writeConfig_eq_ok {quote : GoString → GoString} {cfg : UnboundServerConfig}
    {file : GoString} :
    writeConfig quote cfg = .ok file ↔
      sanitizeConfig quote cfg = .ok () ∧ render (confTemplate cfg) = file := by
  simp only [writeConfig, bind_eq_ok, wrap_eq_ok, pure_eq_ok, renderConfig]
  constructor
  · rintro ⟨_, hsanitize, hfile⟩
    exact ⟨hsanitize, hfile⟩
  · intro h
    exact ⟨(), h⟩

/-- Whatever configuration `WriteConfig` accepts: the file it writes, read line by line, has
exactly the directives of the template with the values of the fields as their arguments, if
and only if the texts it does not check can be read back. -/
theorem writeConfig_reads_iff (quote : GoString → GoString) (cfg : UnboundServerConfig)
    (file : GoString) (h : writeConfig quote cfg = .ok file) :
    read file = some (directives (confTemplate cfg)) ↔ Clean cfg := by
  obtain ⟨hsanitize, rfl⟩ := writeConfig_eq_ok.mp h
  rw [read_render_iff (confTemplate_printable cfg),
    readable_confTemplate_iff (sanitized_of_sanitizeConfig hsanitize)]

def startConfig : UnboundServerConfig :=
  defaultServerConfig 5353 (lit "/var/run/unbound/control.sock")

theorem startConfig_clean : Clean startConfig := by
  constructor <;> decide +kernel

theorem writeConfig_reads_default :
    read (renderConfig startConfig) = some (directives (confTemplate startConfig)) :=
  (writeConfig_reads_iff id startConfig _ (writeConfig_eq_ok.mpr ⟨by decide +kernel, rfl⟩)).mpr
    startConfig_clean

/-! ## A directive that is injected -/

def withModuleConfig (value : GoString) : UnboundServerConfig :=
  { startConfig with
    server := mergeServerBlock startConfig.server { moduleConfig := value } [] }

def injection : GoString := lit "iterator\"\n    include: \"/tmp/evil.conf"

def includeDirective : Directive :=
  ⟨lit "include", [.quoted doubleQuote (lit "/tmp/evil.conf")]⟩

/-- The injection is accepted, and the file has a directive the template does not have. -/
theorem writeConfig_injects :
    writeConfig id (withModuleConfig injection) =
        .ok (renderConfig (withModuleConfig injection)) ∧
      (∃ ds, read (renderConfig (withModuleConfig injection)) = some ds ∧
        includeDirective ∈ ds) ∧
      includeDirective ∉ directives (confTemplate (withModuleConfig injection)) := by
  refine ⟨writeConfig_eq_ok.mpr ⟨by decide +kernel, rfl⟩, ?_, by decide +kernel⟩
  have hread : (read (renderConfig (withModuleConfig injection))).any (includeDirective ∈ ·) := by
    decide +kernel
  obtain ⟨ds, hds, hmem⟩ := (Option.any_eq_true _ _).mp hread
  exact ⟨ds, hds, of_decide_eq_true hmem⟩

end GloryHole.Unbound
