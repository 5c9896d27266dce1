import GloryHole.Config.Proofs.RoundTrip

/-!
# Configurations that load

A configuration is loadable in an environment if a file that holds it loads there.  What
decides it are the settings of DNS over TLS, the logging section, the effective
authentication section and the forwarding rules; the defaults settle the rest.
-/

namespace GloryHole.Config

open Go

variable {hash : GoString → Option GoString}

/-! ## Sections -/

/-- The settings of DNS over TLS are complete: with it on there is an address, a certificate
with its key or a way to get one, and what the way needs. -/
structure ServerConfig.DotComplete (s : ServerConfig) : Prop where
  address : s.dotEnabled → s.dotAddress = [] ∨ trimSpace s.dotAddress ≠ []
  keyPair : s.dotEnabled → (trimSpace s.tls.certFile = [] ↔ trimSpace s.tls.keyFile = [])
  autocert : s.dotEnabled → s.tls.autocert.enabled → s.tls.autocert.hosts ≠ [] ∧
    (s.tls.autocert.http01Address = [] ∨ trimSpace s.tls.autocert.http01Address ≠ [])
  source : s.dotEnabled →
    trimSpace s.tls.certFile ≠ [] ∨ s.tls.autocert.enabled ∨ s.tls.acme.enabled
  acme : s.dotEnabled → s.tls.acme.enabled → s.tls.acme.hosts ≠ [] ∧
    s.tls.acme.dnsProvider = lit "cloudflare" ∧
    ¬ (0 < s.tls.acme.cloudflare.ttl ∧ s.tls.acme.cloudflare.ttl < 120) ∧
    0 ≤ s.tls.acme.cloudflare.propagationTimeout ∧ 0 ≤ s.tls.acme.cloudflare.pollingInterval

theorem trimSpace_orText {s default : GoString} (h : trimSpace default ≠ []) :
    trimSpace (orText s default) ≠ [] ↔ s = [] ∨ trimSpace s ≠ [] := by
  unfold orText
  by_cases hs : s = []
  · simp [hs, h]
  · simp [hs]

theorem orInt_neg {n default : Int} (h : 0 ≤ default) : orInt n default < 0 ↔ n < 0 := by
  unfold orInt
  split
  · omega
  · rfl

theorem TLSConfig.validate_eq_ok {t : TLSConfig} {u : Unit} :
    t.validate = .ok u ↔ (trimSpace t.certFile = [] ↔ trimSpace t.keyFile = []) ∧
      (t.autocert.enabled → t.autocert.hosts ≠ [] ∧ trimSpace t.autocert.http01Address ≠ []) ∧
      (trimSpace t.certFile ≠ [] ∨ t.autocert.enabled ∨ t.acme.enabled) ∧
      (t.acme.enabled → t.acme.hosts ≠ [] ∧ t.acme.dnsProvider = lit "cloudflare" ∧
        ¬ (0 < t.acme.cloudflare.ttl ∧ t.acme.cloudflare.ttl < 120) ∧
        0 ≤ t.acme.cloudflare.propagationTimeout ∧ 0 ≤ t.acme.cloudflare.pollingInterval) := by
  obtain ⟨cert, key, autocert, acme⟩ := t
  unfold validate
  generalize trimSpace cert = cert
  generalize trimSpace key = key
  cases autocert.enabled <;> cases acme.enabled <;> simp [bind_eq_ok, refuse_eq_ok] <;> grind

theorem ServerConfig.validate_eq_ok {s : ServerConfig} {u : Unit} :
    s.validate = .ok u ↔ s.listenAddress ≠ [] ∧ (s.tcpEnabled ∨ s.udpEnabled) ∧
      (s.dotEnabled → trimSpace s.dotAddress ≠ [] ∧ s.tls.validate = .ok ()) := by
  unfold validate
  cases s.tcpEnabled <;> cases s.udpEnabled <;> cases s.dotEnabled <;>
    simp [bind_eq_ok, refuse_eq_ok]

/-- After the defaults, the checks of the server section are those of DNS over TLS. -/
theorem ServerConfig.validate_applyDefaults {s : ServerConfig} {upstreams : List GoString}
    {u : Unit} : (s.applyDefaults upstreams).validate = .ok u ↔ s.DotComplete := by
  have hlisten : (s.applyDefaults upstreams).listenAddress ≠ [] :=
    orText_ne_nil (by decide)
  have htransport : (s.applyDefaults upstreams).tcpEnabled ∨
      (s.applyDefaults upstreams).udpEnabled := by
    simp only [applyDefaults]
    cases s.tcpEnabled <;> cases s.udpEnabled <;> simp
  have haddress : trimSpace (s.applyDefaults upstreams).dotAddress ≠ [] ↔
      s.dotAddress = [] ∨ trimSpace s.dotAddress ≠ [] :=
    trimSpace_orText (by decide)
  have hhttp01 : trimSpace (s.applyDefaults upstreams).tls.autocert.http01Address ≠ [] ↔
      s.tls.autocert.http01Address = [] ∨ trimSpace s.tls.autocert.http01Address ≠ [] :=
    trimSpace_orText (by decide)
  have httl : (0 < (s.applyDefaults upstreams).tls.acme.cloudflare.ttl ∧
      (s.applyDefaults upstreams).tls.acme.cloudflare.ttl < 120) ↔
        0 < s.tls.acme.cloudflare.ttl ∧ s.tls.acme.cloudflare.ttl < 120 := by
    change 0 < orInt s.tls.acme.cloudflare.ttl 120 ∧ orInt s.tls.acme.cloudflare.ttl 120 < 120 ↔ _
    unfold orInt
    split <;> omega
  have htimeout : 0 ≤ (s.applyDefaults upstreams).tls.acme.cloudflare.propagationTimeout ↔
      0 ≤ s.tls.acme.cloudflare.propagationTimeout :=
    not_lt.symm.trans ((not_congr (orInt_neg (by decide))).trans not_lt)
  have hpolling : 0 ≤ (s.applyDefaults upstreams).tls.acme.cloudflare.pollingInterval ↔
      0 ≤ s.tls.acme.cloudflare.pollingInterval :=
    not_lt.symm.trans ((not_congr (orInt_neg (by decide))).trans not_lt)
  rw [validate_eq_ok, and_iff_right hlisten, and_iff_right htransport,
    TLSConfig.validate_eq_ok, haddress, hhttp01, httl, htimeout, hpolling]
  change (s.dotEnabled = true → _ ∧ (trimSpace s.tls.certFile = [] ↔ trimSpace s.tls.keyFile = []) ∧
    _) ↔ _
  constructor
  · intro h
    exact ⟨fun hdot => (h hdot).1, fun hdot => (h hdot).2.1, fun hdot => (h hdot).2.2.1,
      fun hdot => (h hdot).2.2.2.1, fun hdot => (h hdot).2.2.2.2⟩
  · intro h hdot
    exact ⟨h.address hdot, h.keyPair hdot, h.autocert hdot, h.source hdot, h.acme hdot⟩

theorem ServerConfig.dotComplete_applyDefaults {s : ServerConfig} {upstreams : List GoString} :
    (s.applyDefaults upstreams).DotComplete ↔ s.DotComplete := by
  have hsettled : (s.applyDefaults upstreams).applyDefaults upstreams = s.applyDefaults upstreams :=
    applyDefaults_eq_self.mpr (applyDefaults_settled.mpr fun _ h => h)
  rw [← @validate_applyDefaults (s.applyDefaults upstreams) upstreams (), hsettled,
    validate_applyDefaults]

theorem LoggingConfig.applyDefaults_applyDefaults (l : LoggingConfig) :
    l.applyDefaults.applyDefaults = l.applyDefaults := by
  refine applyDefaults_eq_self.mpr ?_
  simp (disch := decide) only [Settled, applyDefaults, ne_eq, orText_ne_nil, orInt_ne_zero,
    not_false_eq_true, and_self]

def AuthConfig.Usable (a : AuthConfig) : Prop :=
  a.enabled → trimSpace a.apiKey ≠ [] ∨ a.username ≠ [] ∧ (a.password ≠ [] ∨ a.passwordHash ≠ [])

theorem AuthConfig.exists_validate {a : AuthConfig} (h : a.Settled hash) :
    (∃ a', a.validate hash = .ok a') ↔ a.Usable := by
  unfold validate Usable
  rw [normalize_eq_self.mpr h]
  cases a.enabled
  · simp
  · simp only [if_true, bind_eq_ok, refuse_eq_ok, pure_eq_ok, exists_const, exists_eq_right',
      forall_const]
    tauto

theorem AuthConfig.effective_normalize (env : Env) (a : AuthConfig) :
    (a.normalize hash).effective hash env = a.effective hash env := by
  unfold effective
  rw [normalize_eq_self.mpr (normalize_settled a)]

/-- A rule that has passed the checks passes them again. -/
theorem ForwardingRule.validate_validate {r r' : ForwardingRule} (h : r.validate = .ok r') :
    r'.validate = .ok r' := by
  have heq := validate_ok h
  subst heq
  have hpriority : orInt (orInt r.priority 50) 50 = orInt r.priority 50 :=
    (orInt_eq_self (by decide)).mpr (orInt_ne_zero (by decide))
  simpa only [validate, bind_eq_ok, refuse_eq_ok, pure_eq_ok, exists_const, hpriority] using h

theorem validateRules_validateRules {rules rules' : List ForwardingRule}
    (h : validateRules rules = .ok rules') : validateRules rules' = .ok rules' := by
  induction rules generalizing rules' with
  | nil =>
    cases pure_eq_ok.mp h
    rfl
  | cons r rules ih =>
    simp only [validateRules, bind_eq_ok, pure_eq_ok] at h
    obtain ⟨r', hr, tail, htail, rfl⟩ := h
    simp only [validateRules, bind_eq_ok, pure_eq_ok]
    exact ⟨r', ForwardingRule.validate_validate hr, tail, ih htail, rfl⟩

theorem ConditionalForwardingConfig.validate_validate {c c' : ConditionalForwardingConfig}
    (h : c.validate = .ok c') : c'.validate = .ok c' := by
  obtain ⟨rules, enabled⟩ := c
  cases enabled with
  | false =>
    cases pure_eq_ok.mp h
    rfl
  | true =>
    simp only [validate, if_true, bind_eq_ok, pure_eq_ok] at h
    obtain ⟨rules', hrules, rfl⟩ := h
    simp only [validate, if_true, bind_eq_ok, pure_eq_ok]
    exact ⟨rules', validateRules_validateRules hrules, rfl⟩

/-! ## Whole configurations -/

/-- The checks of `Validate`, section by section. -/
theorem exists_validate_iff {c : Config} :
    (∃ c', validate hash c = .ok c') ↔
      c.server.validate = .ok () ∧ c.upstreamDNSServers ≠ [] ∧ c.logging.validate = .ok () ∧
        (∃ a, c.auth.validate hash = .ok a) ∧ ∃ cf, c.conditionalForwarding.validate = .ok cf := by
  simp only [validate, bind_eq_ok, wrap_eq_ok, pure_eq_ok, refuse_eq_ok]
  constructor
  · rintro ⟨c', u, hserver, v, hupstreams, w, hlogging, a, ha, cf, hcf, -⟩
    exact ⟨hserver, hupstreams, hlogging, ⟨a, ha⟩, cf, hcf⟩
  · rintro ⟨hserver, hupstreams, hlogging, ⟨a, ha⟩, cf, hcf⟩
    exact ⟨_, (), hserver, (), hupstreams, (), hlogging, a, ha, cf, hcf, rfl⟩

def Loadable (hash : GoString → Option GoString) (env : Env) (c : Config) : Prop :=
  ∃ c', validate hash (applyEnvOverrides hash env (applyDefaults hash c)) = .ok c'

theorem exists_load_iff {δ : Type} {yaml : Yaml δ} {env : Env} {c : Config} {file : δ}
    (hyaml : yaml.Faithful) (hsave : save yaml c = .ok file) :
    (∃ cfg, load hash yaml env file = .ok cfg) ↔ Loadable hash env c := by
  obtain ⟨data, hmarshal, hunmarshal⟩ := hyaml c
  rw [save, wrap_eq_ok, hmarshal, Except.ok.injEq] at hsave
  subst hsave
  simp only [load, bind_eq_ok, wrap_eq_ok, hunmarshal, Except.ok.injEq, exists_eq_left', Loadable]

theorem loadable_iff {env : Env} {c : Config} :
    Loadable hash env c ↔ c.server.DotComplete ∧ c.logging.applyDefaults.validate = .ok () ∧
      (c.auth.effective hash env).Usable ∧ ∃ cf, c.conditionalForwarding.validate = .ok cf := by
  have hupstreams : (applyDefaults hash c).upstreamDNSServers ≠ [] := by
    simp only [applyDefaults]
    split
    · decide
    · assumption
  rw [Loadable, exists_validate_iff]
  change (c.server.applyDefaults c.upstreamDNSServers).validate = .ok () ∧
    (applyDefaults hash c).upstreamDNSServers ≠ [] ∧ c.logging.applyDefaults.validate = .ok () ∧
    (∃ a, (c.auth.effective hash env).validate hash = .ok a) ∧ _ ↔ _
  rw [ServerConfig.validate_applyDefaults, AuthConfig.exists_validate
    (AuthConfig.effective_settled env c.auth), and_iff_right hupstreams]
  rfl

/-- A section has a password if it is overridden by the one it was made with. -/
theorem migrated_ne_nil {pass h : GoString} {p : Option GoString}
    (hsettled : pass = [] ∨ h ≠ [] ∨ hash pass = none)
    (hsome : pass ≠ [] ∨ h ≠ []) (hp : ∀ q ∈ p, pass ≠ [] → h = [] → q = pass) :
    (migrated hash (p.getD pass) h).1 ≠ [] ∨ (migrated hash (p.getD pass) h).2 ≠ [] := by
  by_cases hh : h = []
  · have hne : pass ≠ [] := hsome.resolve_right (not_not.mpr hh)
    have hpass : p.getD pass = pass := by
      cases p with
      | none => rfl
      | some q => exact hp q rfl hne hh
    have hnone : hash pass = none := (hsettled.resolve_left hne).resolve_left (not_not.mpr hh)
    rw [hpass]
    simp [migrated, hne, hh, hnone]
  · exact Or.inr (by simp [migrated, hh])

/-- A section that is usable stays so when it is loaded once more. -/
theorem AuthConfig.usable_effective_effective {env : Env} {a : AuthConfig}
    (h : (a.effective hash env).Usable) :
    ((a.effective hash env).effective hash env).Usable := by
  have hsettled := @effective_settled hash env a
  have heq : (a.effective hash env).effective hash env =
      ((a.effective hash env).override env).normalize hash := by
    rw [effective, normalize_eq_self.mpr hsettled]
  rw [heq, override_effective, normalize_eq]
  intro henabled
  apply (h henabled).imp_right
  rintro ⟨huser, hcred⟩
  refine ⟨huser, ?_⟩
  refine migrated_ne_nil hsettled.2 hcred fun q hq hpass hnil => ?_
  -- No hash was made of the password of the environment, so it is still the plain one.
  have hq : env.basicPass = some q := hq
  simp only [effective, normalize_eq, override_eq, hq, Option.getD_some] at hpass hnil ⊢
  unfold migrated at hpass hnil ⊢
  grind

/-- A configuration that was loaded is loadable, in the environment it was loaded in. -/
theorem loadable_of_load {δ : Type} {yaml : Yaml δ} {env : Env} {data : δ} {cfg : Config}
    (h : load hash yaml env data = .ok cfg) : Loadable hash env cfg := by
  obtain ⟨raw, hraw, hvalid⟩ := load_eq_ok_iff.mp h
  obtain ⟨hserver, hlogging, hauth, -⟩ := loadable_iff.mp ⟨cfg, hvalid⟩
  obtain ⟨raw', cf, hraw', hcf, rfl⟩ := load_ok h
  cases hraw.symm.trans hraw'
  refine loadable_iff.mpr ⟨ServerConfig.dotComplete_applyDefaults.mpr hserver, ?_, ?_, cf,
    ConditionalForwardingConfig.validate_validate hcf⟩
  · change raw.logging.applyDefaults.applyDefaults.validate = .ok ()
    rw [LoggingConfig.applyDefaults_applyDefaults]
    exact hlogging
  · exact AuthConfig.usable_effective_effective hauth

theorem orText_of_ne {s default : GoString} (h : s ≠ []) : orText s default = s := if_neg h

theorem LoggingConfig.validate_applyDefaults {l : LoggingConfig} {u : Unit}
    (h : l.validate = .ok u) : l.applyDefaults.validate = .ok u := by
  simp only [validate, bind_eq_ok, refuse_eq_ok, exists_const, not_not] at h ⊢
  obtain ⟨hlevel, hformat, houtput, hfile⟩ := h
  have hlevel' : l.level ≠ [] := by
    intro hnil
    rw [hnil] at hlevel
    revert hlevel
    decide
  have hformat' : l.format ≠ [] := by
    intro hnil
    rw [hnil] at hformat
    revert hformat
    decide
  have houtput' : l.output ≠ [] := by
    intro hnil
    rw [hnil] at houtput
    revert houtput
    decide
  simp only [applyDefaults, orText_of_ne hlevel', orText_of_ne hformat', orText_of_ne houtput']
  exact ⟨hlevel, hformat, houtput, hfile⟩

end GloryHole.Config
