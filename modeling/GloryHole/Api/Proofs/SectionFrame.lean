import GloryHole.Api.Proofs.Endpoints

/-!
# The other sections of a save

An endpoint saves the configuration in memory with its own fields changed.  The other sections
of the file are therefore what the memory has for them: a save keeps them exactly if the
memory is in step with the file.
-/

namespace GloryHole.Api

open Go
open Config (Config Env Yaml load save validate ServerConfig AuthConfig
  ConditionalForwardingConfig applyDefaults applyDefaults_applyDefaults_iff orText)

variable {lib : Stdlib} {δ : Type} {hash : GoString → Option GoString} {yaml : Yaml δ} {env : Env}

/-! ## The fields of an endpoint -/

def UpdateRequest.otherServer : UpdateRequest → ServerConfig → ServerConfig
  | .tls _, s => { s with dotEnabled := false, dotAddress := [], tls := {} }
  | .features _, s => { s with enableBlocklist := false, enablePolicies := false }
  | _, s => s

def UpdateRequest.others (r : UpdateRequest) (c : Config) : Config :=
  let c := { c with server := r.otherServer c.server }
  match r with
  | .upstreams _ => { c with upstreamDNSServers := [] }
  | .cache _ => { c with cache := {} }
  | .logging _ => { c with logging := {} }
  | .blockPage _ => { c with blockPage := {} }
  | .blocklists _ => { c with blocklists := [] }
  | .addLocalRecord _ => { c with localRecords := {} }
  | .removeLocalRecord _ => { c with localRecords := {} }
  | .tls _ => c
  | .features _ => c

/-- The upstreams an endpoint leaves.  An ACME section without resolvers inherits them, so that
they are not only a matter of the upstreams section. -/
def UpdateRequest.upstreamsAfter (lib : Stdlib) (c : Config) : UpdateRequest → List GoString
  | .upstreams body => (parseUpstreamServers lib body).toOption.getD c.upstreamDNSServers
  | _ => c.upstreamDNSServers

structure Validated (c : Config) : Prop where
  upstreams : c.upstreamDNSServers ≠ []
  forwarding : c.conditionalForwarding.validate = .ok c.conditionalForwarding

theorem Body.settings_eq {body : Body TLSRequest} {current server : ServerConfig}
    (h : body.settings lib current = some server) :
    ∃ enabled address tls, server =
      { current with dotEnabled := enabled, dotAddress := address, tls := tls } := by
  unfold Body.settings at h
  split at h
  · cases h
    exact ⟨_, _, _, rfl⟩
  · cases h
    exact ⟨_, _, _, rfl⟩
  · cases h

variable {r : UpdateRequest} {c : Config} {s : ConfigState δ}

/-- The other sections of what an endpoint saves are those of the memory. -/
theorem UpdateRequest.others_updated {u : Config} (hyaml : yaml.Faithful) (hc : Validated c)
    (h : r.updated lib hash yaml c = .ok u) :
    r.others (applyDefaults hash u) =
      r.others (applyDefaults hash { c with upstreamDNSServers := r.upstreamsAfter lib c }) := by
  have htwice : applyDefaults hash (applyDefaults hash c) = applyDefaults hash c :=
    applyDefaults_applyDefaults_iff.mpr (Or.inr hc.upstreams)
  have hothers (r : UpdateRequest) := congrArg r.others htwice
  cases r.saves hyaml h with
  | upstreams hparse =>
    simp only [upstreamsAfter, hparse]
    rfl
  | cache | logging | blockPage | blocklists => rfl
  | tls hsettings =>
    obtain ⟨enabled, address, tls, rfl⟩ := Body.settings_eq hsettings
    rfl
  | features req => exact hothers (.features req)
  | addLocalRecord body records hcf =>
    rw [hc.forwarding] at hcf
    cases hcf
    exact hothers (.addLocalRecord body)
  | removeLocalRecord id records hcf =>
    rw [hc.forwarding] at hcf
    cases hcf
    exact hothers (.removeLocalRecord id)

/-! ## Runs -/

structure ConfigState.Running (yaml : Yaml δ) (s : ConfigState δ) : Prop where
  parses : ∃ raw, yaml.unmarshal s.file = .ok raw
  validated : Validated s.config

theorem validated_of_validate {c' : Config} (h : validate hash c = .ok c') : Validated c' := by
  simp only [validate, bind_eq_ok, wrap_eq_ok, pure_eq_ok, refuse_eq_ok] at h
  obtain ⟨-, -, -, hupstreams, -, -, auth, -, cf, hcf, rfl⟩ := h
  exact ⟨hupstreams, Config.ConditionalForwardingConfig.validate_validate hcf⟩

theorem unmarshal_save {file : δ} (hyaml : yaml.Faithful) (hsave : save yaml c = .ok file) :
    yaml.unmarshal file = .ok c := by
  obtain ⟨data, hmarshal, hunmarshal⟩ := hyaml c
  rw [save, wrap_eq_ok, hmarshal, Except.ok.injEq] at hsave
  rw [← hsave]
  exact hunmarshal

theorem validated_of_load {file : δ} (h : load hash yaml env file = .ok c) :
    Validated c := by
  obtain ⟨raw, -, hvalid⟩ := Config.load_eq_ok_iff.mp h
  exact validated_of_validate hvalid

theorem ConfigState.Running.reload (h : s.Running yaml) :
    (ConfigState.reload hash yaml env s).Running yaml := by
  refine ⟨by rw [ConfigState.reload_file]; exact h.parses, ?_⟩
  unfold ConfigState.reload
  split
  · rename_i c hload
    exact validated_of_load hload
  · exact h.validated

theorem ConfigState.Running.next (hyaml : yaml.Faithful) (h : s.Running yaml) (r : UpdateRequest) :
    (s.next lib hash yaml env r).Running yaml := by
  unfold ConfigState.next
  rcases hresult : s.update lib hash yaml env r with ⟨s', e | updated⟩
  · rw [ConfigState.update_error hresult]
    exact h
  · obtain ⟨-, file, hsave, rfl⟩ := ConfigState.update_ok hresult
    exact ConfigState.Running.reload ⟨⟨updated, unmarshal_save hyaml hsave⟩, h.validated⟩

/-- A request leaves the state alone, or the memory is the file loaded, or the file does not
load. -/
theorem ConfigState.next_cases (s : ConfigState δ) (r : UpdateRequest) :
    s.next lib hash yaml env r = s ∨
      load hash yaml env (s.next lib hash yaml env r).file =
        .ok (s.next lib hash yaml env r).config ∨
      ∃ e, load hash yaml env (s.next lib hash yaml env r).file = .error e := by
  unfold ConfigState.next
  rcases hresult : s.update lib hash yaml env r with ⟨s', e | updated⟩
  · exact Or.inl (ConfigState.update_error hresult)
  · obtain ⟨-, file, -, rfl⟩ := ConfigState.update_ok hresult
    refine Or.inr ?_
    rw [ConfigState.reload_file]
    unfold ConfigState.reload
    cases hload : load hash yaml env file with
    | error e => exact Or.inr ⟨e, rfl⟩
    | ok c =>
      simp only
      exact Or.inl trivial

/-- Outside the fields of the endpoint two files parse to the same configuration, after
defaults. -/
def UpdateRequest.SameOthers (hash : GoString → Option GoString) (yaml : Yaml δ)
    (r : UpdateRequest) (file file' : δ) : Prop :=
  ∃ c c', yaml.unmarshal file = .ok c ∧ yaml.unmarshal file' = .ok c' ∧
    r.others (applyDefaults hash c') = r.others (applyDefaults hash c)

/-- Outside the fields of the endpoint the memory is what the file parses to, after
defaults. -/
def ConfigState.InStep (lib : Stdlib) (hash : GoString → Option GoString) (yaml : Yaml δ)
    (s : ConfigState δ) (r : UpdateRequest) : Prop :=
  ∃ c, yaml.unmarshal s.file = .ok c ∧
    r.others (applyDefaults hash
        { s.config with upstreamDNSServers := r.upstreamsAfter lib s.config }) =
      r.others (applyDefaults hash c)

theorem ConfigState.Running.sameOthers_update {s' : ConfigState δ} {updated : Config}
    (h : s.Running yaml) (hyaml : yaml.Faithful)
    (hok : s.update lib hash yaml env r = (s', .ok updated)) :
    r.SameOthers hash yaml s.file s'.file ↔ s.InStep lib hash yaml r := by
  obtain ⟨hupdated, file, hsave, rfl⟩ := ConfigState.update_ok hok
  have hfile := unmarshal_save hyaml hsave
  have hothers := UpdateRequest.others_updated hyaml h.validated hupdated
  simp only [UpdateRequest.SameOthers, ConfigState.InStep, ConfigState.reload_file, hfile,
    Except.ok.injEq, exists_and_left, exists_eq_left', hothers]

/-! ## The memory against the file -/

structure SameRest (x y : Config) : Prop where
  localRecords : x.localRecords = y.localRecords
  forwarder : x.forwarder = y.forwarder
  blocklists : x.blocklists = y.blocklists
  logging : x.logging = y.logging
  database : x.database = y.database
  cache : x.cache = y.cache
  blockPage : x.blockPage = y.blockPage
  unbound : x.unbound = y.unbound
  updateInterval : x.updateInterval = y.updateInterval
  autoUpdateBlocklists : x.autoUpdateBlocklists = y.autoUpdateBlocklists

theorem others_eq_iff {x y : Config} (h : SameRest x y) :
    r.others x = r.others y ↔
      x.telemetry = y.telemetry ∧ r.otherServer x.server = r.otherServer y.server ∧
        x.policy = y.policy ∧ x.auth = y.auth ∧
        x.conditionalForwarding = y.conditionalForwarding ∧ x.whitelist = y.whitelist ∧
        ((∃ body, r = .upstreams body) ∨ x.upstreamDNSServers = y.upstreamDNSServers) := by
  obtain ⟨h₁, h₂, h₃, h₄, h₅, h₆, h₇, h₈, h₉, h₁₀⟩ := h
  cases r <;> simp only [UpdateRequest.others, Config.mk.injEq, h₁, h₂, h₃, h₄, h₅, h₆, h₇, h₈, h₉,
    h₁₀, true_and, and_true, reduceCtorEq, UpdateRequest.upstreams.injEq, exists_eq', true_or] <;>
    tauto

theorem otherServer_eq_iff {r : UpdateRequest} {s : ServerConfig} {clients u u' : List GoString} :
    r.otherServer (({ s with allowedClients := clients } : ServerConfig).applyDefaults u') =
        r.otherServer (s.applyDefaults u) ↔
      clients = s.allowedClients ∧
        ((∃ body, r = .tls body) ∨ s.tls.acme.upstreams ≠ [] ∨ u' = u) := by
  have hresolvers : ((if s.tls.acme.upstreams = [] then u' else s.tls.acme.upstreams) =
      if s.tls.acme.upstreams = [] then u else s.tls.acme.upstreams) ↔
        s.tls.acme.upstreams ≠ [] ∨ u' = u := by
    by_cases hnil : s.tls.acme.upstreams = []
    · simp [hnil]
    · simp [hnil]
  cases r <;> simp only [UpdateRequest.otherServer, ServerConfig.applyDefaults,
    Config.TLSConfig.applyDefaults, Config.ACMEConfig.applyDefaults, ServerConfig.mk.injEq,
    Config.TLSConfig.mk.injEq, Config.ACMEConfig.mk.injEq, true_and, and_true, hresolvers,
    reduceCtorEq, exists_false, false_or, UpdateRequest.tls.injEq, exists_eq', true_or]

theorem telemetry_eq_iff {t : Config.TelemetryConfig} {version : GoString} :
    ({ t.applyDefaults with serviceVersion := version } : Config.TelemetryConfig).applyDefaults =
        t.applyDefaults ↔
      orText version (lit "dev") = orText t.serviceVersion (lit "dev") := by
  have hname : orText (orText t.serviceName (lit "glory-hole")) (lit "glory-hole") =
      orText t.serviceName (lit "glory-hole") :=
    (Config.orText_eq_self (by decide)).mpr (Config.orText_ne_nil (by decide))
  have hport : Config.orInt (Config.orInt t.prometheusPort 9090) 9090 =
      Config.orInt t.prometheusPort 9090 :=
    (Config.orInt_eq_self (by decide)).mpr (Config.orInt_ne_zero (by decide))
  simp only [Config.TelemetryConfig.applyDefaults, Config.TelemetryConfig.mk.injEq, hname, hport,
    true_and, and_true]

theorem resolvers_ne_nil {s : ServerConfig} {u : List GoString} :
    (s.applyDefaults u).tls.acme.upstreams ≠ [] ↔ s.tls.acme.upstreams ≠ [] ∨ u ≠ [] := by
  simp only [ServerConfig.applyDefaults, Config.TLSConfig.applyDefaults,
    Config.ACMEConfig.applyDefaults]
  by_cases hnil : s.tls.acme.upstreams = []
  · simp [hnil]
  · simp [hnil]

theorem otherServer_loaded_iff {s : ServerConfig} {clients u u' : List GoString} (hu' : u' ≠ []) :
    r.otherServer
        (({ s.applyDefaults u with allowedClients := clients } : ServerConfig).applyDefaults u') =
        r.otherServer (s.applyDefaults u) ↔
      clients = s.allowedClients ∧
        ((∃ body, r = .tls body) ∨ s.tls.acme.upstreams ≠ [] ∨ u ≠ []) := by
  have hsettled : (s.applyDefaults u).applyDefaults u = s.applyDefaults u :=
    ServerConfig.applyDefaults_eq_self.mpr (ServerConfig.applyDefaults_settled.mpr fun _ h => h)
  have hiff := @otherServer_eq_iff r (s.applyDefaults u) clients u u'
  rw [hsettled, resolvers_ne_nil] at hiff
  rw [hiff]
  refine and_congr Iff.rfl (or_congr Iff.rfl ⟨?_, Or.inl⟩)
  rintro (h | rfl)
  · exact h
  · exact Or.inr hu'

/-- The configuration in memory: what the file parses to, after defaults, under the overrides
of the environment, with what a load and a run put into it. -/
def memory (hash : GoString → Option GoString) (env : Env) (version : GoString)
    (clients upstreams whitelist : List GoString) (cf : ConditionalForwardingConfig)
    (raw : Config) : Config :=
  { applyDefaults hash raw with
    auth := raw.auth.effective hash env
    telemetry := { raw.telemetry.applyDefaults with serviceVersion := version }
    conditionalForwarding := cf
    whitelist := whitelist
    server := { raw.server.applyDefaults raw.upstreamDNSServers with allowedClients := clients }
    upstreamDNSServers := upstreams }

section

variable {version : GoString} {clients upstreams whitelist : List GoString}
  {cf : ConditionalForwardingConfig} {raw : Config} {r : UpdateRequest}

/-- The defaults of a second load leave the sections that inherit nothing as they are. -/
theorem sameRest_memory :
    SameRest (applyDefaults hash (memory hash env version clients upstreams whitelist cf raw))
      (applyDefaults hash raw) := by
  have htwice : applyDefaults hash (applyDefaults hash { raw with upstreamDNSServers := [[]] }) =
      applyDefaults hash { raw with upstreamDNSServers := [[]] } :=
    applyDefaults_applyDefaults_iff.mpr (Or.inr (List.cons_ne_nil _ _))
  have hlogging := congrArg Config.logging htwice
  have hdatabase := congrArg Config.database htwice
  have hcache := congrArg Config.cache htwice
  have hunbound := congrArg Config.unbound htwice
  have hinterval := congrArg Config.updateInterval htwice
  exact ⟨rfl, rfl, rfl, hlogging, hdatabase, hcache, rfl, hunbound, hinterval, rfl⟩

/-- The memory against the file, from outside the fields of an endpoint. -/
theorem others_memory_iff (hne : upstreams ≠ []) :
    r.others (applyDefaults hash
        (memory hash env version clients upstreams whitelist cf raw)) =
        r.others (applyDefaults hash raw) ↔
      orText version (lit "dev") = orText raw.telemetry.serviceVersion (lit "dev") ∧
      (clients = raw.server.allowedClients ∧ ((∃ body, r = .tls body) ∨
        raw.server.tls.acme.upstreams ≠ [] ∨ raw.upstreamDNSServers ≠ [])) ∧
      raw.auth.effective hash env = raw.auth.normalize hash ∧
      cf = raw.conditionalForwarding ∧ whitelist = raw.whitelist ∧
      ((∃ body, r = .upstreams body) ∨
        upstreams = (applyDefaults hash raw).upstreamDNSServers) := by
  have hauth : (raw.auth.effective hash env).normalize hash = raw.auth.effective hash env :=
    AuthConfig.normalize_eq_self.mpr (AuthConfig.effective_settled env raw.auth)
  have hupstreams : (applyDefaults hash
      (memory hash env version clients upstreams whitelist cf raw)).upstreamDNSServers =
        upstreams := if_neg hne
  rw [others_eq_iff sameRest_memory, hupstreams]
  simp only [memory, applyDefaults, telemetry_eq_iff, otherServer_loaded_iff hne, hauth,
    true_and]

/-- Other clients and other upstreams, seen from outside the fields of an endpoint. -/
theorem others_set_iff {c : Config} (hupstreams : upstreams ≠ []) (hc : c.upstreamDNSServers ≠ []) :
    r.others (applyDefaults hash
        { c with
          server := { c.server with allowedClients := clients }
          upstreamDNSServers := upstreams }) = r.others (applyDefaults hash c) ↔
      (clients = c.server.allowedClients ∧ ((∃ body, r = .tls body) ∨
        c.server.tls.acme.upstreams ≠ [] ∨ upstreams = c.upstreamDNSServers)) ∧
      ((∃ body, r = .upstreams body) ∨ upstreams = c.upstreamDNSServers) := by
  have hrest : SameRest (applyDefaults hash
      { c with
        server := { c.server with allowedClients := clients }
        upstreamDNSServers := upstreams }) (applyDefaults hash c) :=
    ⟨rfl, rfl, rfl, rfl, rfl, rfl, rfl, rfl, rfl, rfl⟩
  rw [others_eq_iff hrest]
  simp only [applyDefaults, otherServer_eq_iff, if_neg hupstreams, if_neg hc, true_and]

theorem parseUpstreamServers_ne_nil {lib : Stdlib} {body : Body UpstreamsRequest}
    {servers : List GoString} (h : parseUpstreamServers lib body = .ok servers) :
    servers ≠ [] := by
  simp only [parseUpstreamServers, bind_eq_ok, refuse_eq_ok, pure_eq_ok] at h
  obtain ⟨req, -, -, -, result, -, -, hne, rfl⟩ := h
  exact hne

theorem UpdateRequest.upstreamsAfter_ne_nil {c : Config} (h : c.upstreamDNSServers ≠ [])
    (r : UpdateRequest) : r.upstreamsAfter lib c ≠ [] := by
  cases r with
  | upstreams body =>
    simp only [upstreamsAfter]
    cases hparse : parseUpstreamServers lib body with
    | error e => exact h
    | ok servers => exact parseUpstreamServers_ne_nil hparse
  | _ => exact h

theorem applyDefaults_upstreams_ne_nil : (applyDefaults hash raw).upstreamDNSServers ≠ [] := by
  simp only [applyDefaults]
  split
  · decide
  · assumption

/-- What keeps a load of `raw` in step with the file it comes from: the environment overrides
nothing, the rules have their priorities, and the ACME section has resolvers of its own or
inherits configured ones. -/
structure Current (hash : GoString → Option GoString) (env : Env) (raw : Config)
    (r : UpdateRequest) : Prop where
  auth : raw.auth.effective hash env = raw.auth.normalize hash
  forwarding : raw.conditionalForwarding.Settled
  resolvers : (∃ body, r = .tls body) ∨ raw.server.tls.acme.upstreams ≠ [] ∨
    raw.upstreamDNSServers ≠ []

theorem ConfigState.inStep_of_load {s : ConfigState δ} (hraw : yaml.unmarshal s.file = .ok raw)
    (hload : load hash yaml env s.file = .ok s.config) :
    s.InStep lib hash yaml r ↔ Current hash env raw r := by
  obtain ⟨raw', cf, hraw', hcf, hconfig⟩ := Config.load_ok hload
  rw [hraw] at hraw'
  cases hraw'
  have hfilled : cf = raw.conditionalForwarding ↔ raw.conditionalForwarding.Settled :=
    ConditionalForwardingConfig.validate_eq_self hcf
  have hmemory (upstreams : List GoString) :
      { s.config with upstreamDNSServers := upstreams } =
        memory hash env (orText raw.telemetry.serviceVersion (lit "dev"))
          raw.server.allowedClients upstreams raw.whitelist cf raw := by
    rw [hconfig]
    rfl
  have hupstreams : s.config.upstreamDNSServers = (applyDefaults hash raw).upstreamDNSServers := by
    rw [hconfig]
  have hversion : orText (orText raw.telemetry.serviceVersion (lit "dev")) (lit "dev") =
      orText raw.telemetry.serviceVersion (lit "dev") :=
    (Config.orText_eq_self (by decide)).mpr (Config.orText_ne_nil (by decide))
  have hown : (∃ body, r = .upstreams body) ∨
      r.upstreamsAfter lib s.config = (applyDefaults hash raw).upstreamDNSServers := by
    rw [← hupstreams]
    cases r with
    | upstreams body => exact Or.inl ⟨body, rfl⟩
    | _ => exact Or.inr rfl
  have hne : r.upstreamsAfter lib s.config ≠ [] :=
    UpdateRequest.upstreamsAfter_ne_nil (by rw [hupstreams]; exact applyDefaults_upstreams_ne_nil) r
  simp only [ConfigState.InStep, hraw, Except.ok.injEq, exists_eq_left', hmemory]
  rw [others_memory_iff hne, hfilled]
  constructor
  · rintro ⟨-, ⟨-, hresolvers⟩, hsame, hsettled, -⟩
    exact ⟨hsame, hsettled, hresolvers⟩
  · rintro ⟨hsame, hsettled, hresolvers⟩
    exact ⟨hversion, ⟨rfl, hresolvers⟩, hsame, hsettled, rfl, hown⟩

end

end GloryHole.Api
