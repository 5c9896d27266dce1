import GloryHole.Api.ConfigUpdate
import GloryHole.Config.Proofs.Loadable

/-!
# What each endpoint saves

One lemma for each endpoint: the configuration it saves is the current one, or its clone, with
the fields of the endpoint set and nothing else.
-/

namespace GloryHole.Api

open Go
open Config (Config Yaml clone validate ServerConfig LoggingConfig AuthConfig
  ConditionalForwardingConfig applyDefaults)

variable {lib : Stdlib} {δ : Type} {hash : GoString → Option GoString} {yaml : Yaml δ}

/-! ## Clones -/

variable {c u : Config}

/-- A clone is the configuration with its defaults. -/
theorem eq_of_clone {c' : Config} (hyaml : yaml.Faithful) (h : clone hash yaml c = .ok c') :
    c' = applyDefaults hash c := by
  obtain ⟨data, hmarshal, hunmarshal⟩ := hyaml c
  simp only [clone, bind_eq_ok, wrap_eq_ok, pure_eq_ok, hmarshal, hunmarshal, Except.ok.injEq,
    exists_eq_left'] at h
  have hauth : (applyDefaults hash c).auth.normalize hash = (applyDefaults hash c).auth :=
    AuthConfig.normalize_eq_self.mpr (AuthConfig.normalize_settled c.auth)
  rw [← h, hauth]

/-! ## Requests -/

/-- The server section a request for DNS over TLS asks for: what it gives, and otherwise what
is there. -/
def TLSRequest.settings (req : TLSRequest) (current : ServerConfig) : ServerConfig :=
  { current with
    dotEnabled := req.dotEnabled.getD current.dotEnabled
    dotAddress := if trimSpace req.dotAddress = [] then current.dotAddress else req.dotAddress
    tls :=
      { certFile := if trimSpace req.certFile = [] then current.tls.certFile else req.certFile
        keyFile := if trimSpace req.keyFile = [] then current.tls.keyFile else req.keyFile
        autocert := req.autocert.getD current.tls.autocert
        acme := req.acme.getD current.tls.acme } }

def Body.settings (lib : Stdlib) (current : ServerConfig) : Body TLSRequest → Option ServerConfig
  | .json (.ok req) => some (req.settings current)
  | .form (.ok f) => some ((TLSRequest.ofForm lib current f).settings current)
  | _ => none

theorem badRequest_eq_ok {α : Type} {x : Except GoString α} {a : α} :
    badRequest x = .ok a ↔ x = .ok a := by
  cases x <;> simp [badRequest]

theorem updateUpstreams_ok {body : Body UpstreamsRequest} (h : updateUpstreams lib body c = .ok u) :
    ∃ servers, parseUpstreamServers lib body = .ok servers ∧
      u = { c with upstreamDNSServers := servers } := by
  simp only [updateUpstreams, bind_eq_ok, pure_eq_ok, badRequest_eq_ok] at h
  obtain ⟨servers, hparse, rfl⟩ := h
  exact ⟨servers, hparse, rfl⟩

/-- A logging section that the handler accepts passes the checks of a load. -/
theorem parseLoggingPayload_valid {body : Body LoggingRequest} {current l : LoggingConfig}
    (h : parseLoggingPayload lib body current = .ok l) : l.validate = .ok () := by
  simp only [parseLoggingPayload, bind_eq_ok, refuse_eq_ok, pure_eq_ok, exists_const,
    not_not] at h
  obtain ⟨req, -, maxSize, -, -, maxBackups, -, maxAge, -, -, hlevel, -, hformat, -, houtput, hfile,
    -, -, rfl⟩ := h
  simp only [LoggingConfig.validate, bind_eq_ok, refuse_eq_ok, exists_const, not_not]
  exact ⟨hlevel, hformat, houtput, hfile⟩

theorem updateLogging_ok {body : Body LoggingRequest} (h : updateLogging lib body c = .ok u) :
    ∃ logging, logging.validate = .ok () ∧ u = { c with logging := logging } := by
  simp only [updateLogging, bind_eq_ok, badRequest_eq_ok] at h
  obtain ⟨logging, hparse, h⟩ := h
  refine ⟨logging, parseLoggingPayload_valid hparse, ?_⟩
  split at h
  · simp only [bind_eq_ok, pure_eq_ok] at h
    obtain ⟨-, -, rfl⟩ := h
    rfl
  · exact (pure_eq_ok.mp h).symm

theorem pathOrCurrent_ok {path current message result : GoString}
    (h : pathOrCurrent lib path current message = .ok result) :
    result = if trimSpace path = [] then current else path := by
  unfold pathOrCurrent at h
  by_cases hblank : trimSpace path = []
  · rw [if_pos hblank]
    rw [if_neg (not_not.mpr hblank)] at h
    exact (pure_eq_ok.mp h).symm
  · rw [if_neg hblank]
    simp only [if_pos (show trimSpace path ≠ [] from hblank), bind_eq_ok, pure_eq_ok] at h
    obtain ⟨-, -, rfl⟩ := h
    rfl

theorem updateTLS_ok {body : Body TLSRequest} (h : updateTLS lib body c = .ok u) :
    ∃ server, body.settings lib c.server = some server ∧ u = { c with server := server } := by
  simp only [updateTLS, parseTLSPayload, bind_eq_ok, pure_eq_ok, badRequest_eq_ok] at h
  obtain ⟨payload, ⟨req, hreq, cert, hcert, key, hkey, rfl⟩, rfl⟩ := h
  refine ⟨req.settings c.server, ?_, ?_⟩
  · cases body with
    | json decoded =>
      cases decoded with
      | error e => cases hreq
      | ok req' =>
        cases hreq
        rfl
    | form parsed =>
      cases parsed with
      | error e => cases hreq
      | ok f =>
        cases hreq
        rfl
  · rw [pathOrCurrent_ok hcert, pathOrCurrent_ok hkey]
    simp only [TLSRequest.settings, ne_eq, ite_not]

theorem updateFeatures_ok {body : Option FeaturesRequest} (hyaml : yaml.Faithful)
    (h : updateFeatures hash yaml body c = .ok u) :
    ∃ req, body = some req ∧ u = req.apply (applyDefaults hash c) := by
  unfold updateFeatures at h
  cases body with
  | none => cases h
  | some req =>
    cases hclone : clone hash yaml c with
    | error e =>
      simp only [hclone] at h
      cases h
    | ok c' =>
      simp only [hclone] at h
      split at h
      · cases h
      · cases h
        rw [eq_of_clone hyaml hclone]
        exact ⟨req, rfl, rfl⟩

theorem mutateLocalRecords_ok {mutator : Config → Except GoString Config} (hyaml : yaml.Faithful)
    (hmutator : ∀ c c', mutator c = .ok c' → ∃ records, c' = { c with localRecords := records })
    (h : mutateLocalRecords hash yaml mutator c = .ok u) :
    ∃ records cf, c.conditionalForwarding.validate = .ok cf ∧
      u = { applyDefaults hash c with localRecords := records, conditionalForwarding := cf } := by
  simp only [mutateLocalRecords, bind_eq_ok, wrap_eq_ok] at h
  obtain ⟨c₁, hclone, c₂, hmutated, hvalid⟩ := h
  obtain rfl := eq_of_clone hyaml hclone
  obtain ⟨records, rfl⟩ := hmutator _ _ hmutated
  simp only [validate, bind_eq_ok, wrap_eq_ok, pure_eq_ok] at hvalid
  obtain ⟨-, -, -, -, -, -, auth, hauth, cf, hcf, rfl⟩ := hvalid
  refine ⟨records, cf, hcf, ?_⟩
  rw [AuthConfig.validate_ok hauth (AuthConfig.normalize_settled c.auth)]

theorem updateAddLocalRecord_ok {body : Option LocalRecordAddRequest} (hyaml : yaml.Faithful)
    (h : updateAddLocalRecord lib hash yaml body c = .ok u) :
    ∃ records cf, c.conditionalForwarding.validate = .ok cf ∧
      u = { applyDefaults hash c with localRecords := records, conditionalForwarding := cf } := by
  unfold updateAddLocalRecord at h
  cases body with
  | none => cases h
  | some req =>
    simp only [bind_eq_ok] at h
    obtain ⟨entry, -, h⟩ := h
    split at h
    · cases h
    · rename_i hmutate
      cases h
      refine mutateLocalRecords_ok hyaml ?_ hmutate
      rintro c c' ⟨⟩
      exact ⟨_, rfl⟩

theorem updateRemoveLocalRecord_ok {id : GoString} (hyaml : yaml.Faithful)
    (h : updateRemoveLocalRecord hash yaml id c = .ok u) :
    ∃ records cf, c.conditionalForwarding.validate = .ok cf ∧
      u = { applyDefaults hash c with localRecords := records, conditionalForwarding := cf } := by
  unfold updateRemoveLocalRecord at h
  split at h
  · cases h
  · split at h
    · split at h
      · split at h
        · cases h
        · cases h
      · rename_i domain type _ _ _ hmutate
        cases h
        refine mutateLocalRecords_ok hyaml ?_ hmutate
        intro c c' hremove
        simp only [removeRecord] at hremove
        split at hremove
        · cases hremove
        · cases hremove
          exact ⟨_, rfl⟩
    · cases h

/-- What a request that succeeds makes of the configuration. -/
inductive Saves (lib : Stdlib) (hash : GoString → Option GoString) (c : Config) :
    UpdateRequest → Config → Prop
  | upstreams {body servers} (h : parseUpstreamServers lib body = .ok servers) :
    Saves lib hash c (.upstreams body) { c with upstreamDNSServers := servers }
  | cache (body cache) : Saves lib hash c (.cache body) { c with cache := cache }
  | logging (body) {logging : LoggingConfig} (h : logging.validate = .ok ()) :
    Saves lib hash c (.logging body) { c with logging := logging }
  | tls {body server} (h : body.settings lib c.server = some server) :
    Saves lib hash c (.tls body) { c with server := server }
  | blockPage (body page) : Saves lib hash c (.blockPage body) { c with blockPage := page }
  | blocklists (body sources) : Saves lib hash c (.blocklists body) { c with blocklists := sources }
  | features (req) : Saves lib hash c (.features (some req)) (req.apply (applyDefaults hash c))
  | addLocalRecord (body records) {cf} (h : c.conditionalForwarding.validate = .ok cf) :
    Saves lib hash c (.addLocalRecord body)
      { applyDefaults hash c with localRecords := records, conditionalForwarding := cf }
  | removeLocalRecord (id records) {cf} (h : c.conditionalForwarding.validate = .ok cf) :
    Saves lib hash c (.removeLocalRecord id)
      { applyDefaults hash c with localRecords := records, conditionalForwarding := cf }

theorem UpdateRequest.saves {r : UpdateRequest} (hyaml : yaml.Faithful)
    (h : r.updated lib hash yaml c = .ok u) : Saves lib hash c r u := by
  cases r with
  | upstreams body =>
    obtain ⟨servers, hparse, rfl⟩ := updateUpstreams_ok h
    exact .upstreams hparse
  | cache body =>
    simp only [updated, updateCache, bind_eq_ok, pure_eq_ok] at h
    obtain ⟨cache, -, rfl⟩ := h
    exact .cache body cache
  | logging body =>
    obtain ⟨logging, hvalid, rfl⟩ := updateLogging_ok h
    exact .logging body hvalid
  | tls body =>
    obtain ⟨server, hsettings, rfl⟩ := updateTLS_ok h
    exact .tls hsettings
  | blockPage body =>
    simp only [updated, updateBlockPage, bind_eq_ok, pure_eq_ok] at h
    obtain ⟨req, -, -, -, rfl⟩ := h
    exact .blockPage body _
  | blocklists body =>
    simp only [updated, updateBlocklistSources, bind_eq_ok, pure_eq_ok] at h
    obtain ⟨-, -, sources, -, rfl⟩ := h
    exact .blocklists body sources
  | features body =>
    obtain ⟨req, rfl, rfl⟩ := updateFeatures_ok hyaml h
    exact .features req
  | addLocalRecord body =>
    obtain ⟨records, cf, hcf, rfl⟩ := updateAddLocalRecord_ok hyaml h
    exact .addLocalRecord body records hcf
  | removeLocalRecord id =>
    obtain ⟨records, cf, hcf, rfl⟩ := updateRemoveLocalRecord_ok hyaml h
    exact .removeLocalRecord id records hcf

/-- No endpoint changes the authentication section, except for a password that is hashed in a
clone. -/
theorem Saves.auth {r : UpdateRequest} (h : Saves lib hash c r u) :
    u.auth = c.auth ∨ u.auth = c.auth.normalize hash := by
  cases h with
  | features | addLocalRecord | removeLocalRecord => exact Or.inr rfl
  | _ => exact Or.inl rfl

/-! ## Requests that succeed anywhere -/

def plainStdlib : Stdlib where
  lower := id
  upper := id
  quote := id
  parseDuration _ := none
  clean := id
  scheme _ := none
  addrError := id

def blockPageOff : UpdateRequest := .blockPage (.ok ⟨false, []⟩)

end GloryHole.Api
