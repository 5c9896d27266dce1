import GloryHole.Api.Proofs.Endpoints

/-!
# Saved configurations that load

What an endpoint saves is loadable if the current configuration is, except after a request
for DNS over TLS: its handler checks the paths and nothing else, while a load checks the
settings as a whole.
-/

namespace GloryHole.Api

open Go
open Config (Config Env Yaml load clone save validate Loadable loadable_iff
  ServerConfig LoggingConfig AuthConfig ConditionalForwardingConfig applyDefaults)

variable {lib : Stdlib} {δ : Type} {hash : GoString → Option GoString} {yaml : Yaml δ} {env : Env}

theorem loadable_applyDefaults {c : Config} :
    Loadable hash env (applyDefaults hash c) ↔ Loadable hash env c := by
  rw [loadable_iff, loadable_iff]
  change (c.server.applyDefaults c.upstreamDNSServers).DotComplete ∧
    c.logging.applyDefaults.applyDefaults.validate = .ok () ∧
    ((c.auth.normalize hash).effective hash env).Usable ∧ _ ↔ _
  rw [ServerConfig.dotComplete_applyDefaults, LoggingConfig.applyDefaults_applyDefaults,
    AuthConfig.effective_normalize]
  rfl

/-! ## What is saved can be loaded -/

def UpdateRequest.Complete (lib : Stdlib) (c : Config) : UpdateRequest → Prop
  | .tls body => ∀ server, body.settings lib c.server = some server → server.DotComplete
  | _ => True

theorem loadable_updated_iff {r : UpdateRequest} {c u : Config} (hyaml : yaml.Faithful)
    (hvalid : Loadable hash env c) (h : r.updated lib hash yaml c = .ok u) :
    Loadable hash env u ↔ r.Complete lib c := by
  obtain ⟨hserver, hlogging, hauth, hcf⟩ := loadable_iff.mp hvalid
  have hrecords {records} {cf : ConditionalForwardingConfig}
      (hcf : c.conditionalForwarding.validate = .ok cf) : Loadable hash env
        { applyDefaults hash c with localRecords := records, conditionalForwarding := cf } := by
    obtain ⟨hserver', hlogging', hauth', -⟩ :=
      loadable_iff.mp (loadable_applyDefaults.mpr hvalid)
    exact loadable_iff.mpr ⟨hserver', hlogging', hauth', cf,
      ConditionalForwardingConfig.validate_validate hcf⟩
  cases r.saves hyaml h with
  | upstreams | cache | blockPage | blocklists =>
    exact iff_of_true (loadable_iff.mpr ⟨hserver, hlogging, hauth, hcf⟩) trivial
  | logging body hnew =>
    have hlogging := LoggingConfig.validate_applyDefaults hnew
    exact iff_of_true (loadable_iff.mpr ⟨hserver, hlogging, hauth, hcf⟩) trivial
  | @tls body server hsettings =>
    rw [loadable_iff]
    constructor
    · rintro ⟨hcomplete, -⟩ server' hserver'
      rw [hsettings] at hserver'
      cases hserver'
      exact hcomplete
    · intro hcomplete
      exact ⟨hcomplete server hsettings, hlogging, hauth, hcf⟩
  | features req =>
    obtain ⟨hserver', hlogging', hauth', hcf'⟩ :=
      loadable_iff.mp (loadable_applyDefaults.mpr hvalid)
    refine iff_of_true (loadable_iff.mpr ⟨?_, hlogging', hauth', hcf'⟩) trivial
    exact ⟨hserver'.address, hserver'.keyPair, hserver'.autocert, hserver'.source, hserver'.acme⟩
  | addLocalRecord _ records hcf | removeLocalRecord _ records hcf =>
    exact iff_of_true (hrecords hcf) trivial

/-- Whatever is configured and requested: if the current configuration loads and the request
succeeds, the file it leaves loads exactly if the request, where it is one for DNS over TLS,
asks for settings that are complete. -/
theorem update_loads_iff (lib : Stdlib) (hash : GoString → Option GoString) (yaml : Yaml δ)
    (env : Env) (s s' : ConfigState δ) (r : UpdateRequest) (updated : Config)
    (hyaml : yaml.Faithful) (hvalid : Loadable hash env s.config)
    (hok : s.update lib hash yaml env r = (s', .ok updated)) :
    (∃ cfg, load hash yaml env s'.file = .ok cfg) ↔ r.Complete lib s.config := by
  obtain ⟨hupdated, file, hsave, rfl⟩ := ConfigState.update_ok hok
  rw [ConfigState.reload_file, Config.exists_load_iff hyaml hsave]
  exact loadable_updated_iff hyaml hvalid hupdated

def defaultState : ConfigState Config := ⟨Config.settledConfig, Config.settledConfig⟩

theorem update_loads_iff_blockPage :
    (∃ cfg, load (fun _ => none) Config.plainYaml {}
        (defaultState.update plainStdlib (fun _ => none) Config.plainYaml {} blockPageOff).1.file =
          .ok cfg) ↔ blockPageOff.Complete plainStdlib defaultState.config :=
  update_loads_iff plainStdlib (fun _ => none) Config.plainYaml {} defaultState _ blockPageOff
    { Config.settledConfig with blockPage := ⟨false, []⟩ } (fun c => ⟨c, rfl, rfl⟩)
    ⟨Config.settledConfig, rfl⟩ rfl

def dotOn : UpdateRequest := .tls (.json (.ok { dotEnabled := some true }))

/-- It succeeds, and the file does not load. -/
theorem update_leaves_unloadable :
    let (s', response) := defaultState.update plainStdlib (fun _ => none) Config.plainYaml {} dotOn
    response.toBool = true ∧
      load (fun _ => none) Config.plainYaml {} s'.file = .error
        (lit "config validation failed: " ++
          lit "DoT requires TLS: provide cert/key, autocert, or acme.dns_provider") := by
  decide +kernel

end GloryHole.Api
