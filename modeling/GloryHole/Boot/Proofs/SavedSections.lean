import GloryHole.Boot.Proofs.Startup
import GloryHole.Support.Runs

/-!
# Sections that a save of another one keeps

A request to change one section saves the whole configuration in memory, with everything
start-up has put into it.
-/

namespace GloryHole.Boot

open Go Api Support.Runs
open Config (Config Env Yaml ConditionalForwardingConfig applyDefaults
  defaultUpstreams orText load)

variable {δ : Type} {yaml : Yaml δ} {hash : GoString → Option GoString} {env : Env}

/-! ## The memory against the file -/

theorem forwardsConditionally_validate {raw : Config} {cf : ConditionalForwardingConfig}
    (h : raw.conditionalForwarding.validate = .ok cf) :
    (cf.enabled = true ∧ cf.rules ≠ []) ↔ ForwardsConditionally raw := by
  unfold ForwardsConditionally
  unfold ConditionalForwardingConfig.validate at h
  cases hon : raw.conditionalForwarding.enabled with
  | false =>
    rw [hon] at h
    cases pure_eq_ok.mp h
    simp [hon]
  | true =>
    simp only [hon, if_true, bind_eq_ok, pure_eq_ok] at h
    obtain ⟨rules, hrules, rfl⟩ := h
    rw [Config.validateRules_ok hrules]
    simp

def Surroundings.Saves (sur : Surroundings) (c : Config) : Prop :=
  MigratesWhitelist (sur.storage c) c ∨ MigratesForwarding (sur.storage c) c

/-- Whether the memory of a process that has started from a file with `raw` is in step with its
file, outside the fields of an endpoint. -/
structure Undisturbed (lib : Stdlib) (hash : GoString → Option GoString) (env : Env)
    (sur : Surroundings) (raw : Config) (r : UpdateRequest) : Prop where
  whitelist : raw.whitelist = [] ∨ sur.Saves raw
  forwarding : ForwardsConditionally raw → MigratesForwarding (sur.storage raw) raw
  allowedClients : clientsInUse (sur.storage raw) raw = raw.server.allowedClients
  upstreams : (∃ body, r = .upstreams body) ∨ usesUnbound sur.unboundStarts raw = false ∨
    (applyDefaults hash raw).upstreamDNSServers = [unboundAddr (applyDefaults hash raw)]
  version : sur.Saves raw ∨
    orText sur.version (lit "dev") = orText raw.telemetry.serviceVersion (lit "dev")
  auth : sur.Saves raw ∨ raw.auth.effective hash env = raw.auth.normalize hash
  resolvers : (∃ body, r = .tls body) ∨ raw.server.tls.acme.upstreams ≠ [] ∨
    raw.upstreamDNSServers ≠ [] ∨
    sur.Saves raw ∧ ∀ body, r = .upstreams body →
      parseUpstreamServers lib body = .ok defaultUpstreams

theorem others_conditionalForwarding (r : UpdateRequest) (c : Config) :
    (r.others c).conditionalForwarding = c.conditionalForwarding := by
  cases r <;> rfl

theorem upstreamsAfter_eq_iff {lib : Stdlib} {r : UpdateRequest} {c : Config}
    {upstreams : List GoString} {uses : Bool} {addr : GoString}
    (hc : c.upstreamDNSServers = if uses then [addr] else upstreams) :
    (∃ body, r = .upstreams body) ∨ r.upstreamsAfter lib c = upstreams ↔
      (∃ body, r = .upstreams body) ∨ uses = false ∨ upstreams = [addr] := by
  refine or_congr_right' fun hnot => ?_
  have hsame : r.upstreamsAfter lib c = c.upstreamDNSServers := by
    cases r with
    | upstreams body => exact absurd ⟨body, rfl⟩ hnot
    | _ => rfl
  rw [hsame, hc]
  cases uses with
  | false => simp
  | true => simp [eq_comm]

/-- A request for upstreams that succeeds leaves the default ones if it asks for them. -/
theorem upstreamsAfter_eq_default_iff {lib : Stdlib} {r : UpdateRequest} {c : Config}
    (hparses : ∀ body, r = .upstreams body → ∃ servers, parseUpstreamServers lib body = .ok servers)
    (hown : (∃ body, r = .upstreams body) ∨ r.upstreamsAfter lib c = defaultUpstreams) :
    r.upstreamsAfter lib c = defaultUpstreams ↔
      ∀ body, r = .upstreams body → parseUpstreamServers lib body = .ok defaultUpstreams := by
  rcases hown with ⟨body, rfl⟩ | hafter
  · obtain ⟨servers, hservers⟩ := hparses body rfl
    simp [UpdateRequest.upstreamsAfter, hservers, Except.toOption]
  · refine iff_of_true hafter fun body hbody => ?_
    obtain ⟨servers, hservers⟩ := hparses body hbody
    rw [hbody, UpdateRequest.upstreamsAfter, hservers] at hafter
    rw [hservers]
    exact congrArg Except.ok hafter

/-- An ACME section without resolvers inherits what the request leaves. -/
theorem resolvers_saved_iff {lib : Stdlib} {r : UpdateRequest} {raw c : Config}
    (hparses : ∀ body, r = .upstreams body → ∃ servers, parseUpstreamServers lib body = .ok servers)
    (hown : (∃ body, r = .upstreams body) ∨
      r.upstreamsAfter lib c = (applyDefaults hash raw).upstreamDNSServers) :
    ((∃ body, r = .tls body) ∨
        (raw.server.tls.acme.upstreams ≠ [] ∨ raw.upstreamDNSServers ≠ []) ∨
        r.upstreamsAfter lib c = (applyDefaults hash raw).upstreamDNSServers) ↔
      (∃ body, r = .tls body) ∨ raw.server.tls.acme.upstreams ≠ [] ∨ raw.upstreamDNSServers ≠ [] ∨
        ∀ body, r = .upstreams body → parseUpstreamServers lib body = .ok defaultUpstreams := by
  rw [or_assoc]
  refine or_congr_right (or_congr_right (or_congr_right' fun hsome => ?_))
  have hdefault : (applyDefaults hash raw).upstreamDNSServers = defaultUpstreams :=
    if_pos (not_not.mp hsome)
  rw [hdefault] at hown ⊢
  exact upstreamsAfter_eq_default_iff hparses hown

section

variable {lib : Stdlib} {sur : Surroundings} {file : δ} {raw : Config}
  {cf : ConditionalForwardingConfig} {p' : Process δ} {policy : Config.PolicyConfig}
  {r : UpdateRequest}

theorem loaded_forwards (hcf : raw.conditionalForwarding.validate = .ok cf) :
    ForwardsConditionally (loaded hash env sur file raw cf).config ↔ ForwardsConditionally raw :=
  forwardsConditionally_validate hcf

theorem loaded_migratesForwarding (hcf : raw.conditionalForwarding.validate = .ok cf) :
    MigratesForwarding (loaded hash env sur file raw cf).storage
        (loaded hash env sur file raw cf).config ↔
      MigratesForwarding (sur.storage raw) raw :=
  and_congr_left fun _ => loaded_forwards hcf

theorem clientsInUse_migrated
    (hm : Migrated yaml (loaded hash env sur file raw cf) p' policy) :
    clientsInUse p'.storage p'.config = clientsInUse (sur.storage raw) raw := by
  have hacl := hm.allowedClients
  unfold clientsInUse
  rw [hacl, hm.config]
  rfl

/-- Rules that a migration leaves in the file are not in the memory. -/
theorem not_inStep_of_left (hraw : yaml.unmarshal file = .ok raw)
    (hcf : raw.conditionalForwarding.validate = .ok cf)
    (hm : Migrated yaml (loaded hash env sur file raw cf) p' policy)
    (hforwards : ForwardsConditionally raw)
    (hnot : ¬ MigratesForwarding (sur.storage raw) raw) :
    ¬ (⟨injected sur.unboundStarts p'.storage p'.config, p'.file⟩ : ConfigState δ).InStep lib hash
      yaml r := by
  rintro ⟨c, hc, hothers⟩
  have hon : c.conditionalForwarding.enabled = true := by
    rcases hm.left ((loaded_forwards hcf).mpr hforwards)
        (fun h => hnot ((loaded_migratesForwarding hcf).mp h)) with hfile | ⟨c', hc', hsame⟩
    · rw [hfile] at hc
      change yaml.unmarshal file = .ok c at hc
      rw [hraw] at hc
      cases hc
      exact hforwards.1
    · change yaml.unmarshal p'.file = .ok c at hc
      rw [hc'] at hc
      cases hc
      rw [hsame]
      exact ((loaded_forwards hcf).mpr hforwards).1
  have hsection := congrArg Config.conditionalForwarding hothers
  rw [others_conditionalForwarding, others_conditionalForwarding] at hsection
  change p'.config.conditionalForwarding = c.conditionalForwarding at hsection
  rw [hm.config] at hsection
  simp only [drained, if_pos ((loaded_forwards hcf).mpr hforwards)] at hsection
  rw [← hsection] at hon
  cases hon

theorem validate_eq_of_not_forwards (hcf : raw.conditionalForwarding.validate = .ok cf)
    (h : ¬ ForwardsConditionally raw) : cf = raw.conditionalForwarding := by
  refine (ConditionalForwardingConfig.validate_eq_self hcf).mpr fun hon => ?_
  have hnil : raw.conditionalForwarding.rules = [] := by
    by_contra hrules
    exact h ⟨hon, hrules⟩
  rw [hnil]
  exact List.forall_mem_nil _

theorem injected_upstreams
    (hm : Migrated yaml (loaded hash env sur file raw cf) p' policy) :
    (injected sur.unboundStarts p'.storage p'.config).upstreamDNSServers =
      if usesUnbound sur.unboundStarts raw then [unboundAddr (applyDefaults hash raw)]
      else (applyDefaults hash raw).upstreamDNSServers := by
  rw [hm.config]
  rfl

theorem injected_upstreams_ne_nil
    (hm : Migrated yaml (loaded hash env sur file raw cf) p' policy) :
    (injected sur.unboundStarts p'.storage p'.config).upstreamDNSServers ≠ [] := by
  rw [injected_upstreams hm]
  split
  · exact List.cons_ne_nil _ _
  · exact applyDefaults_upstreams_ne_nil

/-- After a save the memory differs from the file by what `main` sets from then on. -/
theorem inStep_saved
    (hm : Migrated yaml (loaded hash env sur file raw cf) p' policy)
    (hfile : yaml.unmarshal p'.file = .ok p'.config) :
    (⟨injected sur.unboundStarts p'.storage p'.config, p'.file⟩ : ConfigState δ).InStep lib hash
        yaml r ↔
      (clientsInUse (sur.storage raw) raw = raw.server.allowedClients ∧
        ((∃ body, r = .tls body) ∨
          (raw.server.tls.acme.upstreams ≠ [] ∨ raw.upstreamDNSServers ≠ []) ∨
          r.upstreamsAfter lib (injected sur.unboundStarts p'.storage p'.config) =
            (applyDefaults hash raw).upstreamDNSServers)) ∧
      ((∃ body, r = .upstreams body) ∨
        r.upstreamsAfter lib (injected sur.unboundStarts p'.storage p'.config) =
          (applyDefaults hash raw).upstreamDNSServers) := by
  have hserver : p'.config.server = raw.server.applyDefaults raw.upstreamDNSServers := by
    rw [hm.config]
    rfl
  have hallowed : p'.config.server.allowedClients = raw.server.allowedClients := by
    rw [hserver]
    rfl
  have hresolvers : p'.config.server.tls.acme.upstreams ≠ [] ↔
      raw.server.tls.acme.upstreams ≠ [] ∨ raw.upstreamDNSServers ≠ [] := by
    rw [hserver, resolvers_ne_nil]
  have hupstreams : p'.config.upstreamDNSServers = (applyDefaults hash raw).upstreamDNSServers := by
    rw [hm.config]
    rfl
  have hothers := @others_set_iff hash (clientsInUse p'.storage p'.config)
    (r.upstreamsAfter lib (injected sur.unboundStarts p'.storage p'.config)) r p'.config
    (UpdateRequest.upstreamsAfter_ne_nil (injected_upstreams_ne_nil hm) r)
    (by rw [hupstreams]; exact applyDefaults_upstreams_ne_nil)
  simp only [ConfigState.InStep, hfile, Except.ok.injEq, exists_eq_left']
  refine Iff.trans hothers ?_
  rw [clientsInUse_migrated hm, hallowed, hresolvers, hupstreams]

/-- Without a save the file is as it was, and the memory also has the version of the program
and the overrides of the environment. -/
theorem inStep_unsaved (hraw : yaml.unmarshal file = .ok raw)
    (hcf : raw.conditionalForwarding.validate = .ok cf)
    (hm : Migrated yaml (loaded hash env sur file raw cf) p' policy)
    (hsaves : ¬ sur.Saves raw) (hforwards : ¬ ForwardsConditionally raw) :
    (⟨injected sur.unboundStarts p'.storage p'.config, p'.file⟩ : ConfigState δ).InStep lib hash
        yaml r ↔
      orText sur.version (lit "dev") = orText raw.telemetry.serviceVersion (lit "dev") ∧
      (clientsInUse (sur.storage raw) raw = raw.server.allowedClients ∧
        ((∃ body, r = .tls body) ∨ raw.server.tls.acme.upstreams ≠ [] ∨
          raw.upstreamDNSServers ≠ [])) ∧
      raw.auth.effective hash env = raw.auth.normalize hash ∧ raw.whitelist = [] ∧
      ((∃ body, r = .upstreams body) ∨
        r.upstreamsAfter lib (injected sur.unboundStarts p'.storage p'.config) =
          (applyDefaults hash raw).upstreamDNSServers) := by
  have hmigrates := (@loaded_migratesForwarding δ hash env sur file raw cf hcf).not.mpr
    fun h => hsaves (Or.inr h)
  obtain ⟨hfile, hpolicy⟩ := hm.kept (fun h => hsaves (Or.inl h)) hmigrates
  have hdrained : drained (loaded hash env sur file raw cf).config = cf :=
    if_neg ((loaded_forwards hcf).not.mpr hforwards)
  have hmemory (upstreams : List GoString) :
      { injected sur.unboundStarts p'.storage p'.config with upstreamDNSServers := upstreams } =
        memory hash env sur.version (clientsInUse (sur.storage raw) raw) upstreams [] cf raw := by
    rw [injected, clientsInUse_migrated hm, hm.config, hpolicy, hdrained]
    rfl
  simp only [ConfigState.InStep, hfile, hmemory]
  change (∃ c, yaml.unmarshal file = .ok c ∧ _) ↔ _
  simp only [hraw, Except.ok.injEq, exists_eq_left']
  rw [others_memory_iff (UpdateRequest.upstreamsAfter_ne_nil (injected_upstreams_ne_nil hm) r),
    iff_true_intro (validate_eq_of_not_forwards hcf hforwards), true_and,
    @eq_comm _ [] raw.whitelist]

/-- The memory of a process that has just started is in step with the file exactly if start-up
has put nothing into it that the file does not have. -/
theorem inStep_started_iff (hraw : yaml.unmarshal file = .ok raw)
    (hcf : raw.conditionalForwarding.validate = .ok cf)
    (hm : Migrated yaml (loaded hash env sur file raw cf) p' policy)
    (hparses : ∀ body, r = .upstreams body →
      ∃ servers, parseUpstreamServers lib body = .ok servers) :
    (⟨injected sur.unboundStarts p'.storage p'.config, p'.file⟩ : ConfigState δ).InStep lib hash
        yaml r ↔ Undisturbed lib hash env sur raw r := by
  have hown := @upstreamsAfter_eq_iff lib r _ _ _ _ (injected_upstreams hm)
  by_cases hleft : ForwardsConditionally raw → MigratesForwarding (sur.storage raw) raw
  · by_cases hsaves : sur.Saves raw
    · have hfile := hm.saved (fun h => (loaded_migratesForwarding hcf).mpr
        (hleft ((loaded_forwards hcf).mp h)))
        (hsaves.imp id (loaded_migratesForwarding hcf).mpr)
      rw [inStep_saved hm hfile]
      rw [and_congr_left fun hupstreams => and_congr_right fun _ =>
        resolvers_saved_iff hparses hupstreams, hown]
      constructor
      · rintro ⟨⟨hclients, hresolvers⟩, hupstreams⟩
        exact ⟨Or.inr hsaves, hleft, hclients, hupstreams, Or.inl hsaves, Or.inl hsaves,
          hresolvers.imp_right fun h => h.imp_right fun h => h.imp_right fun h => ⟨hsaves, h⟩⟩
      · rintro ⟨-, -, hclients, hupstreams, -, -, hresolvers⟩
        exact ⟨⟨hclients,
          hresolvers.imp_right fun h => h.imp_right fun h => h.imp_right And.right⟩, hupstreams⟩
    · have hforwards : ¬ ForwardsConditionally raw := fun h => hsaves (Or.inr (hleft h))
      rw [inStep_unsaved hraw hcf hm hsaves hforwards, hown]
      constructor
      · rintro ⟨hversion, ⟨hclients, hresolvers⟩, hauth, hwhitelist, hupstreams⟩
        exact ⟨Or.inl hwhitelist, hleft, hclients, hupstreams, Or.inr hversion, Or.inr hauth,
          hresolvers.imp_right fun h => h.imp_right Or.inl⟩
      · rintro ⟨hwhitelist, -, hclients, hupstreams, hversion, hauth, hresolvers⟩
        exact ⟨hversion.resolve_left hsaves, ⟨hclients, hresolvers.imp_right fun h =>
          h.imp_right fun h => h.resolve_right fun h => hsaves h.1⟩, hauth.resolve_left hsaves,
          hwhitelist.resolve_right hsaves, hupstreams⟩
  · have hforwards : ForwardsConditionally raw := by_contra fun h => hleft fun hf => absurd hf h
    exact iff_of_false (not_inStep_of_left hraw hcf hm hforwards fun h => hleft fun _ => h)
      fun h => hleft h.forwarding

theorem start_running {printable : Nat → Bool} {p : Process δ} (hyaml : yaml.Faithful)
    (h : start yaml printable hash env sur file = .ok p) : p.toConfigState.Running yaml := by
  obtain ⟨raw, cf, p', policy, hraw, hcf, hm, hp⟩ := start_ok hyaml h
  rw [hp]
  refine ⟨?_, injected_upstreams_ne_nil hm, ?_⟩
  · by_cases hleft : ForwardsConditionally (loaded hash env sur file raw cf).config →
        MigratesForwarding (loaded hash env sur file raw cf).storage
          (loaded hash env sur file raw cf).config
    · by_cases hsaves : MigratesWhitelist (loaded hash env sur file raw cf).storage
          (loaded hash env sur file raw cf).config ∨
            MigratesForwarding (loaded hash env sur file raw cf).storage
              (loaded hash env sur file raw cf).config
      · exact ⟨_, hm.saved hleft hsaves⟩
      · rw [not_or] at hsaves
        rw [(hm.kept hsaves.1 hsaves.2).1]
        exact ⟨raw, hraw⟩
    · rw [Classical.not_imp] at hleft
      rcases hm.left hleft.1 hleft.2 with hfile | ⟨c, hc, -⟩
      · rw [hfile]
        exact ⟨raw, hraw⟩
      · exact ⟨c, hc⟩
  · change p'.config.conditionalForwarding.validate = .ok p'.config.conditionalForwarding
    rw [hm.config]
    simp only [drained]
    split
    · rfl
    · exact ConditionalForwardingConfig.validate_validate hcf

end

/-! ## Runs -/

section

variable {lib : Stdlib} {sur : Surroundings} {printable : Nat → Bool} {file : δ}
  {raw : Config} {p : Process δ} {r : UpdateRequest}

/-- A state after some requests is the one after start-up, or its memory is its file loaded, or
its file does not load. -/
theorem exec_cases (s : ConfigState δ) (rs : List UpdateRequest) :
    exec (ConfigState.next lib hash yaml env) s rs = s ∨
      load hash yaml env (exec (ConfigState.next lib hash yaml env) s rs).file =
        .ok (exec (ConfigState.next lib hash yaml env) s rs).config ∨
      ∃ e, load hash yaml env (exec (ConfigState.next lib hash yaml env) s rs).file = .error e := by
  induction rs using List.reverseRecOn with
  | nil => exact Or.inl rfl
  | append_singleton rs r ih =>
    rw [exec_append, exec_cons, exec_nil]
    rcases @ConfigState.next_cases lib δ hash yaml env
      (exec (ConfigState.next lib hash yaml env) s rs) r with hsame | hother
    · rw [hsame]
      exact ih
    · exact Or.inr hother

/-- The memory is in step with the file outside the fields of an endpoint: after start-up,
after a load, or in spite of a file that does not load. -/
def InStepWith (lib : Stdlib) (hash : GoString → Option GoString) (yaml : Yaml δ) (env : Env)
    (sur : Surroundings) (raw : Config) (started s : ConfigState δ) (r : UpdateRequest) : Prop :=
  s = started ∧ Undisturbed lib hash env sur raw r ∨
    load hash yaml env s.file = .ok s.config ∧
      (∃ current, yaml.unmarshal s.file = .ok current ∧ Current hash env current r) ∨
    (∃ e, load hash yaml env s.file = .error e) ∧ s.InStep lib hash yaml r

theorem parses_of_update {s s' : ConfigState δ} {updated : Config}
    (hok : s.update lib hash yaml env r = (s', .ok updated)) (body : Body UpstreamsRequest)
    (hr : r = .upstreams body) : ∃ servers, parseUpstreamServers lib body = .ok servers := by
  obtain ⟨hupdated, -⟩ := ConfigState.update_ok hok
  subst hr
  obtain ⟨servers, hparse, -⟩ := updateUpstreams_ok hupdated
  exact ⟨servers, hparse⟩

/-- Whatever file the process starts from, whatever it finds and whatever requests it has
served: a request that succeeds keeps the other sections of the file exactly if the memory is
in step with the file there. -/
theorem update_keeps_others_iff (lib : Stdlib) (hash : GoString → Option GoString) (yaml : Yaml δ)
    (env : Env) (printable : Nat → Bool) (sur : Surroundings) (file : δ) (raw : Config)
    (p : Process δ) (rs : List UpdateRequest) (r : UpdateRequest) (s' : ConfigState δ)
    (updated : Config) (hyaml : yaml.Faithful) (hraw : yaml.unmarshal file = .ok raw)
    (hstart : start yaml printable hash env sur file = .ok p)
    (hok : (exec (ConfigState.next lib hash yaml env) p.toConfigState rs).update lib hash yaml env
      r = (s', .ok updated)) :
    r.SameOthers hash yaml
        (exec (ConfigState.next lib hash yaml env) p.toConfigState rs).file s'.file ↔
      InStepWith lib hash yaml env sur raw p.toConfigState
        (exec (ConfigState.next lib hash yaml env) p.toConfigState rs) r := by
  have hrunning : (exec (ConfigState.next lib hash yaml env) p.toConfigState rs).Running yaml :=
    @invariant_exec _ _ _ (fun _ _ => True) _ (fun s r _ h => h.next hyaml r) _ _
      (allSteps_of_forall (fun _ _ => trivial) _ _) (start_running hyaml hstart)
  have hcases := @exec_cases δ yaml hash env lib p.toConfigState rs
  generalize exec (ConfigState.next lib hash yaml env) p.toConfigState rs = s at *
  have hstarted : s = p.toConfigState →
      (s.InStep lib hash yaml r ↔ Undisturbed lib hash env sur raw r) := by
    rintro rfl
    obtain ⟨raw', cf, p', policy, hraw', hcf, hm, hp⟩ := start_ok hyaml hstart
    rw [hraw] at hraw'
    cases hraw'
    rw [hp]
    exact inStep_started_iff hraw hcf hm (parses_of_update hok)
  rw [hrunning.sameOthers_update hyaml hok]
  constructor
  · intro hstep
    rcases hcases with hs | hload | hfails
    · exact Or.inl ⟨hs, (hstarted hs).mp hstep⟩
    · obtain ⟨current, hcurrent⟩ := hrunning.parses
      exact Or.inr (Or.inl ⟨hload, current, hcurrent,
        (ConfigState.inStep_of_load hcurrent hload).mp hstep⟩)
    · exact Or.inr (Or.inr ⟨hfails, hstep⟩)
  · rintro (⟨hs, hundisturbed⟩ | ⟨hload, current, hcurrent, hkept⟩ | ⟨-, hstep⟩)
    · exact (hstarted hs).mpr hundisturbed
    · exact (ConfigState.inStep_of_load hcurrent hload).mpr hkept
    · exact hstep

end

theorem update_keeps_others_blockPage :
    (blockPageOff.SameOthers (fun _ => none) Config.plainYaml Config.settledConfig
        { Config.settledConfig with blockPage := ⟨false, []⟩ }) ↔
      InStepWith plainStdlib (fun _ => none) Config.plainYaml {} bare Config.settledConfig
        ⟨Config.settledConfig, Config.settledConfig⟩
        ⟨Config.settledConfig, Config.settledConfig⟩ blockPageOff :=
  update_keeps_others_iff plainStdlib (fun _ => none) Config.plainYaml {} (fun _ => true) bare
    Config.settledConfig Config.settledConfig ⟨⟨Config.settledConfig, Config.settledConfig⟩, none⟩
    [] blockPageOff _ _ (fun c => ⟨c, rfl, rfl⟩) rfl rfl rfl

def unboundFile : Config :=
  { Config.settledConfig with
    unbound := { Config.settledConfig.unbound with enabled := true, managed := true }
    database := { Config.settledConfig.database with enabled := true } }

def aclAndUnbound : Surroundings where
  version := lit "1.2.3"
  store := some ⟨⟨Storage.PolicyTable.empty, false, false⟩, .entries [lit "10.0.0.0/8"]⟩
  unboundStarts := true

/-- A request to turn the block page off replaces the upstreams, the clients and the version of
the file. -/
theorem update_replaces_others :
    ∃ p, start Config.plainYaml (fun _ => true) (fun _ => none) {} aclAndUnbound unboundFile =
        .ok p ∧
      let (s', response) := p.toConfigState.update plainStdlib (fun _ => none) Config.plainYaml {}
        blockPageOff
      response.toBool = true ∧
        unboundFile.upstreamDNSServers = [lit "1.1.1.1:53", lit "8.8.8.8:53"] ∧
        s'.file.upstreamDNSServers = [lit "127.0.0.1:5353"] ∧
        unboundFile.server.allowedClients = [] ∧
        s'.file.server.allowedClients = [lit "10.0.0.0/8"] ∧
        unboundFile.telemetry.serviceVersion = lit "dev" ∧
        s'.file.telemetry.serviceVersion = lit "1.2.3" ∧
        ¬ blockPageOff.SameOthers (fun _ => none) Config.plainYaml unboundFile s'.file := by
  refine ⟨_, rfl, by decide +kernel, by decide +kernel, by decide +kernel, by decide +kernel,
    by decide +kernel, by decide +kernel, by decide +kernel, ?_⟩
  rintro ⟨c, c', ⟨⟩, ⟨⟩, hothers⟩
  have hclients := congrArg (·.server.allowedClients) hothers
  revert hclients
  decide +kernel

end GloryHole.Boot
