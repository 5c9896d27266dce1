import GloryHole.Boot.Proofs.Startup
import GloryHole.Config.Proofs.SameOverrides

/-!
# What the environment leaves in the file

Two runs of the server that differ in the three variables of the environment, on one file and
under one list of requests.
-/

namespace GloryHole.Boot

open Go Api
open Config (Config Env Yaml AuthConfig Bcrypt SameOverrides Loadable applyDefaults
  load save loadable_iff)

variable {δ σ : Type} {lib : Stdlib} {yaml : Yaml δ} {printable : Nat → Bool}
  {hash : σ → GoString → Option GoString} {env env₁ env₂ : Env} {sur : Surroundings} {file : δ}

/-! ## Environments that override alike -/

theorem load_congr {raw : Config} {salt : σ} (hraw : yaml.unmarshal file = .ok raw)
    (h : SameOverrides (hash salt) env₁ env₂ raw.auth) :
    load (hash salt) yaml env₁ file = load (hash salt) yaml env₂ file := by
  have heffective := h.effective_eq
  unfold AuthConfig.effective at heffective
  simp only [load, hraw, wrap, bind, Except.bind]
  simp only [Config.applyEnvOverrides, applyDefaults]
  rw [heffective]

def Alike (hash : σ → GoString → Option GoString) (env₁ env₂ : Env) (s : ConfigState δ) : Prop :=
  ∀ salt, SameOverrides (hash salt) env₁ env₂ s.config.auth

theorem Alike.reload (hbcrypt : Bcrypt hash) {s : ConfigState δ} {saved : Config} (salt : σ)
    (h : Alike hash env₁ env₂ s) (hfile : yaml.unmarshal file = .ok saved)
    (hsaved : SameOverrides (hash salt) env₁ env₂ saved.auth) :
    ConfigState.reload (hash salt) yaml env₁ { s with file := file } =
        ConfigState.reload (hash salt) yaml env₂ { s with file := file } ∧
      Alike hash env₁ env₂ (ConfigState.reload (hash salt) yaml env₁ { s with file := file }) := by
  have hload := load_congr hfile hsaved
  simp only [ConfigState.reload, ← hload, true_and]
  cases hresult : load (hash salt) yaml env₁ file with
  | error e => exact h
  | ok c =>
    intro salt'
    simp only
    rw [Config.load_auth hfile hresult]
    exact hsaved.effective.resalt hbcrypt salt'

/-- A request under environments that override alike does the same, and leaves them so. -/
theorem Alike.update (hyaml : yaml.Faithful) (hbcrypt : Bcrypt hash) {s : ConfigState δ}
    (h : Alike hash env₁ env₂ s) (salt : σ) (r : UpdateRequest) :
    s.update lib (hash salt) yaml env₁ r = s.update lib (hash salt) yaml env₂ r ∧
      Alike hash env₁ env₂ (s.update lib (hash salt) yaml env₁ r).1 := by
  unfold ConfigState.update
  cases hupdated : r.updated lib (hash salt) yaml s.config with
  | error e => exact ⟨rfl, h⟩
  | ok updated =>
    simp only
    cases hsave : save yaml updated with
    | error e => exact ⟨rfl, h⟩
    | ok file =>
      have hauth : SameOverrides (hash salt) env₁ env₂ updated.auth := by
        rcases (UpdateRequest.saves hyaml hupdated).auth with hsame | hnormal
        · rw [hsame]
          exact h salt
        · rw [hnormal]
          exact (h salt).normalize
      obtain ⟨hreload, halike⟩ := h.reload hbcrypt salt (unmarshal_save hyaml hsave) hauth
      exact ⟨congrArg (·, Except.ok updated) hreload, halike⟩

theorem Alike.requestSaves_eq (hyaml : yaml.Faithful) (hbcrypt : Bcrypt hash)
    {s : ConfigState δ} (h : Alike hash env₁ env₂ s) (rs : List (σ × UpdateRequest)) :
    requestSaves lib yaml hash env₁ s rs = requestSaves lib yaml hash env₂ s rs := by
  induction rs generalizing s with
  | nil => rfl
  | cons head rs ih =>
    obtain ⟨salt, r⟩ := head
    obtain ⟨hupdate, halike⟩ := @Alike.update _ _ lib _ _ _ _ hyaml hbcrypt _ h salt r
    simp only [requestSaves, ← hupdate]
    generalize s.update lib (hash salt) yaml env₁ r = result at halike
    obtain ⟨s', e | updated⟩ := result
    · exact ih halike
    · exact congrArg (s'.file :: ·) (ih halike)

theorem launch_congr {raw : Config} {salt : σ} (hraw : yaml.unmarshal file = .ok raw)
    (h : SameOverrides (hash salt) env₁ env₂ raw.auth) :
    launch yaml (hash salt) env₁ sur file = launch yaml (hash salt) env₂ sur file := by
  unfold launch
  rw [load_congr hraw h]

theorem written_congr {raw : Config} {salt : σ} (hyaml : yaml.Faithful) (hbcrypt : Bcrypt hash)
    (hraw : yaml.unmarshal file = .ok raw) (h : SameOverrides (hash salt) env₁ env₂ raw.auth)
    (rs : List (σ × UpdateRequest)) :
    written lib yaml printable hash env₁ sur file salt rs =
      written lib yaml printable hash env₂ sur file salt rs := by
  unfold written
  rw [← launch_congr hraw h]
  cases hlaunch : launch yaml (hash salt) env₁ sur file with
  | error e => rfl
  | ok p =>
    obtain ⟨raw', cf, hraw', -, rfl, -⟩ := launch_ok hlaunch
    rw [hraw] at hraw'
    cases hraw'
    have halike : Alike hash env₁ env₂ ((loaded (hash salt) env₁ sur file raw cf).prepare yaml
        printable sur.unboundStarts).toConfigState := by
      intro salt'
      rw [Process.prepare_auth printable sur.unboundStarts hyaml]
      exact h.effective.resalt hbcrypt salt'
    simp only [halike.requestSaves_eq hyaml hbcrypt rs]

/-! ## What a save shows -/

def noBlocklists : UpdateRequest := .blocklists (.ok [])

theorem noBlocklists_update (hyaml : yaml.Faithful) (salt : σ) (s : ConfigState δ) :
    ∃ doc, yaml.unmarshal doc = .ok { s.config with blocklists := [] } ∧
      s.update lib (hash salt) yaml env noBlocklists =
        (ConfigState.reload (hash salt) yaml env { s with file := doc },
          .ok { s.config with blocklists := [] }) := by
  obtain ⟨doc, hmarshal, hunmarshal⟩ := hyaml { s.config with blocklists := [] }
  refine ⟨doc, hunmarshal, ?_⟩
  have hupdated : noBlocklists.updated lib (hash salt) yaml s.config =
      .ok { s.config with blocklists := [] } := rfl
  have hsave : save yaml { s.config with blocklists := [] } = .ok doc := by
    rw [save, hmarshal]
    rfl
  simp only [ConfigState.update, hupdated, hsave]

/-- Two such requests save what the load of start-up made of the authentication section, and
what the next load makes of that. -/
theorem requestSaves_noBlocklists (hyaml : yaml.Faithful) (salt : σ) (s : ConfigState δ)
    (hloadable : Loadable (hash salt) env s.config) :
    ∃ doc doc' c c', yaml.unmarshal doc = .ok c ∧ yaml.unmarshal doc' = .ok c' ∧
      c.auth = s.config.auth ∧ c'.auth = s.config.auth.effective (hash salt) env ∧
      requestSaves lib yaml hash env s [(salt, noBlocklists)] = [doc] ∧
      requestSaves lib yaml hash env s [(salt, noBlocklists), (salt, noBlocklists)] =
        [doc, doc'] := by
  obtain ⟨doc, hdoc, hupdate⟩ := @noBlocklists_update _ _ lib _ hash env hyaml salt s
  have hloads : Loadable (hash salt) env { s.config with blocklists := [] } := by
    obtain ⟨hserver, hlogging, hauth, hcf⟩ := loadable_iff.mp hloadable
    exact loadable_iff.mpr ⟨hserver, hlogging, hauth, hcf⟩
  obtain ⟨cfg, hload⟩ : ∃ cfg, load (hash salt) yaml env doc = .ok cfg := by
    obtain ⟨cfg, hvalid⟩ := hloads
    exact ⟨cfg, Config.load_eq_ok_iff.mpr ⟨_, hdoc, hvalid⟩⟩
  have hreload : ConfigState.reload (hash salt) yaml env { s with file := doc } = ⟨cfg, doc⟩ := by
    simp only [ConfigState.reload, hload]
  rw [hreload] at hupdate
  obtain ⟨doc', hdoc', hupdate'⟩ := @noBlocklists_update _ _ lib _ hash env hyaml salt ⟨cfg, doc⟩
  have hauth := Config.load_auth hdoc hload
  refine ⟨doc, doc', _, _, hdoc, hdoc', rfl, hauth, ?_, ?_⟩
  · simp only [requestSaves, hupdate]
  · simp only [requestSaves, hupdate, hupdate', ConfigState.reload_file]

/-- The two documents of such a run. -/
theorem written_noBlocklists {salt : σ} {p : Process δ} (hyaml : yaml.Faithful)
    (hlaunch : launch yaml (hash salt) env sur file = .ok p) :
    ∃ raw doc doc' c c', yaml.unmarshal file = .ok raw ∧ yaml.unmarshal doc = .ok c ∧
      yaml.unmarshal doc' = .ok c' ∧ c.auth = raw.auth.effective (hash salt) env ∧
      c'.auth = (raw.auth.effective (hash salt) env).effective (hash salt) env ∧
      written lib yaml printable hash env sur file salt [(salt, noBlocklists)] =
        p.saves yaml printable ++ [doc] ∧
      written lib yaml printable hash env sur file salt
          [(salt, noBlocklists), (salt, noBlocklists)] =
        p.saves yaml printable ++ [doc, doc'] := by
  obtain ⟨raw, cf, hraw, -, rfl, hloadable⟩ := launch_ok hlaunch
  obtain ⟨doc, doc', c, c', hdoc, hdoc', hauth, hauth', hone, htwo⟩ :=
    @requestSaves_noBlocklists _ _ lib _ hash env hyaml salt _
      (Process.loadable_prepare printable sur.unboundStarts hyaml hloadable)
  rw [Process.prepare_auth printable sur.unboundStarts hyaml] at hauth hauth'
  refine ⟨raw, doc, doc', c, c', hraw, hdoc, hdoc', hauth, hauth', ?_, ?_⟩
  · simp only [written, hlaunch, hone]
  · simp only [written, hlaunch, htwo]

theorem launch_error_iff {salt : σ} :
    (∃ e, launch yaml (hash salt) env sur file = .error e) ↔
      ∃ e, load (hash salt) yaml env file = .error e := by
  unfold launch
  cases load (hash salt) yaml env file with
  | error e => simp [wrap, bind, Except.bind]
  | ok c => simp [wrap, bind, Except.bind, pure, Except.pure]

/-- Whatever file a server starts from: two environments write the same documents, whatever the
requests, exactly if they make the same of the authentication section of the file or neither
lets the server start. -/
theorem written_eq_iff (lib : Stdlib) (yaml : Yaml δ) (printable : Nat → Bool)
    (hash : σ → GoString → Option GoString) (env₁ env₂ : Env) (sur : Surroundings) (file : δ)
    (salt : σ) (hyaml : yaml.Faithful) (hbcrypt : Bcrypt hash) :
    (∀ rs, written lib yaml printable hash env₁ sur file salt rs =
        written lib yaml printable hash env₂ sur file salt rs) ↔
      (∃ raw, yaml.unmarshal file = .ok raw ∧ SameOverrides (hash salt) env₁ env₂ raw.auth) ∨
        (∃ e, load (hash salt) yaml env₁ file = .error e) ∧
          ∃ e, load (hash salt) yaml env₂ file = .error e := by
  rw [← @launch_error_iff _ _ yaml hash env₁ sur, ← @launch_error_iff _ _ yaml hash env₂ sur]
  constructor
  · intro heq
    cases hlaunch₁ : launch yaml (hash salt) env₁ sur file with
    | error e₁ =>
      cases hlaunch₂ : launch yaml (hash salt) env₂ sur file with
      | error e₂ => exact Or.inr ⟨⟨e₁, rfl⟩, e₂, rfl⟩
      | ok p₂ =>
        obtain ⟨-, doc, -, -, -, -, -, -, -, -, hone, -⟩ :=
          @written_noBlocklists _ _ lib _ printable _ _ _ _ _ _ hyaml hlaunch₂
        have hnone := heq [(salt, noBlocklists)]
        rw [hone, written, hlaunch₁] at hnone
        simp at hnone
    | ok p₁ =>
      obtain ⟨raw, doc₁, doc₁', c₁, c₁', hraw, hdoc₁, hdoc₁', hauth₁, hauth₁', hone₁, htwo₁⟩ :=
        @written_noBlocklists _ _ lib _ printable _ _ _ _ _ _ hyaml hlaunch₁
      cases hlaunch₂ : launch yaml (hash salt) env₂ sur file with
      | error e₂ =>
        have hnone := heq [(salt, noBlocklists)]
        rw [hone₁, written, hlaunch₂] at hnone
        simp at hnone
      | ok p₂ =>
        obtain ⟨raw', doc₂, doc₂', c₂, c₂', hraw', hdoc₂, hdoc₂', hauth₂, hauth₂', hone₂,
          htwo₂⟩ := @written_noBlocklists _ _ lib _ printable _ _ _ _ _ _ hyaml hlaunch₂
        rw [hraw] at hraw'
        cases hraw'
        have hone := congrArg List.getLast? (heq [(salt, noBlocklists)])
        have htwo := congrArg List.getLast?
          (heq [(salt, noBlocklists), (salt, noBlocklists)])
        rw [hone₁, hone₂] at hone
        rw [htwo₁, htwo₂] at htwo
        simp only [List.getLast?_append, List.getLast?_singleton, List.getLast?_cons_cons,
          Option.some_or, Option.some.injEq] at hone htwo
        subst hone htwo
        rw [hdoc₁, Except.ok.injEq] at hdoc₂
        rw [hdoc₁', Except.ok.injEq] at hdoc₂'
        subst hdoc₂ hdoc₂'
        exact Or.inl ⟨raw, hraw, SameOverrides.of_effective (hbcrypt.ne_nil salt)
          (hauth₁.symm.trans hauth₂) (hauth₁'.symm.trans hauth₂')⟩
  · rintro (⟨raw, hraw, hsame⟩ | ⟨⟨e₁, hfails₁⟩, e₂, hfails₂⟩) rs
    · exact written_congr hyaml hbcrypt hraw hsame rs
    · simp only [written, hfails₁, hfails₂]

def plainHash (salt pass : GoString) : Option GoString := some (byte '$' :: salt ++ pass)

theorem plainHash_bcrypt : Bcrypt plainHash := ⟨nofun, nofun⟩

theorem written_eq_unset :
    (∀ rs, written plainStdlib Config.plainYaml (fun _ => true) plainHash {} bare
        Config.settledConfig [] rs =
      written plainStdlib Config.plainYaml (fun _ => true) plainHash { apiKey := lit " " }
        bare Config.settledConfig [] rs) ↔
      (∃ raw, Config.plainYaml.unmarshal Config.settledConfig = .ok raw ∧
        SameOverrides (plainHash []) {} { apiKey := lit " " } raw.auth) ∨
      (∃ e, load (plainHash []) Config.plainYaml {} Config.settledConfig = .error e) ∧
        ∃ e, load (plainHash []) Config.plainYaml { apiKey := lit " " } Config.settledConfig =
          .error e :=
  written_eq_iff plainStdlib Config.plainYaml (fun _ => true) plainHash {} { apiKey := lit " " }
    bare Config.settledConfig [] (fun c => ⟨c, rfl, rfl⟩) plainHash_bcrypt

/-- A request to turn the block page off writes the key of the environment to the file, and so
does the second one with the password, in plain text. -/
theorem written_has_secrets :
    let env : Env := { apiKey := lit "key", basicPass := some (lit "secret") }
    let docs := written plainStdlib Config.plainYaml (fun _ => true) plainHash env bare
      Config.settledConfig [] [([], blockPageOff), ([], blockPageOff)]
    docs.map (·.auth.apiKey) = [lit "key", lit "key"] ∧
      docs.map (·.auth.password) = [[], lit "secret"] ∧
      docs ≠ written plainStdlib Config.plainYaml (fun _ => true) plainHash {} bare
        Config.settledConfig [] [([], blockPageOff), ([], blockPageOff)] := by
  decide +kernel

end GloryHole.Boot
