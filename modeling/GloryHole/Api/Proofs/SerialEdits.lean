import GloryHole.Api.ConfigEdits
import GloryHole.Api.Proofs.SectionFrame
import GloryHole.Support.Runs

/-!
# Configuration requests and the sections they change

A request that runs alone does what its endpoint does.  Requests for different sections all
succeed, and the file and the watcher end with the new value of each, if they run one after
the other, what each of them saves can be loaded, and the defaults leave its value alone.
-/

namespace GloryHole.Api

open Go Support.Runs
open Config (Config Env Yaml load save validate ServerConfig applyDefaults)

variable {δ : Type} {σ : Setting δ}

/-! ## Sections -/

inductive ConfigSection where
  | upstreams
  | cache
  | logging
  | tls
  | blockPage
  | blocklists
  | features
  | localRecords
  deriving DecidableEq

def UpdateRequest.section : UpdateRequest → ConfigSection
  | .upstreams _ => .upstreams
  | .cache _ => .cache
  | .logging _ => .logging
  | .tls _ => .tls
  | .blockPage _ => .blockPage
  | .blocklists _ => .blocklists
  | .features _ => .features
  | .addLocalRecord _ => .localRecords
  | .removeLocalRecord _ => .localRecords

namespace ConfigSection

def Same (x y : Config) : ConfigSection → Prop
  | .upstreams => x.upstreamDNSServers = y.upstreamDNSServers
  | .cache => x.cache = y.cache
  | .logging => x.logging = y.logging
  | .tls =>
    x.server.dotEnabled = y.server.dotEnabled ∧ x.server.dotAddress = y.server.dotAddress ∧
      x.server.tls = y.server.tls
  | .blockPage => x.blockPage = y.blockPage
  | .blocklists => x.blocklists = y.blocklists
  | .features =>
    x.server.enableBlocklist = y.server.enableBlocklist ∧
      x.server.enablePolicies = y.server.enablePolicies
  | .localRecords => x.localRecords = y.localRecords

def Settled (hash : GoString → Option GoString) (c : Config) (s : ConfigSection) : Prop :=
  s.Same c (applyDefaults hash c) ∧ (s = .tls → c.server.tls.acme.upstreams ≠ [])

variable {hash : GoString → Option GoString} {x y z : Config} {s : ConfigSection}

theorem Same.refl (s : ConfigSection) (x : Config) : s.Same x x := by
  cases s <;> simp [Same]

theorem Same.symm (h : s.Same x y) : s.Same y x := by
  cases s <;> simp_all [Same]

theorem Same.trans (hxy : s.Same x y) (hyz : s.Same y z) : s.Same x z := by
  cases s <;> simp_all [Same]

theorem tls_applyDefaults {t : Config.TLSConfig} (h : t.acme.upstreams ≠ [])
    (u u' : List GoString) : t.applyDefaults u = t.applyDefaults u' := by
  simp [Config.TLSConfig.applyDefaults, Config.ACMEConfig.applyDefaults, h]

/-- Defaults are filled in section by section. -/
theorem Same.applyDefaults (hsame : s.Same x y)
    (hresolvers : s = .tls → x.server.tls.acme.upstreams ≠ []) :
    s.Same (applyDefaults hash x) (applyDefaults hash y) := by
  cases s with
  | upstreams =>
    exact congrArg (fun l => if l = [] then Config.defaultUpstreams else l) hsame
  | cache => exact congrArg Config.CacheConfig.applyDefaults hsame
  | logging => exact congrArg Config.LoggingConfig.applyDefaults hsame
  | tls =>
    obtain ⟨henabled, haddress, htls⟩ := hsame
    refine ⟨henabled, congrArg (Config.orText · (lit ":853")) haddress, ?_⟩
    change x.server.tls.applyDefaults _ = y.server.tls.applyDefaults _
    rw [← htls]
    exact tls_applyDefaults (hresolvers rfl) _ _
  | blockPage | blocklists => exact hsame
  | features =>
    obtain ⟨hblocklist, hpolicies⟩ := hsame
    simp only [Same, Config.applyDefaults, ServerConfig.applyDefaults, hblocklist, hpolicies,
      and_self]
  | localRecords => exact hsame

/-- A section that the defaults leave alone keeps its value with them. -/
theorem Settled.same_applyDefaults (h : s.Settled hash x) (hsame : s.Same x y) :
    s.Same x (Config.applyDefaults hash y) :=
  h.1.trans (hsame.applyDefaults h.2)

theorem Settled.of_same (h : s.Settled hash x) (hsame : s.Same x y) : s.Settled hash y := by
  refine ⟨hsame.symm.trans (h.same_applyDefaults hsame), ?_⟩
  rintro rfl
  rw [← hsame.2.2]
  exact h.2 rfl

end ConfigSection

/-! ## The section of one request under another -/

section

variable {lib : Stdlib} {hash : GoString → Option GoString} {yaml : Yaml δ} {env : Env}
  {c u : Config} {s : ConfigSection}

/-- A load has the sections of the file, after defaults. -/
theorem same_of_load {data : δ} (hyaml : yaml.Faithful) (hsave : save yaml u = .ok data)
    (hload : load hash yaml env data = .ok c) : s.Same (applyDefaults hash u) c := by
  obtain ⟨raw, cf, hraw, -, rfl⟩ := Config.load_ok hload
  rw [unmarshal_save hyaml hsave] at hraw
  cases hraw
  cases s <;> simp [ConfigSection.Same]

/-- An endpoint leaves the sections of the others, as far as the defaults do. -/
theorem UpdateRequest.same_updated {r : UpdateRequest} (hyaml : yaml.Faithful)
    (h : r.updated lib hash yaml c = .ok u) (hsettled : s.Settled hash c)
    (hne : s ≠ r.section) : s.Same c u := by
  cases r.saves hyaml h with
  | upstreams | cache | logging | blockPage | blocklists =>
    cases s <;> first | exact absurd rfl hne | simp [ConfigSection.Same]
  | tls hsettings =>
    obtain ⟨enabled, address, tls, rfl⟩ := Body.settings_eq hsettings
    cases s <;> first | exact absurd rfl hne | simp [ConfigSection.Same]
  | features | addLocalRecord | removeLocalRecord =>
    refine hsettled.1.trans ?_
    cases s <;> first | exact absurd rfl hne | simp [ConfigSection.Same, FeaturesRequest.apply]

end

/-! ## The temporary file -/

namespace Disk

variable {d : Disk δ} {fd : Nat} {data : δ}

theorem file_write_temp (h : d.temp = some fd) : (d.write fd data).file = d.file :=
  Function.update_of_ne (Ne.symm (d.temp_ne fd h)) _ _

theorem openTemp_spec (medium : Medium δ) (d : Disk δ) :
    (d.openTemp medium).1.temp = some (d.openTemp medium).2 ∧
      (d.openTemp medium).1.contents (d.openTemp medium).2 = medium.empty ∧
      (d.openTemp medium).1.file = d.file := by
  unfold openTemp
  split
  · rename_i fd htemp
    exact ⟨htemp, Function.update_self fd _ _, file_write_temp htemp⟩
  · exact ⟨rfl, Function.update_self _ _ _,
      @file_write_temp δ d.create d.fresh medium.empty rfl⟩

theorem renameTemp_eq_some (h : d.temp = some fd) :
    ∃ d', d.renameTemp = some d' ∧ d'.file = d.contents fd := by
  unfold renameTemp
  split
  · rename_i hnone
    rw [h] at hnone
    cases hnone
  · rename_i fd' hsome
    rw [h] at hsome
    cases hsome
    exact ⟨_, rfl, rfl⟩

end Disk

/-! ## A request alone -/

/-- The save of a request that runs alone leaves its text in the file. -/
theorem EditWorld.exec_save (w : EditWorld δ) (t : Nat) {r : UpdateRequest} {u : Config} {data : δ}
    (hedited : w.edits t = .edited r u) (hsave : save σ.yaml u = .ok data) :
    ∃ w', exec (EditWorld.step σ) w [.openTemp t, .write t, .rename t] = w' ∧
      w'.config = w.config ∧ w'.disk.file = data ∧ w'.edits t = .renamed r u := by
  obtain ⟨htemp, hempty, -⟩ := w.disk.openTemp_spec σ.medium
  have hdata : ((w.disk.openTemp σ.medium).1.write (w.disk.openTemp σ.medium).2 data).contents
      (w.disk.openTemp σ.medium).2 = data := Function.update_self _ _ _
  obtain ⟨d, hrename, hfile⟩ := Disk.renameTemp_eq_some
    (show ((w.disk.openTemp σ.medium).1.write (w.disk.openTemp σ.medium).2 data).temp = _
      from htemp)
  rw [hdata] at hfile
  refine ⟨_, rfl, ?_⟩
  simp [step, set, hedited, hsave, hempty, σ.medium.overwrite_empty, hrename, hfile]

/-- A request that runs alone does what its endpoint does. -/
theorem EditWorld.exec_editSteps (w : EditWorld δ) (t : Nat) (r : UpdateRequest)
    (hidle : w.edits t = .idle) :
    (exec (EditWorld.step σ) w (editSteps t r)).state =
        (w.state.update σ.lib σ.hash σ.yaml σ.env r).1 ∧
      (exec (EditWorld.step σ) w (editSteps t r)).edits t =
        .answered r (w.state.update σ.lib σ.hash σ.yaml σ.env r).2 := by
  cases hupdated : r.updated σ.lib σ.hash σ.yaml w.config with
  | error e => simp [editSteps, step, set, hidle, hupdated, state, ConfigState.update]
  | ok u =>
    cases hsave : save σ.yaml u with
    | error e => simp [editSteps, step, set, hidle, hupdated, hsave, state, ConfigState.update]
    | ok data =>
      have hread : w.step σ (.read t r) = w.set t (.edited r u) := by
        simp only [step, hidle, hupdated]
      obtain ⟨w', hexec, hconfig, hfile, hrenamed⟩ :=
        (w.set t (.edited r u)).exec_save t (Function.update_self _ _ _) hsave
      have hsteps : editSteps t r =
          .read t r :: ([EditStep.openTemp t, .write t, .rename t] ++
            [EditStep.load t, .swap t]) := rfl
      rw [hsteps, exec_cons, hread, exec_append, hexec]
      have hconfig : w'.config = w.config := hconfig
      simp only [exec_cons, exec_nil, step, hrenamed, set, Function.update_self, state, hfile,
        hconfig, ConfigState.update, hupdated, hsave, ConfigState.reload, and_true]
      cases load σ.hash σ.yaml σ.env data with
      | error e | ok c => rfl

/-! ## Requests one after the other -/

def EditPhase.Finished : EditPhase δ → Prop
  | .idle => True
  | .answered _ _ => True
  | _ => False

/-- A request begins only when no other one is under way, for a section none before it was
for; it is accepted, what it saves loads, and the defaults leave the new value alone. -/
def Serial (σ : Setting δ) (w : EditWorld δ) : EditStep → Prop
  | .read _ r =>
    (∀ t, (w.edits t).Finished) ∧
    (∀ t r' answer, w.edits t = .answered r' answer → r'.section ≠ r.section) ∧
    ∃ u data c, r.updated σ.lib σ.hash σ.yaml w.config = .ok u ∧ save σ.yaml u = .ok data ∧
      load σ.hash σ.yaml σ.env data = .ok c ∧ r.section.Settled σ.hash u
  | _ => True

structure Kept (σ : Setting δ) (w : EditWorld δ) (r : UpdateRequest)
    (answer : Except UpdateError Config) (u : Config) : Prop where
  success : answer = .ok u
  made : ∃ c, r.updated σ.lib σ.hash σ.yaml c = .ok u
  watcher : r.section.Same u w.config
  file : ∃ raw, σ.yaml.unmarshal w.disk.file = .ok raw ∧ r.section.Same u raw

def AllKept (σ : Setting δ) (w : EditWorld δ) : Prop :=
  ∀ t r answer, w.edits t = .answered r answer →
    (∃ u, Kept σ w r answer u) ∧ r.section.Settled σ.hash w.config

/-- What the disk holds at each point of a request that saves `data` and loads it as `c`. -/
def Stage (σ : Setting δ) (d : Disk δ) (r : UpdateRequest) (u : Config) (data : δ) (c : Config) :
    EditPhase δ → Prop
  | .edited r' u' => r' = r ∧ u' = u
  | .opened r' u' data' fd =>
    r' = r ∧ u' = u ∧ data' = data ∧ d.temp = some fd ∧ d.contents fd = σ.medium.empty
  | .written r' u' => r' = r ∧ u' = u ∧ ∃ fd, d.temp = some fd ∧ d.contents fd = data
  | .renamed r' u' => r' = r ∧ u' = u ∧ d.file = data
  | .loaded r' u' cfg => r' = r ∧ u' = u ∧ d.file = data ∧ cfg = some c
  | _ => False

structure Active (σ : Setting δ) (w : EditWorld δ) (t : Nat) (r : UpdateRequest) (u : Config)
    (data : δ) (c : Config) : Prop where
  updated : r.updated σ.lib σ.hash σ.yaml w.config = .ok u
  saved : save σ.yaml u = .ok data
  loads : load σ.hash σ.yaml σ.env data = .ok c
  settled : r.section.Settled σ.hash u
  others : ∀ t' r' answer, w.edits t' = .answered r' answer → r'.section ≠ r.section
  alone : ∀ t', t' ≠ t → (w.edits t').Finished
  stage : Stage σ w.disk r u data c (w.edits t)

def Orderly (σ : Setting δ) (w : EditWorld δ) : Prop :=
  AllKept σ w ∧ ((∀ t, (w.edits t).Finished) ∨ ∃ t r u data c, Active σ w t r u data c)

section

variable {w : EditWorld δ} {t : Nat} {r : UpdateRequest} {u c : Config} {data : δ}

/-- A request under way is the active one. -/
theorem Orderly.active (h : Orderly σ w) {phase : EditPhase δ} (hphase : w.edits t = phase)
    (hfinished : ¬ phase.Finished) :
    ∃ r u data c, Active σ w t r u data c ∧ Stage σ w.disk r u data c phase := by
  subst hphase
  rcases h.2 with hall | ⟨t', r, u, data, c, hactive⟩
  · exact absurd (hall t) hfinished
  · by_cases heq : t = t'
    · subst heq
      exact ⟨r, u, data, c, hactive, hactive.stage⟩
    · exact absurd (hactive.alone t heq) hfinished

/-- What has been answered stays so while another request goes on. -/
theorem edits_of_answered {phase : EditPhase δ} (hphase : ∀ r answer, phase ≠ .answered r answer)
    {t' : Nat} {r' : UpdateRequest} {answer : Except UpdateError Config}
    (h : (w.set t phase).edits t' = .answered r' answer) :
    t' ≠ t ∧ w.edits t' = .answered r' answer := by
  unfold EditWorld.set at h
  by_cases heq : t' = t
  · subst heq
    exact absurd (h.symm.trans (Function.update_self _ _ _)).symm (hphase r' answer)
  · exact ⟨heq, by rwa [← Function.update_of_ne heq phase w.edits]⟩

/-- The value of a request that has been answered is in what another one saves. -/
theorem Active.same_saved (hyaml : σ.yaml.Faithful) (hactive : Active σ w t r u data c)
    (hkept : AllKept σ w) {t' : Nat} {r' : UpdateRequest} {answer : Except UpdateError Config}
    (hanswered : w.edits t' = .answered r' answer) : r'.section.Same w.config u :=
  UpdateRequest.same_updated hyaml hactive.updated (hkept t' r' answer hanswered).2
    (hactive.others t' r' answer hanswered)

/-- A step of the active request up to its answer. -/
theorem Active.advance (hyaml : σ.yaml.Faithful) (hactive : Active σ w t r u data c)
    (hkept : AllKept σ w) {phase : EditPhase δ} {d : Disk δ}
    (hstage : Stage σ d r u data c phase) (hfile : d.file = w.disk.file ∨ d.file = data) :
    Orderly σ { w.set t phase with disk := d } := by
  have hphase : ∀ r answer, phase ≠ .answered r answer := by
    rintro r answer rfl
    exact hstage
  refine ⟨?_, Or.inr ⟨t, r, u, data, c, ?_⟩⟩
  · intro t' r' answer hanswered
    obtain ⟨-, hanswered⟩ := edits_of_answered hphase hanswered
    obtain ⟨⟨u', hu'⟩, hsettled⟩ := hkept t' r' answer hanswered
    refine ⟨⟨u', hu'.success, hu'.made, hu'.watcher, ?_⟩, hsettled⟩
    rcases hfile with hfile | hfile
    · obtain ⟨raw, hraw, hsame⟩ := hu'.file
      exact ⟨raw, by rw [hfile]; exact hraw, hsame⟩
    · refine ⟨u, by rw [hfile]; exact unmarshal_save hyaml hactive.saved, ?_⟩
      exact hu'.watcher.trans (hactive.same_saved hyaml hkept hanswered)
  · refine ⟨hactive.updated, hactive.saved, hactive.loads, hactive.settled, ?_, ?_, ?_⟩
    · intro t' r' answer hanswered
      exact hactive.others t' r' answer (edits_of_answered hphase hanswered).2
    · intro t' hne
      have hother : (w.set t phase).edits t' = w.edits t' := Function.update_of_ne hne _ _
      change ((w.set t phase).edits t').Finished
      rw [hother]
      exact hactive.alone t' hne
    · have hself : (w.set t phase).edits t = phase := Function.update_self _ _ _
      change Stage σ d r u data c ((w.set t phase).edits t)
      rw [hself]
      exact hstage

/-- The last step: the watcher takes what has been loaded, and the request is answered. -/
theorem Active.finish (hyaml : σ.yaml.Faithful) (hactive : Active σ w t r u data c)
    (hkept : AllKept σ w) (hfile : w.disk.file = data) :
    Orderly σ { w.set t (.answered r (.ok u)) with config := c } := by
  have hloaded (s : ConfigSection) : s.Same (applyDefaults σ.hash u) c :=
    same_of_load hyaml hactive.saved hactive.loads
  have hraw : σ.yaml.unmarshal w.disk.file = .ok u := by
    rw [hfile]
    exact unmarshal_save hyaml hactive.saved
  refine ⟨?_, Or.inl ?_⟩
  · intro t' r' answer hanswered
    by_cases heq : t' = t
    · -- the request itself
      subst heq
      have hself : EditPhase.answered r (.ok u) = .answered r' answer :=
        (Function.update_self t' _ w.edits).symm.trans hanswered
      cases hself
      have hsame := (hactive.settled.same_applyDefaults (ConfigSection.Same.refl _ u)).trans
        (hloaded r.section)
      exact ⟨⟨u, rfl, ⟨w.config, hactive.updated⟩, hsame, u, hraw, ConfigSection.Same.refl _ u⟩,
        hactive.settled.of_same hsame⟩
    · -- one before it, whose section it has left alone
      have hanswered : w.edits t' = .answered r' answer :=
        (Function.update_of_ne heq _ w.edits).symm.trans hanswered
      obtain ⟨⟨u', hu'⟩, hsettled⟩ := hkept t' r' answer hanswered
      have hsaved := hactive.same_saved hyaml hkept hanswered
      have hsame := (hsettled.same_applyDefaults hsaved).trans (hloaded r'.section)
      exact ⟨⟨u', hu'.success, hu'.made, hu'.watcher.trans hsame, u, hraw,
        hu'.watcher.trans hsaved⟩, hsettled.of_same hsame⟩
  · intro t'
    change (Function.update w.edits t (.answered r (.ok u)) t').Finished
    by_cases heq : t' = t
    · rw [heq, Function.update_self]
      trivial
    · rw [Function.update_of_ne heq]
      exact hactive.alone t' heq

theorem Orderly.step (hyaml : σ.yaml.Faithful) (h : Orderly σ w) {a : EditStep}
    (hserial : Serial σ w a) : Orderly σ (w.step σ a) := by
  have hkept := h.1
  cases a with
  | read t r =>
    obtain ⟨hfinished, hothers, u, data, c, hupdated, hsaved, hloads, hsettled⟩ := hserial
    rw [EditWorld.step]
    split
    · rename_i hidle
      rw [hupdated]
      refine ⟨?_, Or.inr ⟨t, r, u, data, c, hupdated, hsaved, hloads, hsettled, ?_, ?_, ?_⟩⟩
      · intro t' r' answer hanswered
        obtain ⟨-, hanswered⟩ := edits_of_answered (by simp) hanswered
        obtain ⟨⟨u', hu'⟩, hsettled'⟩ := hkept t' r' answer hanswered
        exact ⟨⟨u', hu'.success, hu'.made, hu'.watcher, hu'.file⟩, hsettled'⟩
      · intro t' r' answer hanswered
        exact hothers t' r' answer (edits_of_answered (by simp) hanswered).2
      · intro t' hne
        have hother : (w.set t (.edited r u)).edits t' = w.edits t' :=
          Function.update_of_ne hne _ _
        rw [hother]
        exact hfinished t'
      · have hself : (w.set t (.edited r u)).edits t = .edited r u := Function.update_self _ _ _
        rw [hself]
        exact ⟨rfl, rfl⟩
    · exact h
  | openTemp t =>
    rw [EditWorld.step]
    split
    · rename_i r' u' hphase
      obtain ⟨r, u, data, c, hactive, hstage⟩ := h.active hphase id
      obtain ⟨rfl, rfl⟩ := hstage
      obtain ⟨htemp, hempty, hfile⟩ := w.disk.openTemp_spec σ.medium
      rw [hactive.saved]
      exact hactive.advance hyaml hkept ⟨rfl, rfl, rfl, htemp, hempty⟩ (Or.inl hfile)
    · exact h
  | write t =>
    rw [EditWorld.step]
    split
    · rename_i r' u' data' fd hphase
      obtain ⟨r, u, data, c, hactive, hstage⟩ := h.active hphase id
      obtain ⟨rfl, rfl, rfl, htemp, hempty⟩ := hstage
      refine hactive.advance hyaml hkept ⟨rfl, rfl, fd, htemp, ?_⟩
        (Or.inl (Disk.file_write_temp htemp))
      rw [hempty, σ.medium.overwrite_empty]
      exact Function.update_self _ _ _
    · exact h
  | rename t =>
    rw [EditWorld.step]
    split
    · rename_i r' u' hphase
      obtain ⟨r, u, data, c, hactive, hstage⟩ := h.active hphase id
      obtain ⟨rfl, rfl, fd, htemp, hdata⟩ := hstage
      obtain ⟨d, hrename, hfile⟩ := Disk.renameTemp_eq_some htemp
      rw [hdata] at hfile
      rw [hrename]
      exact hactive.advance hyaml hkept ⟨rfl, rfl, hfile⟩ (Or.inr hfile)
    · exact h
  | removeTemp t =>
    rw [EditWorld.step]
    split
    · rename_i r' hphase
      obtain ⟨r, u, data, c, hactive, hstage⟩ := h.active hphase id
      exact absurd hstage id
    · exact h
  | load t =>
    rw [EditWorld.step]
    split
    · rename_i r' u' hphase
      obtain ⟨r, u, data, c, hactive, hstage⟩ := h.active hphase id
      obtain ⟨rfl, rfl, hfile⟩ := hstage
      have hcfg : (load σ.hash σ.yaml σ.env w.disk.file).toOption = some c := by
        rw [hfile, hactive.loads]
        rfl
      exact hactive.advance hyaml hkept ⟨rfl, rfl, hfile, hcfg⟩ (Or.inl rfl)
    · exact h
  | swap t =>
    rw [EditWorld.step]
    split
    · rename_i r' u' cfg hphase
      obtain ⟨r, u, data, c, hactive, hstage⟩ := h.active hphase id
      obtain ⟨rfl, rfl, hfile, rfl⟩ := hstage
      exact hactive.finish hyaml hkept hfile
    · exact h

end

/-- Requests for different sections that run one after the other all succeed, and their values
are in the watcher and in the file. -/
theorem serial_edits_keep_all (σ : Setting δ) (hyaml : σ.yaml.Faithful) (config : Config)
    (disk : Disk δ) (steps : List EditStep)
    (hserial : AllSteps (EditWorld.step σ) (Serial σ) ⟨config, disk, fun _ => .idle⟩ steps) :
    ∀ t r answer, (exec (EditWorld.step σ) ⟨config, disk, fun _ => .idle⟩ steps).edits t =
        .answered r answer →
      ∃ u, Kept σ (exec (EditWorld.step σ) ⟨config, disk, fun _ => .idle⟩ steps) r answer u := by
  have hstart : Orderly σ ⟨config, disk, fun _ => .idle⟩ :=
    ⟨fun t r answer h => (by cases h), Or.inl fun _ => trivial⟩
  have hstep : ∀ w a, Serial σ w a → Orderly σ w → Orderly σ (w.step σ a) :=
    fun w a ha hw => hw.step hyaml ha
  intro t r answer hanswered
  exact ((invariant_exec hstep hserial hstart).1 t r answer hanswered).1

/-! ## Two requests -/

def plainSetting : Setting Config where
  lib := plainStdlib
  hash _ := none
  yaml := Config.plainYaml
  env := {}
  medium := ⟨{}, fun data _ => data, fun _ => rfl⟩
  noEntry := lit "no such file or directory"

def blockPageOn : UpdateRequest := .blockPage (.ok ⟨true, lit "10.0.0.1"⟩)

def blocklistOff : UpdateRequest := .features (some ⟨some false, none⟩)

def plainStart : EditWorld Config :=
  ⟨Config.settledConfig, Disk.ofFile Config.settledConfig, fun _ => .idle⟩

theorem exec_editSteps_blockPage :
    (exec (EditWorld.step plainSetting) plainStart (editSteps 0 blockPageOn)).state =
      (plainStart.state.update plainStdlib (fun _ => none) Config.plainYaml {} blockPageOn).1 :=
  (EditWorld.exec_editSteps plainStart 0 blockPageOn rfl).1

theorem serial_edits_keep_both :
    plainSetting.yaml.Faithful ∧ ∀ t r answer, (exec (EditWorld.step plainSetting) plainStart
        (editSteps 0 blockPageOn ++ editSteps 1 blocklistOff)).edits t = .answered r answer →
      ∃ u, Kept plainSetting (exec (EditWorld.step plainSetting) plainStart
        (editSteps 0 blockPageOn ++ editSteps 1 blocklistOff)) r answer u := by
  refine ⟨fun c => ⟨c, rfl, rfl⟩, serial_edits_keep_all _ (fun c => ⟨c, rfl, rfl⟩) _ _ _ ?_⟩
  refine ⟨⟨fun _ => trivial, fun t r answer h => (by cases h), _, _, _, rfl, rfl, rfl, ?_⟩,
    trivial, trivial, trivial, trivial, trivial, ⟨?_, ?_, _, _, _, rfl, rfl, rfl, ?_⟩, trivial,
    trivial, trivial, trivial, trivial, trivial⟩
  · exact ⟨rfl, fun h => absurd h (by decide)⟩
  · rintro (_ | t)
    · trivial
    · trivial
  · rintro (_ | t) r answer h
    · cases h
      decide
    · cases h
  · exact ⟨⟨rfl, rfl⟩, fun h => absurd h (by decide)⟩

def EditPhase.succeeded : EditPhase δ → Option Bool
  | .answered _ answer => some answer.toBool
  | _ => none

def outcome (w : EditWorld Config) : List (Option Bool) × List (Bool × Bool) :=
  ([0, 1].map fun t => (w.edits t).succeeded,
    [w.disk.file, w.config].map fun c => (c.blockPage.enabled, c.server.enableBlocklist))

/-- Both requests read the configuration before either saves it: both succeed, and the second
undoes the first.  Both write the temporary file before either renames it: the first installs
what the second has written, and the second fails. -/
theorem edits_lost :
    outcome (exec (EditWorld.step plainSetting) plainStart
      ([EditStep.read 0 blockPageOn] ++ editSteps 1 blocklistOff ++
        (editSteps 0 blockPageOn).tail)) =
        ([some true, some true], [(true, true), (true, true)]) ∧
    outcome (exec (EditWorld.step plainSetting) plainStart
      [.read 0 blockPageOn, .openTemp 0, .write 0, .read 1 blocklistOff, .openTemp 1, .write 1,
        .rename 0, .rename 1, .removeTemp 1, .load 0, .swap 0]) =
        ([some true, some false], [(false, false), (false, false)]) := by
  decide +kernel

end GloryHole.Api
