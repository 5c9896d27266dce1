import Mathlib
import GloryHole.Support.Runs
import GloryHole.Api.UnboundEdits

/-!
# What a rejected Unbound request leaves behind

A request that gets as far as `applyUnboundConfig` has already edited the configuration in
memory, and one that only the reload command fails has replaced the file.  Such a rejection is
without effect exactly if there was nothing to change.
-/

namespace GloryHole.Api

open Go Unbound Support.Runs

variable {env : UnboundEnv} {s : UnboundServer} {cfg : UnboundServerConfig}

def UnboundAnswer.isError : UnboundAnswer → Bool
  | .error _ _ => true
  | _ => false

def Written (env : UnboundEnv) (s : UnboundServer) (cfg : UnboundServerConfig) : Prop :=
  s.check env cfg = .ok () ∧ writeConfigFile env.quote env.confFile cfg = .ok (renderConfig cfg)

def Accepted (env : UnboundEnv) (s : UnboundServer) (cfg : UnboundServerConfig) : Prop :=
  Written env s cfg ∧ env.reload = .ok ()

/-- If the request is neither refused at once nor accepted: what it asks for is in memory
already, or nothing is, and a file that is replaced has its text already. -/
def Harmless (env : UnboundEnv) (s : UnboundServer) (r : UnboundRequest) : Prop :=
  ∀ cfg answer, s.supervisor ≠ none → r.edit s.getUnboundServerConfig = .ok (cfg, answer) →
    ¬Accepted env s cfg →
      (s.memory = none ∨ s.memory = some cfg) ∧
        (Written env s cfg → s.conf = some (renderConfig cfg))

/-! ## Applying a configuration -/

theorem writeConfigFile_eq_ok {quote : GoString → GoString} {out : FileOutcome} {text : GoString}
    (h : writeConfigFile quote out cfg = .ok text) :
    sanitizeConfig quote cfg = .ok () ∧ text = renderConfig cfg := by
  unfold writeConfigFile writeConfig at h
  simp only [bind_eq_ok, pure_eq_ok, wrap_eq_ok] at h
  obtain ⟨text', ⟨_, hsanitized, rfl⟩, _, _, _, _, rfl⟩ := h
  exact ⟨hsanitized, rfl⟩

theorem check_edited (s : UnboundServer) (cfg cfg' : UnboundServerConfig) :
    (s.edited cfg).check env cfg' = s.check env cfg' := by
  unfold UnboundServer.check UnboundServer.edited
  cases s.supervisor <;> rfl

theorem memory_edited (s : UnboundServer) (cfg : UnboundServerConfig) :
    (s.edited cfg).memory = s.memory.map fun _ => cfg := by
  unfold UnboundServer.memory UnboundServer.edited
  cases s.supervisor <;> rfl

/-- An accepted configuration is in memory and in the file. -/
theorem applyUnboundConfig_accepted (hsup : s.supervisor ≠ none) (h : Accepted env s cfg) :
    ∃ s', s.applyUnboundConfig env cfg = (s', .ok ()) ∧ s'.memory = some cfg ∧
      s'.conf = some (renderConfig cfg) := by
  obtain ⟨sup, hs⟩ := Option.ne_none_iff_exists'.mp hsup
  obtain ⟨⟨hcheck, hwrite⟩, hreload⟩ := h
  simp only [UnboundServer.applyUnboundConfig, hcheck, hwrite, hs, hreload]
  exact ⟨_, rfl, rfl, rfl⟩

/-- A rejected one leaves what is in memory, and is in the file if the file has been
replaced. -/
theorem applyUnboundConfig_rejected (hsup : s.supervisor ≠ none) (h : ¬Accepted env s cfg) :
    ∃ s' err, s.applyUnboundConfig env cfg = (s', .error err) ∧ s'.memory = s.memory ∧
      (Written env s cfg → s'.conf = some (renderConfig cfg)) ∧
      (¬Written env s cfg → s'.conf = s.conf) := by
  obtain ⟨sup, hs⟩ := Option.ne_none_iff_exists'.mp hsup
  cases hcheck : s.check env cfg with
  | error err =>
    refine ⟨s, err, by simp only [UnboundServer.applyUnboundConfig, hcheck], rfl, ?_, ?_⟩
    · intro hw
      simp [Written, hcheck] at hw
    · intro _
      rfl
  | ok u =>
    cases hwrite : writeConfigFile env.quote env.confFile cfg with
    | error err =>
      refine ⟨s, err, by simp only [UnboundServer.applyUnboundConfig, hcheck, hwrite], rfl,
        ?_, ?_⟩
      · intro hw
        simp [Written, hwrite] at hw
      · intro _
        rfl
    | ok text =>
      obtain rfl := (writeConfigFile_eq_ok hwrite).2
      have hw : Written env s cfg := ⟨hcheck, hwrite⟩
      cases hreload : env.reload with
      | ok u' => exact absurd ⟨hw, hreload⟩ h
      | error err =>
        refine ⟨{ s with conf := some (renderConfig cfg) },
          lit "unbound-control [reload]: " ++ err, ?_, rfl, fun _ => rfl,
          fun hn => absurd hw hn⟩
        simp only [UnboundServer.applyUnboundConfig, hcheck, hwrite, hs, hreload]

/-! ## Requests -/

variable {r : UnboundRequest} {answer : UnboundAnswer}

theorem isError_of_edit {cfg' : UnboundServerConfig} (h : r.edit cfg = .ok (cfg', answer)) :
    answer.isError = false := by
  cases r with
  | updateServer body =>
    cases body with
    | error err => cases h
    | ok content => cases h; rfl
  | addForwardZone body =>
    cases body with
    | error err => cases h
    | ok req =>
      simp only [UnboundRequest.edit, handleAddForwardZone] at h
      split at h
      · cases h
      · split at h <;> cases h
        rfl
  | updateForwardZone name body =>
    cases body with
    | error err => cases h
    | ok req =>
      simp only [UnboundRequest.edit, handleUpdateForwardZone] at h
      split at h <;> cases h
      rfl
  | deleteForwardZone name =>
    simp only [UnboundRequest.edit, handleDeleteForwardZone] at h
    split at h <;> cases h
    rfl

/-- Refused before anything is edited. -/
theorem handle_refused
    (h : ∀ cfg answer, s.supervisor ≠ none → r.edit s.getUnboundServerConfig ≠ .ok (cfg, answer)) :
    (s.handle env r).1 = s ∧ (s.handle env r).2.isError = true := by
  cases hs : s.supervisor with
  | none => simp [UnboundServer.handle, hs, UnboundAnswer.isError]
  | some sup =>
    have hsup : s.supervisor ≠ none := by simp [hs]
    cases he : r.edit s.getUnboundServerConfig with
    | error refusal => simp [UnboundServer.handle, hs, he, UnboundAnswer.isError]
    | ok asked => exact absurd he (h asked.1 asked.2 hsup)

theorem written_edited (s : UnboundServer) (cfg cfg' : UnboundServerConfig) :
    Written env (s.edited cfg) cfg' ↔ Written env s cfg' := by
  simp only [Written, check_edited]

theorem handle_accepted (hsup : s.supervisor ≠ none)
    (he : r.edit s.getUnboundServerConfig = .ok (cfg, answer)) (h : Accepted env s cfg) :
    (s.handle env r).2 = answer ∧ (s.handle env r).1.memory = some cfg ∧
      (s.handle env r).1.conf = some (renderConfig cfg) := by
  obtain ⟨sup, hs⟩ := Option.ne_none_iff_exists'.mp hsup
  have hsup' : (s.edited cfg).supervisor ≠ none := by simp [UnboundServer.edited, hs]
  have h' : Accepted env (s.edited cfg) cfg := ⟨(written_edited s cfg cfg).mpr h.1, h.2⟩
  obtain ⟨s', happly, hmem, hconf⟩ := applyUnboundConfig_accepted hsup' h'
  simp only [UnboundServer.handle, hs, he, happly]
  exact ⟨trivial, hmem, hconf⟩

theorem handle_rejected (hsup : s.supervisor ≠ none)
    (he : r.edit s.getUnboundServerConfig = .ok (cfg, answer)) (h : ¬Accepted env s cfg) :
    (s.handle env r).2.isError = true ∧
      (s.handle env r).1.memory = s.memory.map (fun _ => cfg) ∧
      (Written env s cfg → (s.handle env r).1.conf = some (renderConfig cfg)) ∧
      (¬Written env s cfg → (s.handle env r).1.conf = s.conf) := by
  obtain ⟨sup, hs⟩ := Option.ne_none_iff_exists'.mp hsup
  have hsup' : (s.edited cfg).supervisor ≠ none := by simp [UnboundServer.edited, hs]
  have h' : ¬Accepted env (s.edited cfg) cfg := fun ha =>
    h ⟨(written_edited s cfg cfg).mp ha.1, ha.2⟩
  obtain ⟨s', err, happly, hmem, hwritten, hnot⟩ := applyUnboundConfig_rejected hsup' h'
  rw [written_edited] at hwritten hnot
  rw [memory_edited] at hmem
  have hhandle : s.handle env r = (s', .error 400 err) := by
    simp only [UnboundServer.handle, hs, he, happly]
  rw [hhandle]
  exact ⟨rfl, hmem, hwritten, hnot⟩

/-- A request is refused at once, or it asks for a configuration. -/
theorem handle_cases (env : UnboundEnv) (s : UnboundServer) (r : UnboundRequest) :
    ((s.handle env r).1 = s ∧ (s.handle env r).2.isError = true) ∨
      ∃ cfg answer, s.supervisor ≠ none ∧ r.edit s.getUnboundServerConfig = .ok (cfg, answer) := by
  by_cases hrefused : ∀ cfg answer, s.supervisor ≠ none →
      r.edit s.getUnboundServerConfig ≠ .ok (cfg, answer)
  · exact .inl (handle_refused hrefused)
  · push Not at hrefused
    exact .inr hrefused

theorem Harmless.unchanged (h : Harmless env s r) (herror : (s.handle env r).2.isError = true) :
    (s.handle env r).1.memory = s.memory ∧ (s.handle env r).1.conf = s.conf := by
  rcases handle_cases env s r with ⟨hsame, -⟩ | ⟨cfg, answer, hsup, he⟩
  · rw [hsame]
    exact ⟨rfl, rfl⟩
  · by_cases haccepted : Accepted env s cfg
    · rw [(handle_accepted hsup he haccepted).1, isError_of_edit he] at herror
      cases herror
    · obtain ⟨-, hmem, hwritten, hnot⟩ := handle_rejected hsup he haccepted
      obtain ⟨hsame, hfile⟩ := h cfg answer hsup he haccepted
      constructor
      · rw [hmem]
        rcases hsame with hnone | hsome
        · rw [hnone]
          rfl
        · rw [hsome]
          rfl
      · by_cases hw : Written env s cfg
        · rw [hwritten hw, hfile hw]
        · exact hnot hw

/-- A rejected request is without effect exactly if it is harmless. -/
theorem rejected_edit_unchanged_iff (env : UnboundEnv) (s : UnboundServer) (r : UnboundRequest) :
    ((s.handle env r).2.isError = true →
      (s.handle env r).1.memory = s.memory ∧ (s.handle env r).1.conf = s.conf) ↔
      Harmless env s r := by
  constructor
  · intro hunchanged cfg answer hsup he hrejected
    obtain ⟨herror, hmem, hwritten, -⟩ := handle_rejected hsup he hrejected
    obtain ⟨hmem', hconf'⟩ := hunchanged herror
    rw [hmem] at hmem'
    refine ⟨?_, fun hw => hconf'.symm.trans (hwritten hw)⟩
    cases hs : s.memory with
    | none => exact .inl rfl
    | some old =>
      rw [hs] at hmem'
      exact .inr hmem'.symm
  · exact Harmless.unchanged

/-! ## A rejected zone stays -/

def smooth : UnboundEnv where
  quote value := value
  createTemp := .ok ()
  tempFile := ⟨.ok (), .ok ()⟩
  checkconf _ := .ok ()
  confFile := ⟨.ok (), .ok ()⟩
  reload := .ok ()

def freshConfig : UnboundServerConfig :=
  defaultServerConfig 5353 (lit "/var/run/unbound/unbound.sock")

def freshServer : UnboundServer where
  supervisor := some ⟨lit "/usr/sbin/unbound-checkconf", some freshConfig⟩
  conf := some (renderConfig freshConfig)
  listenPort := 5353
  controlSocket := lit "/var/run/unbound/unbound.sock"

def zoneRequest (addr : GoString) : UnboundRequest :=
  .addForwardZone (.ok { name := lit "lan", forwardAddrs := [addr] })

def withZone (addr : GoString) : UnboundServerConfig :=
  { freshConfig with forwardZones := [⟨lit "lan.", [addr], false, false⟩] }

def reloadFails : UnboundEnv := { smooth with reload := .error (lit "exit status 1") }

/-- An address that is refused, and a reload command that fails: the answer is an error, and the
zone is in memory, the second one in the file too. -/
theorem rejected_zone_stays :
    (freshServer.handle smooth (zoneRequest (lit "router"))).2.isError = true ∧
      (freshServer.handle smooth (zoneRequest (lit "router"))).1.memory =
        some (withZone (lit "router")) ∧
      (freshServer.handle reloadFails (zoneRequest (lit "10.0.0.1"))).2.isError = true ∧
      (freshServer.handle reloadFails (zoneRequest (lit "10.0.0.1"))).1.memory =
        some (withZone (lit "10.0.0.1")) ∧
      (freshServer.handle reloadFails (zoneRequest (lit "10.0.0.1"))).1.conf ≠
        freshServer.conf := by
  refine ⟨?_, rfl, ?_, rfl, ?_⟩
  · decide +kernel
  · decide +kernel
  · decide +kernel

end GloryHole.Api
