import GloryHole.Config.Proofs.RoundTrip
import GloryHole.Config.Watcher

/-!
# Convergence of the watcher

Both `Reload` and the debounce timer replace the configuration; only the timer runs the
callback.  So the callback has seen the configuration in force as long as no reload but
the timer's changes it.
-/

namespace GloryHole.Config.Watcher

open Go Support.Runs

variable {δ : Type} {hash : GoString → Option GoString} {yaml : Yaml δ} {env : Env}

/-- A reload now would change nothing: the file does not load, or it loads as the
configuration that is in force. -/
def Unchanged (hash : GoString → Option GoString) (yaml : Yaml δ) (env : Env)
    (w : Watcher δ) : Prop :=
  ∀ cfg, load hash yaml env w.file = .ok cfg → cfg = w.cfg

/-- The reloads that do no harm: one that changes nothing, one of the API while the callback
is still due, and one of the timer once there is a callback. -/
def Announced (hash : GoString → Option GoString) (yaml : Yaml δ) (env : Env)
    (w : Watcher δ) : WatcherStep δ → Prop
  | .reload => w.firing ∨ w.Unchanged hash yaml env
  | .expire => w.hasOnChange ∨ w.Unchanged hash yaml env
  | _ => True

theorem reloaded_getD_of_unchanged {w : Watcher δ} (h : w.Unchanged hash yaml env) :
    (w.reloaded hash yaml env).getD w.cfg = w.cfg := by
  unfold reloaded
  cases hload : load hash yaml env w.file with
  | error e => rfl
  | ok cfg => exact h cfg hload

def Seen (w : Watcher δ) : Prop := w.firing ∨ w.applied = w.cfg

theorem seen_expire {w : Watcher δ} (hcond : w.hasOnChange ∨ w.Unchanged hash yaml env)
    (hseen : w.Seen) : (w.step hash yaml env .expire).Seen := by
  simp only [step]
  split
  · rename_i hfires
    have happlied : w.applied = w.cfg := hseen.resolve_left hfires.2
    cases hreload : w.reloaded hash yaml env with
    | none => exact Or.inr happlied
    | some cfg =>
      rcases hcond with hcallback | hsame
      · exact Or.inl hcallback
      · have hcfg := reloaded_getD_of_unchanged hsame
        rw [hreload, Option.getD_some] at hcfg
        exact Or.inr (happlied.trans hcfg.symm)
  · exact hseen

theorem seen_step {w : Watcher δ} {i : WatcherStep δ} (hcond : w.Announced hash yaml env i)
    (hseen : w.Seen) : (w.step hash yaml env i).Seen := by
  cases i with
  | writeTemp data => exact hseen
  | rename =>
    simp only [step]
    split
    · exact hseen
    · exact hseen
  | reload =>
    rcases hcond with hfiring | hsame
    · exact Or.inl hfiring
    · rcases hseen with hfiring | happlied
      · exact Or.inl hfiring
      · exact Or.inr (happlied.trans (reloaded_getD_of_unchanged hsame).symm)
  | edit data ops | replace data | register => exact hseen
  | deliver =>
    simp only [step, receive]
    grind [Seen]
  | expire => exact seen_expire hcond hseen
  | callback =>
    simp only [step]
    split
    · exact Or.inr rfl
    · exact hseen

/-- Whatever the API, other programs, the kernel and the loop do after the start: if every
reload is announced, the configuration in force in a quiescent state is the one last passed
to the callback. -/
theorem applied_eq_cfg_of_quiescent (hash : GoString → Option GoString) (yaml : Yaml δ)
    (env : Env) (cfg : Config) (data : δ) (steps : List (WatcherStep δ))
    (hrun : AllSteps (step hash yaml env) (Announced hash yaml env) (newWatcher cfg data) steps) :
    ∀ w ∈ states (step hash yaml env) (newWatcher cfg data) steps,
      w.Quiescent → w.applied = w.cfg := by
  intro w hw hquiet
  have hseen : w.Seen :=
    invariant_states (fun _ _ => seen_step) hrun (Or.inr rfl) w hw
  rw [Seen, hquiet.2.2] at hseen
  exact hseen.resolve_left Bool.false_ne_true

def editRun (data : Config) : List (WatcherStep Config) :=
  [.register, .edit data [.write], .deliver, .expire, .callback]

theorem applied_eq_cfg_of_quiescent_edit :
    (states (step (fun _ => none) plainYaml {}) (newWatcher settledConfig settledConfig)
        (editRun { settledConfig with blocklists := [lit "https://example.com/list"] })).Forall
      fun w => w.Quiescent → w.applied = w.cfg :=
  List.forall_iff_forall_mem.mpr <|
    applied_eq_cfg_of_quiescent (fun _ => none) plainYaml {} settledConfig settledConfig _
      ⟨trivial, trivial, trivial, Or.inl rfl, trivial, trivial⟩

/-! ## After a save of the API -/

/-- Without a watch, an event, a timer and a callback there is nothing left that could run
the callback. -/
def Deaf (w : Watcher δ) : Prop :=
  w.watched = false ∧ (∀ op ∈ w.events, op = .other) ∧ w.timer = false ∧ w.firing = false

theorem deaf_step {w : Watcher δ} (hdeaf : w.Deaf) (i : WatcherStep δ) :
    (w.step hash yaml env i).Deaf ∧ (w.step hash yaml env i).applied = w.applied := by
  obtain ⟨hwatched, hevents, htimer, hfiring⟩ := hdeaf
  cases i with
  | writeTemp _ | reload | register => exact ⟨⟨hwatched, hevents, htimer, hfiring⟩, rfl⟩
  | rename =>
    simp only [step, replaceFile]
    cases w.temp with
    | none => exact ⟨⟨hwatched, hevents, htimer, hfiring⟩, rfl⟩
    | some data =>
      rw [hwatched]
      exact ⟨⟨rfl, hevents, htimer, hfiring⟩, rfl⟩
  | edit data ops =>
    simp only [step, and_true]
    rw [hwatched]
    exact ⟨rfl, hevents, htimer, hfiring⟩
  | replace data =>
    simp only [step, replaceFile, and_true]
    rw [hwatched]
    exact ⟨rfl, hevents, htimer, hfiring⟩
  | deliver =>
    simp only [step, receive]
    rw [hfiring]
    cases hqueue : w.events with
    | nil => exact ⟨⟨hwatched, hevents, htimer, hfiring⟩, rfl⟩
    | cons op events =>
      rw [hqueue, List.forall_mem_cons] at hevents
      refine ⟨⟨hwatched, hevents.2, ?_, rfl⟩, rfl⟩
      simp [htimer, hevents.1]
  | expire =>
    simp only [step]
    simp only [htimer, Bool.false_eq_true, false_and, if_false, and_true]
    exact ⟨hwatched, hevents, htimer, hfiring⟩
  | callback =>
    simp only [step]
    simp only [hfiring, Bool.false_eq_true, if_false, and_true]
    exact ⟨hwatched, hevents, htimer, hfiring⟩

/-- Once the path has been replaced and the last write has been handled, no save and no
edit reaches the callback again. -/
theorem applied_exec_of_deaf {w : Watcher δ} (hdeaf : w.Deaf) (steps : List (WatcherStep δ)) :
    (exec (step hash yaml env) w steps).applied = w.applied := by
  induction steps generalizing w with
  | nil => rfl
  | cons i steps ih =>
    obtain ⟨hnext, happlied⟩ := @deaf_step δ hash yaml env w hdeaf i
    rw [exec_cons, ih hnext, happlied]

def saveRun (data : Config) : List (WatcherStep Config) :=
  [.register, .writeTemp data, .rename, .reload, .deliver, .deliver]

def otherUpstreams : Config := { settledConfig with upstreamDNSServers := [lit "9.9.9.9:53"] }

/-- An edit of the file after a save. -/
theorem applied_exec_of_deaf_edit :
    let w := exec (step (fun _ => none) plainYaml {}) (newWatcher settledConfig settledConfig)
      (saveRun otherUpstreams)
    w.Deaf ∧ (exec (step (fun _ => none) plainYaml {}) w (editRun settledConfig)).applied =
      w.applied :=
  have hdeaf : Deaf _ := ⟨rfl, by decide +kernel, rfl, rfl⟩
  ⟨hdeaf, applied_exec_of_deaf hdeaf _⟩

/-- The saved upstreams are in force for the watcher and unknown to the callback. -/
theorem save_not_applied :
    let w := exec (step (fun _ => none) plainYaml {}) (newWatcher settledConfig settledConfig)
      (saveRun otherUpstreams)
    w.Quiescent ∧ w.cfg = otherUpstreams ∧ w.applied = settledConfig ∧ w.applied ≠ w.cfg := by
  have hload : load (fun _ => none) plainYaml {} otherUpstreams = .ok otherUpstreams := by
    decide +kernel
  have hne : settledConfig ≠ otherUpstreams := by decide
  simp [saveRun, exec, step, replaceFile, receive, newWatcher, reloaded, hload, Quiescent, hne,
    Except.toOption]

end GloryHole.Config.Watcher
