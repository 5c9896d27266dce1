import GloryHole.Blocklist.Concurrent
import GloryHole.Blocklist.Proofs.Blocking
import GloryHole.Pattern.Proofs.Tiers
import GloryHole.Support.Runs

/-!
# What a refresh leaves

A call of `Update` that nothing disturbs does what the sequential model does.  When the list
reflects the configuration after a call has returned, whatever other calls run beside it; and
when a refresh in which every download fails leaves the answers of `Match` alone.
-/

namespace GloryHole.Blocklist

open Go FlatBlocklist Support.Runs

/-! ## A call alone -/

variable {responses : List Response} {m : Manager} {compile : GoString → Option (GoString → Bool)}

theorem exec_updateSteps (lower : Nat → Nat) {w : World} {t : Nat} (hidle : w.updates t = .idle)
    (hfree : w.locked = false) (hupdate : w.manager.update responses = some m) :
    (exec (World.step lower) w (updateSteps t responses)).manager = m := by
  unfold Manager.update at hupdate
  by_cases hnil : w.manager.blocklists = []
  · rw [if_pos hnil] at hupdate
    cases hupdate
    simp [updateSteps, World.step, hidle, hnil]
  · rw [if_neg hnil, Option.map_eq_some_iff] at hupdate
    obtain ⟨flat, hflat, rfl⟩ := hupdate
    simp [updateSteps, World.step, World.setUpdate, hidle, hnil, hfree, hflat]

/-! ## The configuration -/

section

variable {lower : Nat → Nat} {served : GoString → Response → Prop}

/-- The list is the merge of what the configured sources have served. -/
def Reflects (served : GoString → Response → Prop) (m : Manager) : Prop :=
  ∃ responses, List.Forall₂ served m.blocklists responses ∧
    downloadAndMerge m.blocklists responses = some m.current

def OnTrack (served : GoString → Response → Prop) (m : Manager) : UpdatePhase → Prop
  | .idle | .checked | .holding => True
  | .downloading urls => urls = m.blocklists
  | .merged gen flat =>
    gen.urls = m.blocklists ∧ List.Forall₂ served gen.urls gen.responses ∧
      downloadAndMerge gen.urls gen.responses = some flat
  | .published | .naming _ | .named => Reflects served m

/-- No call of `Update` is under way when the configuration changes, or when another begins
to take the lock; with no sources configured, the list is empty already. -/
def Orderly (served : GoString → Response → Prop) (w : World) : Action → Prop
  | .updateConfig _ => ∀ t, w.updates t = .idle
  | .begin _ => w.manager.blocklists = [] → w.manager.current = {}
  | .tryLock _ => w.locked = false
  | .download t responses =>
    ∀ urls, w.updates t = .downloading urls → List.Forall₂ served urls responses
  | _ => True

def AllOnTrack (served : GoString → Response → Prop) (w : World) : Prop :=
  ∀ t, OnTrack served w.manager (w.updates t)

theorem OnTrack.mono {m m' : Manager} {phase : UpdatePhase} (h : OnTrack served m phase)
    (hurls : m'.blocklists = m.blocklists) (hreflects : Reflects served m → Reflects served m') :
    OnTrack served m' phase := by
  cases phase with
  | idle | checked | holding => trivial
  | downloading urls => exact h.trans hurls.symm
  | merged gen flat => exact ⟨h.1.trans hurls.symm, h.2⟩
  | published | naming names | named => exact hreflects h

/-- A step of one call, which the others do not notice. -/
theorem AllOnTrack.update {w : World} (h : AllOnTrack served w) {m : Manager} (t : Nat)
    {phase : UpdatePhase} (hurls : m.blocklists = w.manager.blocklists)
    (hreflects : Reflects served w.manager → Reflects served m)
    (hphase : OnTrack served m phase) (t' : Nat) :
    OnTrack served m (Function.update w.updates t phase t') := by
  by_cases heq : t' = t
  · rw [heq, Function.update_self]
    exact hphase
  · rw [Function.update_of_ne heq]
    exact (h t').mono hurls hreflects

theorem AllOnTrack.setUpdate {w : World} (h : AllOnTrack served w) (t : Nat)
    {phase : UpdatePhase} (hphase : OnTrack served w.manager phase) :
    AllOnTrack served (w.setUpdate t phase) :=
  h.update t rfl id hphase

theorem AllOnTrack.step {w : World} {a : Action} (horderly : Orderly served w a)
    (h : AllOnTrack served w) : AllOnTrack served (w.step lower a) := by
  cases a with
  | updateConfig urls =>
    intro t
    change OnTrack served _ (w.updates t)
    rw [horderly t]
    trivial
  | begin t =>
    rw [World.step]
    split
    · split
      · exact h
      · exact h.setUpdate t trivial
    · exact h
  | tryLock t =>
    rw [World.step]
    split
    · split
      · exact h.setUpdate t trivial
      · exact h.setUpdate t trivial
    · exact h
  | readURLs t =>
    rw [World.step]
    split
    · exact h.setUpdate t rfl
    · exact h
  | download t responses =>
    rw [World.step]
    split
    · rename_i urls hphase
      split
      · rename_i flat hflat
        have hurls : urls = w.manager.blocklists := by
          have htrack := h t
          rw [hphase] at htrack
          exact htrack
        exact h.setUpdate t ⟨hurls, horderly urls hphase, hflat⟩
      · exact h
    · exact h
  | publish t =>
    rw [World.step]
    split
    · rename_i gen flat hphase
      have htrack := h t
      rw [hphase] at htrack
      obtain ⟨hurls, hserved, hflat⟩ := htrack
      rw [hurls] at hserved hflat
      have hreflects : Reflects served
          { w.manager with current := flat, lastSize := flat.len } :=
        ⟨gen.responses, hserved, hflat⟩
      exact h.update t rfl (fun _ => hreflects) hreflects
    · exact h
  | readNames t =>
    rw [World.step]
    split
    · rename_i hphase
      have htrack := h t
      rw [hphase] at htrack
      exact h.setUpdate t htrack
    · exact h
  | storeNames t =>
    rw [World.step]
    split
    · rename_i names hphase
      have htrack := h t
      rw [hphase] at htrack
      exact h.update t rfl id htrack
    · exact h
  | finish t =>
    rw [World.step]
    split
    · exact h.setUpdate t trivial
    · exact h
  | search t query =>
    rw [World.step]
    unfold World.search
    split
    · exact h
    · split
      · exact h
      · split
        · exact h
        · exact h
  | answer t =>
    rw [World.step]
    split
    · exact h
    · exact h

/-- A call that returns leaves a list that reflects the configuration. -/
theorem AllOnTrack.reflects {w : World} {a : Action} (h : AllOnTrack served w)
    (horderly : Orderly served w a) (hreturns : w.Returns a) :
    Reflects served (w.step lower a).manager := by
  cases a with
  | begin t =>
    obtain ⟨hidle, hnil⟩ := hreturns
    simp only [World.step, hidle, hnil, if_true]
    refine ⟨[], ?_, ?_⟩
    · rw [hnil]
      exact List.Forall₂.nil
    · rw [hnil, horderly hnil]
      rfl
  | tryLock t =>
    have hfree : w.locked = false := horderly
    have hlocked := hreturns.2
    rw [hfree] at hlocked
    cases hlocked
  | finish t =>
    have hnamed : w.updates t = .named := hreturns
    have htrack := h t
    rw [hnamed] at htrack
    simp only [World.step, hnamed]
    exact htrack
  | _ => exact absurd hreturns id

end

/-- In an orderly run, a call of `Update` that returns as the last step leaves the merge of
the sources that are configured then. -/
theorem orderly_update_reflects_config (lower : Nat → Nat) (served : GoString → Response → Prop)
    (urls : List GoString) (patterns : Option Pattern.Matcher) (actions : List Action)
    (last : Action)
    (horderly : AllSteps (World.step lower) (Orderly served) (World.start urls patterns)
      (actions ++ [last]))
    (hreturns : (exec (World.step lower) (World.start urls patterns) actions).Returns last) :
    Reflects served
      (exec (World.step lower) (World.start urls patterns) (actions ++ [last])).manager := by
  have hstart : AllOnTrack served (World.start urls patterns) := fun t => trivial
  have hstep : ∀ w a, Orderly served w a → AllOnTrack served w →
      AllOnTrack served (w.step lower a) := fun w a ha hw => hw.step ha
  rw [allSteps_append] at horderly
  rw [exec_append]
  have htrack := invariant_exec hstep horderly.1 hstart
  exact htrack.reflects horderly.2.1 hreturns

/-! ## Instances of it -/

def twoLists (url : GoString) (response : Response) : Prop :=
  (url = lit "one" ∧ response = some (lit "a.com")) ∨
    (url = lit "two" ∧ response = some (lit "b.com"))

theorem undisturbed_update_reflects_config :
    Reflects twoLists (exec (World.step id) (World.start [lit "one"] none)
      ([Action.begin 0, .tryLock 0, .readURLs 0, .download 0 [some (lit "a.com")], .publish 0,
        .readNames 0, .storeNames 0] ++ [Action.finish 0])).manager := by
  apply orderly_update_reflects_config
  · refine ⟨fun h => absurd h (by decide), rfl, trivial, ?_, trivial, trivial, trivial, trivial,
      trivial⟩
    rintro urls ⟨⟩
    exact List.Forall₂.cons (Or.inl ⟨rfl, rfl⟩) List.Forall₂.nil
  · rfl

theorem not_reflects_of_nil {served : GoString → Response → Prop} (hnil : m.blocklists = [])
    (hsome : m.current.len ≠ 0) : ¬ Reflects served m := by
  rintro ⟨responses, -, hmerge⟩
  rw [hnil] at hmerge
  have hempty : m.current = {} := (Option.some.inj hmerge).symm
  rw [hempty] at hsome
  exact hsome rfl

/-- The last source is removed and the list stays; or a call is skipped while another one
still downloads what was configured before. -/
theorem update_returns_without_effect :
    (¬ Reflects twoLists (exec (World.step id) (World.start [lit "one"] none)
      (updateSteps 0 [some (lit "a.com")] ++ [Action.updateConfig []] ++
        [Action.begin 1])).manager ∧
      (exec (World.step id) (World.start [lit "one"] none)
        (updateSteps 0 [some (lit "a.com")] ++ [Action.updateConfig []])).Returns (.begin 1)) ∧
    ¬ Reflects twoLists (exec (World.step id) (World.start [lit "one"] none)
      ([Action.begin 0, .tryLock 0, .readURLs 0, .updateConfig [lit "two"], .begin 1] ++
        [Action.tryLock 1])).manager ∧
      (exec (World.step id) (World.start [lit "one"] none)
        [.begin 0, .tryLock 0, .readURLs 0, .updateConfig [lit "two"], .begin 1]).Returns
          (.tryLock 1) := by
  refine ⟨⟨?_, rfl, rfl⟩, ?_, rfl, rfl⟩
  · exact not_reflects_of_nil rfl (by decide)
  · rintro ⟨responses, hserved, hmerge⟩
    have hserved : List.Forall₂ twoLists [lit "two"] responses := hserved
    obtain ⟨response, rest, hresponse, hrest, rfl⟩ := List.forall₂_cons_left_iff.mp hserved
    cases hrest
    rcases hresponse with ⟨hone, -⟩ | ⟨-, rfl⟩
    · exact absurd hone (by decide)
    · exact absurd hmerge (by decide)

/-! ## A refresh in which every download fails -/

theorem raw_parsePattern {text : GoString} {p : Pattern.Pattern}
    (h : Pattern.parsePattern compile text = some p) : p.raw ≠ [] := by
  unfold Pattern.parsePattern at h
  split at h
  · cases h
  · rename_i hne
    split at h
    · cases h
      exact hne
    · split at h
      · obtain ⟨re, -, rfl⟩ := Option.map_eq_some_iff.mp h
        exact hne
      · cases h
        exact hne

theorem raw_matchPattern {texts : List GoString} {matcher : Pattern.Matcher}
    (h : Pattern.newMatcher compile texts = some matcher) {domain : GoString} {p : Pattern.Pattern}
    (hp : matcher.matchPattern domain = some p) :
    p.raw ≠ [] := by
  obtain ⟨ps, hps, rfl⟩ := Option.map_eq_some_iff.mp h
  have hraw : ∀ p ∈ ps, p.raw ≠ [] :=
    Support.Lists.forall_of_mapM_eq_some hps fun _ _ hp => raw_parsePattern hp
  exact hraw p (Pattern.of_matchPattern hps hp).1

def PatternsSet (compile : GoString → Option (GoString → Bool)) (m : Manager) : Prop :=
  ∀ matcher, m.patterns = some matcher → ∃ texts, Pattern.newMatcher compile texts = some matcher

theorem downloadLists_of_all_fail {urls : List GoString}
    (hfail : ∀ r ∈ responses, r.bind downloadSorted = none) :
    downloadLists urls responses = [] := by
  unfold downloadLists
  rw [List.filterMap_eq_nil_iff]
  intro entry hentry
  have hmem : entry.1 ∈ urls.zip responses := List.fst_mem_of_mem_zipIdx hentry
  unfold downloadList
  rw [hfail _ (List.of_mem_zip hmem).2]

theorem update_of_all_fail (hfail : ∀ r ∈ responses, r.bind downloadSorted = none)
    (hne : m.blocklists ≠ []) :
    m.update responses = some
      { m with
        current := {}, lastSize := 0
        sourceNames := m.blocklists.take maxTrackedSources } := by
  unfold Manager.update downloadAndMerge
  rw [if_neg hne, if_neg hne, downloadLists_of_all_fail hfail]
  rfl

def Manager.patternResult (m : Manager) (lower : Nat → Nat) (q : GoString) : MatchResult :=
  match m.patterns.bind (·.matchPattern (queryName lower q).dropLast) with
  | some p =>
    { blocked := true, kind := some (patternKind p.type), pattern := p.raw,
      sources := [lit "pattern"] }
  | none => {}

theorem matchDomain_eq (lower : Nat → Nat) (m : Manager) {q : GoString} (hq : q ≠ []) :
    m.matchDomain lower q =
      match m.current.lookupSubdomains (queryName lower q) with
      | some (mask, kind) => m.listResult mask kind
      | none => m.patternResult lower q := by
  unfold Manager.matchDomain
  rw [if_neg hq]
  rfl

/-- A pattern has a text, which the answer shows; the answer for a listed name shows none. -/
theorem patternResult_ne_listResult {lower : Nat → Nat} (hpatterns : PatternsSet compile m)
    (q : GoString) (mask : UInt64) (kind : Kind) :
    m.patternResult lower q ≠ m.listResult mask kind := by
  unfold Manager.patternResult
  cases hmatch : m.patterns.bind (·.matchPattern (queryName lower q).dropLast) with
  | none =>
    intro heq
    exact absurd (congrArg MatchResult.blocked heq) (by simp [Manager.listResult])
  | some p =>
    intro heq
    obtain ⟨matcher, hmatcher, hp⟩ := Option.bind_eq_some_iff.mp hmatch
    obtain ⟨texts, htexts⟩ := hpatterns matcher hmatcher
    exact raw_matchPattern htexts hp (congrArg MatchResult.pattern heq)

/-- The empty list leaves every name to the patterns. -/
theorem matchDomain_empty_eq_iff (lower : Nat → Nat) (hpatterns : PatternsSet compile m)
    (names : List GoString) {q : GoString} (hq : q ≠ []) :
    Manager.matchDomain lower
        { m with current := {}, lastSize := 0, sourceNames := names } q =
        m.matchDomain lower q ↔
      m.current.lookupSubdomains (queryName lower q) = none := by
  rw [matchDomain_eq lower _ hq, matchDomain_eq lower m hq]
  have hempty : FlatBlocklist.lookupSubdomains {} (queryName lower q) = none := rfl
  rw [hempty]
  cases m.current.lookupSubdomains (queryName lower q) with
  | none => exact iff_of_true rfl rfl
  | some found =>
    obtain ⟨mask, kind⟩ := found
    exact iff_of_false (patternResult_ne_listResult hpatterns q mask kind) (by simp)

/-- A refresh in which every download fails leaves the answers as they were just if there is
nothing to download or the list blocks nothing. -/
theorem failed_refresh_keeps_answers_iff (compile : GoString → Option (GoString → Bool))
    (lower : Nat → Nat) (m : Manager) (hpatterns : PatternsSet compile m)
    (responses : List Response) (hfail : ∀ r ∈ responses, r.bind downloadSorted = none) :
    (∃ m', m.update responses = some m' ∧
        ∀ q, m'.matchDomain lower q = m.matchDomain lower q) ↔
      m.blocklists = [] ∨ ∀ q, q ≠ [] → m.current.lookupSubdomains (queryName lower q) = none := by
  by_cases hnil : m.blocklists = []
  · have hupdate : m.update responses = some m := if_pos hnil
    exact iff_of_true ⟨m, hupdate, fun _ => rfl⟩ (Or.inl hnil)
  · rw [update_of_all_fail hfail hnil]
    simp only [Option.some.injEq, exists_eq_left', hnil, false_or]
    apply forall_congr'
    intro q
    by_cases hq : q = []
    · exact iff_of_true (by simp [Manager.matchDomain, hq]) (fun h => absurd hq h)
    · rw [matchDomain_empty_eq_iff lower hpatterns _ hq]
      exact ⟨fun h _ => h, fun h => h hq⟩

def adsManager : Manager where
  blocklists := [lit "one"]
  current := pack [(lit "ads.com.", 1)]
  sourceNames := [lit "one"]

/-- A manager with a pattern that has not downloaded anything yet. -/
theorem failed_first_download_keeps_answers :
    let m : Manager :=
      { blocklists := [lit "one"]
        patterns := Pattern.newMatcher (fun _ => none) [lit "*.ads.com"] }
    (m.matchDomain id (lit "www.ads.com.")).blocked = true ∧
      ∃ m', m.update [none] = some m' ∧ ∀ q, m'.matchDomain id q = m.matchDomain id q :=
  ⟨by decide, (failed_refresh_keeps_answers_iff (fun _ => none) id _
    (fun _ h => ⟨[lit "*.ads.com"], h⟩) [none] (by decide)).mpr (Or.inr fun q _ => rfl)⟩

theorem failed_refresh_unblocks :
    (adsManager.matchDomain id (lit "ads.com.")).blocked = true ∧
      (adsManager.update [none]).map (fun m => (m.matchDomain id (lit "ads.com.")).blocked) =
        some false := by
  decide

end GloryHole.Blocklist
