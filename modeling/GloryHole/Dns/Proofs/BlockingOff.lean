import GloryHole.Config.Proofs.RoundTrip
import GloryHole.Dns.Blocking
import GloryHole.Support.Runs

/-!
# A query that starts while the blocklist is off

Block answers come from the blocklist, which a query asks if the switches were on when it read
them, and from the cache, which holds the answers of such queries.  While the blocklist is off
there are neither, if the request that switched it off has cleared the cache and no query that had
read the switches before stores its answer afterwards.
-/

namespace GloryHole.Dns.Blocking

open Go Policy Support.Runs
open Api (ConfigState FeaturesRequest)
open Config (Config CacheConfig Env Yaml)

variable {δ : Type} {hash : GoString → Option GoString} {yaml : Yaml δ} {env : Env}

/-! ## The invariant -/

def Phase.On : Phase → Prop
  | .toggled t => t.enableBlocklist = true
  | .evaluated enableBlocklist => enableBlocklist = true
  | .blocked _ => True
  | _ => False

/-- The query has read a configuration with the blocklist on, and no kill-switch so far. -/
def Phase.ConfigOn : Phase → Prop
  | .configRead t => t.enableBlocklist = true
  | phase => phase.On

def Phase.Undecided : Phase → Prop
  | .forwarding _ => False
  | _ => True

def Clean (c : Cache.Interface Source) : Prop := c.Holds fun _ _ origin => origin ≠ .blocklist

structure FlightOk (s : Site δ) (f : Flight) : Prop where
  switch : s.offSwitch = true → ¬ f.phase.On
  features : s.offFeatures = true → ¬ f.phase.ConfigOn
  started : f.startedOff = true → f.phase.Undecided → s.off = true

structure Inv (s : Site δ) : Prop where
  switch : s.offSwitch = true → s.isBlocklistDisabled = true
  features : s.offFeatures = true → s.config.config.server.enableBlocklist = false
  flights : ∀ id f, s.flights id = some f → FlightOk s f
  clean : s.off = true → ∀ c, s.cache = some c → Clean c
  answered : ∀ v ∈ s.answered, v.startedOff = true → v.served.source ≠ .blocklist

theorem Phase.configOn_of_on {phase : Phase} (h : phase.On) : phase.ConfigOn := by
  cases phase <;> first | exact h | exact h.elim

/-- Nothing else of the site counts for a query in flight. -/
theorem FlightOk.frame {s s' : Site δ} {f : Flight} (h : FlightOk s f)
    (hswitch : s'.offSwitch = s.offSwitch) (hfeatures : s'.offFeatures = s.offFeatures) :
    FlightOk s' f := by
  refine ⟨?_, ?_, ?_⟩
  · rw [hswitch]
    exact h.switch
  · rw [hfeatures]
    exact h.features
  · unfold Site.off
    rw [hswitch, hfeatures]
    exact h.started

theorem FlightOk.not_on {s : Site δ} {f : Flight} (h : FlightOk s f) (hoff : s.off = true) :
    ¬ f.phase.On := by
  rcases Bool.or_eq_true_iff.mp hoff with hswitch | hfeatures
  · exact h.switch hswitch
  · exact fun hon => h.features hfeatures (Phase.configOn_of_on hon)

namespace Inv

variable {s : Site δ}

theorem setFlight (h : Inv s) (id : Nat) {f : Option Flight}
    (hf : ∀ f', f = some f' → FlightOk s f') : Inv (s.setFlight id f) := by
  refine ⟨h.switch, h.features, ?_, h.clean, h.answered⟩
  intro id' f' hf'
  by_cases heq : id' = id
  · subst heq
    simp only [Site.setFlight, Function.update_self] at hf'
    exact (hf f' hf').frame rfl rfl
  · simp only [Site.setFlight, Function.update_of_ne heq] at hf'
    exact (h.flights id' f' hf').frame rfl rfl

theorem enter (h : Inv s) (id : Nat) {f : Flight} (hf : FlightOk s f) :
    Inv (s.setFlight id (some f)) := by
  apply h.setFlight id
  rintro f' ⟨⟩
  exact hf

theorem leave (h : Inv s) (id : Nat) : Inv (s.setFlight id none) := by
  apply h.setFlight id
  intro f' hf'
  cases hf'

theorem answer (h : Inv s) {f : Flight} {msg : Msg} {source : Source} {cached : Bool}
    (hsource : f.startedOff = true → source ≠ .blocklist) :
    Inv (s.answer f msg source cached) := by
  refine ⟨h.switch, h.features, ?_, h.clean, ?_⟩
  · exact fun id f' hf' => (h.flights id f' hf').frame rfl rfl
  · intro v hv
    rcases List.mem_append.mp hv with hv | hv
    · exact h.answered v hv
    · obtain rfl := List.mem_singleton.mp hv
      exact hsource

theorem updateCache (h : Inv s) {f : Cache.Interface Source → Cache.Interface Source}
    (hf : s.off = true → ∀ c, s.cache = some c → Clean c → Clean (f c)) :
    Inv (s.updateCache f) := by
  refine ⟨h.switch, h.features, ?_, ?_, h.answered⟩
  · exact fun id f' hf' => (h.flights id f' hf').frame rfl rfl
  · intro hoff c hc
    obtain ⟨c', hc', rfl⟩ := Option.map_eq_some_iff.mp hc
    exact hf hoff c' hc' (h.clean hoff c' hc')

theorem setRequest (h : Inv s) (id : Nat) (r : Option Request) : Inv (s.setRequest id r) := by
  refine ⟨h.switch, h.features, ?_, h.clean, h.answered⟩
  exact fun id' f' hf' => (h.flights id' f' hf').frame rfl rfl

theorem clearShared (h : Inv s) : Inv s.clearShared := by
  unfold Site.clearShared
  split
  · exact h.updateCache fun _ c _ _ => Cache.Interface.clear_holds c
  · exact h

theorem cleared (h : Inv s) (clears : Bool) : Inv (if clears then s.clearShared else s) := by
  cases clears with
  | false => exact h
  | true => exact h.clearShared

end Inv

/-! ## Queries -/

section

variable {s : Site δ} {id : Nat} {f : Flight}

theorem arrive_inv (h : Inv s) (id : Nat) (query : Query) : Inv (s.arrive id query) := by
  simp only [Site.arrive]
  split
  · exact h.answer fun _ => Source.noConfusion
  · split
    · exact h.answer fun _ => Source.noConfusion
    · apply h.enter id
      exact ⟨fun _ => not_false, fun _ => not_false, fun hoff _ => hoff⟩

/-- A query keeps what it has read, or drops it. -/
theorem FlightOk.move {phase : Phase} {rule : Option Rule} (h : FlightOk s f)
    (hon : phase.On → f.phase.On) (hconfig : phase.ConfigOn → f.phase.ConfigOn)
    (hundecided : phase.Undecided → f.phase.Undecided) :
    FlightOk s { f with rule := rule, phase := phase } :=
  ⟨fun hoff h' => h.switch hoff (hon h'), fun hoff h' => h.features hoff (hconfig h'),
    fun hoff h' => h.started hoff (hundecided h')⟩

theorem evaluate_inv {t : Toggles} (h : Inv s) (hf : FlightOk s f) (hphase : f.phase = .toggled t) :
    Inv (s.evaluate id f t) := by
  have hpass (rule : Option Rule) :
      FlightOk s { f with rule := rule, phase := .evaluated t.enableBlocklist } := by
    apply hf.move
    · rw [hphase]
      exact fun hon => hon
    · rw [hphase]
      exact fun hon => hon
    · rw [hphase]
      exact fun _ => trivial
  unfold Site.evaluate
  simp only
  split
  · apply h.enter id
    exact hpass f.rule
  · split
    · exact (h.leave id).answer fun _ => Source.noConfusion
    · apply h.enter id
      exact hf.move False.elim False.elim False.elim
    · apply h.enter id
      exact hpass _

theorem isBlocked_off {libs : Libraries} {deps : Deps} {policies : Bool} {domain : GoString} :
    isBlocked libs (Toggles.apply ⟨policies, false⟩ deps) domain = false := by
  simp [isBlocked, Toggles.apply]

theorem checkBlocklist_inv {enableBlocklist : Bool} (h : Inv s) (hf : FlightOk s f)
    (hphase : f.phase = .evaluated enableBlocklist) :
    Inv (s.checkBlocklist id f enableBlocklist) := by
  unfold Site.checkBlocklist
  simp only
  split
  · rename_i hblocked
    -- Only a query that read the switches as on gets here.
    have hon : f.phase.On := by
      rw [hphase]
      by_contra hoff
      rw [Phase.On, Bool.not_eq_true] at hoff
      rw [hoff, isBlocked_off] at hblocked
      cases hblocked
    apply h.enter id
    exact hf.move (fun _ => hon) (fun _ => Phase.configOn_of_on hon)
      (fun _ => by rw [hphase]; trivial)
  · apply h.enter id
    exact hf.move False.elim False.elim (fun _ => by rw [hphase]; trivial)

theorem store_inv {msg : Msg} (h : Inv s) (hf : FlightOk s f) (hphase : f.phase = .blocked msg)
    (order : List GoString) : Inv (s.store id f msg order) := by
  have hon : f.phase.On := by
    rw [hphase]
    trivial
  have hnot : s.off ≠ true := fun hoff => hf.not_on hoff hon
  unfold Site.store
  refine ((h.updateCache fun hoff => absurd hoff hnot).leave id).answer fun hstarted => ?_
  refine absurd (hf.started hstarted ?_) hnot
  rw [hphase]
  trivial

theorem lookup_inv (h : Inv s) (hf : FlightOk s f) (hphase : f.phase = .unblocked) :
    Inv (s.lookup id f) := by
  have hcache := h.updateCache
    (f := fun c => (c.getWithTrace f.query.request s.now).1)
    fun _ c _ hclean => (hclean.getWithTrace f.query.request s.now).1
  unfold Site.lookup
  simp only
  split
  · rename_i msg source hhit
    refine (hcache.leave id).answer fun hstarted => ?_
    have hoff : s.off = true := by
      refine hf.started hstarted ?_
      rw [hphase]
      trivial
    obtain ⟨c, hc, hget⟩ := Option.bind_eq_some_iff.mp hhit
    exact ((h.clean hoff c hc).getWithTrace f.query.request s.now).2 msg source hget
  · split
    · apply hcache.enter id
      exact ⟨fun _ => not_false, fun _ => not_false, fun _ => False.elim⟩
    · exact (hcache.leave id).answer fun _ => Source.noConfusion

theorem reply_inv {route : Route} (h : Inv s) (resp : Option Msg) (order : List GoString) :
    Inv (s.reply id f route resp order) := by
  unfold Site.reply
  cases resp with
  | none => exact (h.leave id).answer fun _ => Source.noConfusion
  | some resp =>
    refine ((h.updateCache fun _ c _ hclean => ?_).leave id).answer fun _ => Source.noConfusion
    exact Cache.Interface.Holds.set hclean order s.now fun _ => Source.noConfusion

theorem advance_inv (h : Inv s) (id : Nat) (resp : Option Msg) (order : List GoString) :
    Inv (s.advance id resp order) := by
  unfold Site.advance
  cases hf : s.flights id with
  | none => exact h
  | some f =>
    have hok := h.flights id f hf
    simp only
    cases hphase : f.phase with
    | arrived =>
      apply h.enter id
      refine ⟨fun _ => not_false, fun hoff hon => ?_, fun hstarted _ => hok.started hstarted ?_⟩
      · have hread : s.config.config.server.enableBlocklist = true := hon
        rw [h.features hoff] at hread
        cases hread
      · rw [hphase]
        trivial
    | configRead t =>
      apply h.enter id
      refine ⟨fun hoff hon => ?_, fun hoff hon => ?_, fun hstarted _ => hok.started hstarted ?_⟩
      · have hread : (t.enableBlocklist && !s.isBlocklistDisabled) = true := hon
        rw [h.switch hoff] at hread
        simp at hread
      · have hread : (t.enableBlocklist && !s.isBlocklistDisabled) = true := hon
        refine hok.features hoff ?_
        rw [hphase]
        exact (Bool.and_eq_true_iff.mp hread).1
      · rw [hphase]
        trivial
    | toggled t => exact evaluate_inv h hok hphase
    | evaluated enableBlocklist => exact checkBlocklist_inv h hok hphase
    | blocked msg => exact store_inv h hok hphase order
    | unblocked => exact lookup_inv h hok hphase
    | forwarding route => exact reply_inv h resp order

end

/-! ## The period -/

/-- No entry that `SetBlocked` stored is left in the handler's cache after the request, which
empties the cache of the API server if `clears`. -/
def Emptied (s : Site δ) (clears : Bool) : Prop :=
  (clears = true ∧ s.apiShares = true) ∨ ∀ c, s.cache = some c → Clean c

/-- The blocklist stays off, or no query that started while it was off can still be blocked. -/
def Lasts (s s' : Site δ) : Prop :=
  s'.off = true ∨
    ∀ id f, s.flights id = some f → f.startedOff = true → ¬ f.phase.Undecided

theorem cleared_eq (s : Site δ) (clears : Bool) :
    ∃ cache, (if clears then s.clearShared else s) = { s with cache := cache } := by
  cases clears with
  | false => exact ⟨s.cache, rfl⟩
  | true =>
    simp only [if_true, Site.clearShared]
    split
    · exact ⟨s.cache.map (·.clear), rfl⟩
    · exact ⟨s.cache, rfl⟩

/-- What has become of the cache when the request returns. -/
theorem clean_of_emptied {s : Site δ} {clears : Bool} (hemptied : Emptied s clears) :
    ∀ c, (if clears then s.clearShared else s).cache = some c → Clean c := by
  intro c hc
  cases clears with
  | false =>
    obtain ⟨hclears, -⟩ | hclean := hemptied
    · cases hclears
    · exact hclean c hc
  | true =>
    simp only [if_true, Site.clearShared] at hc
    split at hc
    · obtain ⟨c', -, rfl⟩ := Option.map_eq_some_iff.mp hc
      exact Cache.Interface.clear_holds c'
    · rename_i hshares
      obtain ⟨-, hshares'⟩ | hclean := hemptied
      · exact absurd hshares' hshares
      · exact hclean c hc

/-- When a step is harmless.  A request to disable returns with the block answers gone from the
handler's cache and no query in flight that has read the switch as on; and what switches the
blocklist on again finds no undecided query that started before. -/
def Settled (hash : GoString → Option GoString) (yaml : Yaml δ) (env : Env) (s : Site δ) :
    Event δ → Prop
  | .proceed id =>
    match s.requests id with
    | some .disable =>
      s.isBlocklistDisabled = true ∧ Emptied s true ∧
        ∀ id f, s.flights id = some f → ¬ f.phase.On
    | some (.reloaded toggled true) =>
      s.config.config.server.enableBlocklist = false ∧ Emptied s toggled ∧
        ∀ id f, s.flights id = some f → ¬ f.phase.ConfigOn
    | some (.saved _ _) => Lasts s (s.setConfig (s.config.reload hash yaml env))
    | _ => True
  | .enable => Lasts s s.enable
  | .pass d => Lasts s (s.pass d)
  | .reload => Lasts s (s.setConfig (s.config.reload hash yaml env))
  | _ => True

namespace Inv

variable {s s' : Site δ}

/-- The period goes on or ends; queries and cache stay. -/
theorem ends (h : Inv s) (hflights : s'.flights = s.flights) (hcache : s'.cache = s.cache)
    (hanswered : s'.answered = s.answered)
    (hswitch : s'.offSwitch = true → s.offSwitch = true ∧ s'.isBlocklistDisabled = true)
    (hfeatures : s'.offFeatures = true →
      s.offFeatures = true ∧ s'.config.config.server.enableBlocklist = false)
    (hlasts : Lasts s s') : Inv s' := by
  have hoff : s'.off = true → s.off = true := by
    intro hoff
    apply Bool.or_eq_true_iff.mpr
    apply (Bool.or_eq_true_iff.mp hoff).imp
    · exact fun h' => (hswitch h').1
    · exact fun h' => (hfeatures h').1
  refine ⟨fun h' => (hswitch h').2, fun h' => (hfeatures h').2, ?_, ?_, ?_⟩
  · intro id f hf
    rw [hflights] at hf
    have hok := h.flights id f hf
    refine ⟨fun h' => hok.switch (hswitch h').1, fun h' => hok.features (hfeatures h').1, ?_⟩
    intro hstarted hundecided
    rcases hlasts with hlasts | hlasts
    · exact hlasts
    · exact absurd hundecided (hlasts id f hf hstarted)
  · rw [hcache]
    exact fun h' => h.clean (hoff h')
  · rw [hanswered]
    exact h.answered

theorem setConfig (h : Inv s) (config : ConfigState δ) (hlasts : Lasts s (s.setConfig config)) :
    Inv (s.setConfig config) := by
  refine @ends _ s (s.setConfig config) h rfl rfl rfl ?_ ?_ hlasts
  · exact fun hoff => ⟨hoff, h.switch hoff⟩
  · intro hoff
    obtain ⟨hbefore, hafter⟩ := Bool.and_eq_true_iff.mp hoff
    rw [Bool.not_eq_true'] at hafter
    exact ⟨hbefore, hafter⟩

/-- A request to disable returns. -/
theorem disabled (h : Inv s) (hdisabled : s.isBlocklistDisabled = true)
    (hclean : ∀ c, s.cache = some c → Clean c)
    (hflights : ∀ id f, s.flights id = some f → ¬ f.phase.On) :
    Inv { s with offSwitch := true } := by
  refine ⟨fun _ => hdisabled, h.features, ?_, fun _ => hclean, h.answered⟩
  intro id f hf
  have hok := h.flights id f hf
  exact ⟨fun _ => hflights id f hf, hok.features, fun _ _ => rfl⟩

theorem disabledByConfig (h : Inv s) (hdisabled : s.config.config.server.enableBlocklist = false)
    (hclean : ∀ c, s.cache = some c → Clean c)
    (hflights : ∀ id f, s.flights id = some f → ¬ f.phase.ConfigOn) :
    Inv { s with offFeatures := true } := by
  refine ⟨h.switch, fun _ => hdisabled, ?_, fun _ => hclean, h.answered⟩
  intro id f hf
  have hok := h.flights id f hf
  exact ⟨hok.switch, fun _ => hflights id f hf, fun _ _ => Bool.or_true _⟩

end Inv

/-! ## Every step -/

theorem disableDuration_pos {duration d : Int} (h : Site.disableDuration duration = some d) :
    0 < d := by
  unfold Site.disableDuration at h
  split at h
  · cases h
  · split at h
    · cases h
      decide
    · obtain rfl := Option.some.inj h
      unfold Config.second
      omega

theorem disable_inv {s : Site δ} (h : Inv s) (id : Nat) (duration : Int) :
    Inv (s.disable id duration) := by
  unfold Site.disable
  split
  · exact h
  · rename_i d hd
    apply Inv.setRequest
    refine ⟨fun _ => ?_, h.features, ?_, h.clean, h.answered⟩
    · have hpos := disableDuration_pos hd
      simp only [Site.isBlocklistDisabled, before, decide_eq_true_eq]
      omega
    · exact fun id' f hf => (h.flights id' f hf).frame rfl rfl

theorem features_inv {s : Site δ} (h : Inv s) (id : Nat) (req : FeaturesRequest) :
    Inv (s.features hash yaml id req) := by
  unfold Site.features
  split
  · exact h
  · simp only
    split
    · exact h
    · exact h.setRequest id _

theorem proceed_inv {s : Site δ} (h : Inv s) (id : Nat)
    (hsettled : Settled hash yaml env s (.proceed id)) : Inv (s.proceed hash yaml env id) := by
  unfold Site.proceed
  simp only [Settled] at hsettled
  cases hrequest : s.requests id with
  | none => exact h
  | some r =>
    rw [hrequest] at hsettled
    cases r with
    | disable =>
      obtain ⟨hdisabled, hemptied, hflights⟩ := hsettled
      have hclean := clean_of_emptied hemptied
      have hcleared := (h.cleared true).setRequest id none
      obtain ⟨cache, heq⟩ := cleared_eq s true
      rw [heq] at hclean hcleared
      rw [if_pos rfl] at heq
      simp only [heq]
      exact hcleared.disabled hdisabled hclean hflights
    | cloned cfg toggled disables =>
      simp only
      split
      · exact h.setRequest id none
      · apply Inv.setRequest
        exact ⟨h.switch, h.features, fun id' f hf => (h.flights id' f hf).frame rfl rfl,
          h.clean, h.answered⟩
    | saved toggled disables =>
      exact (h.setConfig _ hsettled).setRequest id _
    | reloaded toggled disables =>
      have hcleared := (h.cleared toggled).setRequest id none
      cases disables with
      | false =>
        simp only [Bool.or_false]
        exact hcleared
      | true =>
        obtain ⟨hdisabled, hemptied, hflights⟩ := hsettled
        have hclean := clean_of_emptied hemptied
        obtain ⟨cache, heq⟩ := cleared_eq s toggled
        rw [heq] at hclean hcleared
        simp only [Bool.or_true, heq]
        exact hcleared.disabledByConfig hdisabled hclean hflights

theorem step_inv (s : Site δ) (e : Event δ) (hsettled : Settled hash yaml env s e) (h : Inv s) :
    Inv (step hash yaml env s e) := by
  cases e with
  | arrive id query => exact arrive_inv h id query
  | advance id resp order => exact advance_inv h id resp order
  | disable id duration => exact disable_inv h id duration
  | enable =>
    refine @Inv.ends _ s s.enable h rfl rfl rfl ?_ ?_ hsettled
    · exact fun hoff => Bool.noConfusion hoff
    · exact fun hoff => ⟨hoff, h.features hoff⟩
  | policies _ | edit _ | reconfigure _ | apiCacheOff | apiCacheShared =>
    exact ⟨h.switch, h.features, fun id f hf => (h.flights id f hf).frame rfl rfl, h.clean,
      h.answered⟩
  | features id req => exact features_inv h id req
  | proceed id => exact proceed_inv h id hsettled
  | reload => exact h.setConfig _ hsettled
  | cleanup => exact h.updateCache fun _ _ _ hclean => hclean.cleanup _
  | purge => exact h.clearShared
  | pass d =>
    refine @Inv.ends _ s (s.pass d) h rfl rfl rfl ?_ ?_ hsettled
    · exact fun hoff => Bool.and_eq_true_iff.mp hoff
    · exact fun hoff => ⟨hoff, h.features hoff⟩
  | handlerCacheOff =>
    refine ⟨h.switch, h.features, fun id f hf => (h.flights id f hf).frame rfl rfl, ?_,
      h.answered⟩
    intro _ c hc
    cases hc
  | handlerCacheNew cfg =>
    refine ⟨h.switch, h.features, fun id f hf => (h.flights id f hf).frame rfl rfl, ?_,
      h.answered⟩
    exact fun _ c hc => Cache.new_holds hc

theorem boot_inv (libs : Libraries) (deps : Deps) (config : ConfigState δ) (now : Int) :
    Inv (boot libs deps config now) := by
  have hoff : (boot libs deps config now).off ≠ true := Bool.noConfusion
  refine ⟨fun h => Bool.noConfusion h, fun h => Bool.noConfusion h, ?_,
    fun h => absurd h hoff, ?_⟩
  · intro id f hf
    cases hf
  · intro v hv
    cases hv

/-- In every run all of whose steps are settled, no query that starts while the blocklist is off
is answered with a block. -/
theorem not_blocked_of_settled (libs : Libraries) (deps : Deps) (config : ConfigState δ)
    (now : Int) (events : List (Event δ))
    (hrun : AllSteps (step hash yaml env) (Settled hash yaml env) (boot libs deps config now)
      events) :
    ∀ s ∈ states (step hash yaml env) (boot libs deps config now) events,
      ∀ v ∈ s.answered, v.startedOff = true → v.served.source ≠ .blocklist := by
  intro s hs
  exact (invariant_states step_inv hrun (boot_inv libs deps config now) s hs).answered

/-! ## A block answer out of the cache -/

def plainLibs : Libraries :=
  { lang := { compiles := fun _ => false, run := fun _ _ => none }
    lower := id
    typeToString := fun _ => lit "A" }

def adsDeps : Deps :=
  { localRecords := fun _ _ => none
    rules := []
    enablePolicies := true
    policiesDisabled := false
    enableBlocklist := true
    blocklistDisabled := false
    blocklistManager := none
    legacyBlocklist := [lit "ads."]
    hasForwarder := true
    blockPageIP := [] }

def cacheFile : Config := { cache := { enabled := true } }

def adsSite : Site Config :=
  boot plainLibs adsDeps ⟨Config.applyDefaults (fun _ => none) cacheFile, cacheFile⟩ 0

def askAds : Query :=
  ⟨lit "10.0.0.2", { question := [⟨lit "ads.", typeA, 1⟩] }, ⟨0, 12, 0, 1, 1, 1⟩⟩

def serveAds (id : Nat) : List (Event Config) :=
  .arrive id askAds :: List.replicate 5 (.advance id none [])

def disableHour (id : Nat) : List (Event Config) := [.disable id 3600, .proceed id]

theorem adsSite_clean : ∀ c, adsSite.cache = some c → Clean c := by
  intro c hc
  have hnew : Cache.new (Config.applyDefaults (fun _ => none) cacheFile).cache = some c := hc
  exact Cache.new_holds hnew

theorem not_blocked_of_settled_hour :
    (states (step (fun _ => none) Config.plainYaml {}) adsSite (disableHour 0 ++ serveAds 1)).Forall
      fun s => ∀ v ∈ s.answered, v.startedOff = true → v.served.source ≠ .blocklist :=
  List.forall_iff_forall_mem.mpr <| not_blocked_of_settled plainLibs adsDeps _ 0 _
    ⟨trivial, ⟨by decide +kernel, Or.inr adsSite_clean, fun id f hf => by cases hf⟩,
      trivial, trivial, trivial, trivial, trivial, trivial, trivial⟩

/-- A query is blocked and its answer is stored.  The blocklist is disabled for an hour, and the
request returns: the cache it clears is not the handler's.  The next query for the name is
answered with the stored block. -/
theorem blocked_while_disabled :
    (exec (step (fun _ => none) Config.plainYaml {}) adsSite
        (serveAds 0 ++ disableHour 1 ++ serveAds 2)).answered.map
          (fun v => (v.startedOff, v.served.cached, v.served.source)) =
      [(false, false, .blocklist), (true, true, .blocklist)] := by
  decide +kernel

end GloryHole.Dns.Blocking
