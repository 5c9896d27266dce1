import GloryHole.Dns.ServeLoads

/-!
# The snapshot of a query

`ServeDNS` loads its dependencies once and says that its parts work with this snapshot; most
of them load the record again.  The components of the record it began with are all it uses,
and it dereferences no nil, as long as nobody replaces one of them on the way.
-/

namespace GloryHole.Dns

open Go Policy Support Support.Runs Support.CloneSwap Support.SharedReads

/-!
## Setters that run at the same time

The setters are written for a single writer.  With two of them at work, the callback of the
configuration watcher and a request of the API, a setter stores back the other fields as
they were when it cloned the record.
-/

/-- If no setter stores over a change of another field, every field holds all along the value of
the call for it that returned last, and once all calls have returned, the value of a call for it
that is followed by no other. -/
theorem setters_lose_nothing (deps : HandlerDeps) (steps : List SetterStep)
    (hrun : AllSteps Setters.step Undisturbed (Setters.start deps) steps) :
    ∀ s ∈ states Setters.step (Setters.start deps) steps,
      (∀ f, Intact deps s f) ∧ (AllReturned s → ∀ f, Latest deps s f) := by
  intro s hs
  have hintact := intact_states hrun s hs
  have hordered : Ordered s := ordered_states s hs
  exact ⟨hintact, fun hall f => latest_of_intact hall hordered (hintact f)⟩

def callbackSteps : List SetterStep :=
  [.invoke 0 (setCache (some 7)), .load 0, .store 0, .invoke 1 (setForwarder (some 8)), .load 1,
    .store 1]

theorem setters_lose_nothing_callback :
    (states Setters.step (Setters.start newHandlerDeps) callbackSteps).Forall fun s =>
      (∀ f, Intact newHandlerDeps s f) ∧ (AllReturned s → ∀ f, Latest newHandlerDeps s f) := by
  refine List.forall_iff_forall_mem.mpr (setters_lose_nothing newHandlerDeps callbackSteps
    ⟨trivial, trivial, ?_, trivial, trivial, ?_, trivial⟩)
  · rintro set time copy ⟨⟩ j -
    rfl
  · rintro set time copy ⟨⟩ j -
    rfl

/-- The callback replaces the cache while a request of the API, which has cloned the record
already, sets the address of the block page. -/
def overlappingSteps : List SetterStep :=
  [.invoke 0 (setBlockPageIP (lit "10.0.0.1")), .load 0, .invoke 1 (setCache (some 7)), .load 1,
    .store 1, .store 0]

/-- All calls have returned, the only call for the cache among them, and the handler has no
cache. -/
theorem setter_undoes_other :
    let s := exec Setters.step (Setters.start newHandlerDeps) overlappingSteps
    AllReturned s ∧ Completed s .cache (some 7) 4 ∧ s.record .cache = none ∧
      ¬ Latest newHandlerDeps s .cache := by
  have hcalls (id : Nat) (c : Call DepField.Value)
      (h : (exec Setters.step (Setters.start newHandlerDeps) overlappingSteps).calls id = some c) :
      c = ⟨setBlockPageIP (lit "10.0.0.1"), 0, .returned 5⟩ ∨
        c = ⟨setCache (some 7), 2, .returned 4⟩ := by
    rcases id with _ | _ | id
    · exact Or.inl (Option.some.inj h).symm
    · exact Or.inr (Option.some.inj h).symm
    · cases h
  refine ⟨?_, ⟨1, 2, rfl⟩, rfl, ?_⟩
  · intro id c h
    rcases hcalls id c h with rfl | rfl
    · exact ⟨5, rfl⟩
    · exact ⟨4, rfl⟩
  · rintro (⟨hnone, -⟩ | ⟨time, ⟨id, invoked, h⟩, -⟩)
    · exact hnone 1 _ rfl rfl
    · rcases hcalls id _ h with hc | hc
      · cases hc
      · cases hc

/-! ## What a query uses -/

def answering : List DepField := [.localRecords, .policyEngine, .blocklistManager, .cache, .fwd]

def SameComponents (d s : HandlerDeps) : Prop := ∀ f ∈ answering, s.pointer f = d.pointer f

/-- An answering component that was used is that of the snapshot `d`. -/
def FromSnapshot (d : HandlerDeps) (used : DepField × Pointer) : Prop :=
  used.1 ∈ answering → d.pointer used.1 = some used.2

namespace Serving

variable {d : HandlerDeps} {α : Type} {post : α → Prop}

abbrev Keeps (d : HandlerDeps) (post : α → Prop) (p : Serving α) : Prop :=
  Safe (SameComponents d) (FromSnapshot d) post p

abbrev KeepsSnapshot (d : HandlerDeps) (p : Serving α) : Prop := Keeps d (fun _ => True) p

/-! ## Getters -/

variable {f : DepField} {c : Components}

/-- What a getter returns is the snapshot's component, if it is an answering one. -/
theorem keeps_get {k : Option Pointer → Serving α}
    (h : ∀ p, (f ∈ answering → d.pointer f = p) → Keeps d post (k p)) :
    Keeps d post (get f >>= k) :=
  Safe.read_bind fun s hs => h (s.pointer f) fun hf => (hs f hf).symm

theorem keeps_deref {p : Pointer} {k : Pointer → Serving α}
    (hp : f ∈ answering → d.pointer f = some p) (h : Keeps d post (k p)) :
    Keeps d post (deref f (some p) >>= k) :=
  ⟨hp, h⟩

/-- Whatever a checked load finds in a field may be used. -/
theorem keeps_ifPresent : KeepsSnapshot d (ifPresent f) := by
  refine keeps_get fun p hp => ?_
  cases p with
  | none => trivial
  | some p => exact keeps_deref hp trivial

theorem keeps_ifPresent_bind {k : Unit → Serving α} (h : Keeps d post (k ())) :
    Keeps d post (ifPresent f >>= k) :=
  keeps_ifPresent.bind fun _ _ => h

/-! ## Stages -/

/-- The lookups load the manager again, each for itself: it is still there. -/
theorem keeps_tryLookups (hlr : d.pointer .localRecords ≠ none) :
    ∀ ls, KeepsSnapshot d (tryLookups c ls)
  | [] => trivial
  | l :: ls => by
      refine keeps_get fun p hp => ?_
      have hsome : d.pointer .localRecords = p := hp (by decide)
      cases p with
      | none => exact absurd hsome hlr
      | some p =>
        refine keeps_deref hp ?_
        by_cases hfound : c.lookup p l
        · rw [if_pos hfound]
          trivial
        · rw [if_neg hfound]
          exact keeps_tryLookups hlr ls

theorem keeps_serveFromLocalRecords {qtype : UInt16} :
    KeepsSnapshot d (serveFromLocalRecords c qtype) := by
  refine keeps_get fun p hp => ?_
  cases p with
  | none => trivial
  | some p =>
    refine keeps_tryLookups ?_ _
    rw [hp (by decide)]
    exact Option.some_ne_none p

theorem keeps_resolveFeatureToggles :
    KeepsSnapshot d (resolveFeatureToggles c) := by
  refine keeps_get fun p hp => ?_
  cases p with
  | none => trivial
  | some p => exact keeps_deref hp trivial

theorem keeps_applyKillSwitch {toggles : Bool × Bool} :
    KeepsSnapshot d (applyKillSwitch c d toggles) := by
  unfold applyKillSwitch
  cases hks : d.pointer .killSwitch with
  | none => trivial
  | some p => exact keeps_deref (fun _ => hks) trivial

theorem keeps_sendUpstream {fwd : Pointer} {forwarded : Pointer → Bool}
    (hfwd : d.pointer .fwd = some fwd) : KeepsSnapshot d (sendUpstream fwd forwarded) := by
  refine keeps_deref (fun _ => hfwd) ?_
  by_cases hforwarded : forwarded fwd
  · rw [if_pos hforwarded]
    exact keeps_ifPresent_bind (keeps_ifPresent_bind (keeps_ifPresent_bind trivial))
  · rw [if_neg hforwarded]
    trivial

theorem keeps_handlePolicyBlock : KeepsSnapshot d handlePolicyBlock :=
  Safe.read_bind fun _ _ => keeps_ifPresent_bind trivial

theorem keeps_handlePolicyAllow : KeepsSnapshot d (handlePolicyAllow c) := by
  refine keeps_get fun p hp => ?_
  cases p with
  | none => trivial
  | some p => exact keeps_sendUpstream (hp (by decide))

theorem keeps_handlePolicyForward {rule : Rule} :
    KeepsSnapshot d (handlePolicyForward c rule) := by
  refine keeps_get fun p hp => ?_
  cases p with
  | none => trivial
  | some p =>
    by_cases hnone : rule.getUpstreams = []
    · simp only [if_pos hnone]
      trivial
    · simp only [if_neg hnone]
      exact keeps_sendUpstream (hp (by decide))

theorem keeps_handlePolicies (hpe : d.pointer .policyEngine ≠ none) :
    KeepsSnapshot d (handlePolicies c) := by
  refine keeps_get fun p hp => ?_
  cases p with
  | none => exact absurd (hp (by decide)) hpe
  | some p =>
    refine keeps_deref hp ?_
    cases c.evaluate p with
    | none => trivial
    | some rule =>
      cases haction : rule.action with
      | actionBlock => simpa only [haction] using keeps_handlePolicyBlock
      | actionAllow => simpa only [haction] using keeps_handlePolicyAllow
      | actionRedirect => simp only [haction]; trivial
      | actionForward => simpa only [haction] using keeps_handlePolicyForward

theorem keeps_policyStage {enablePolicies : Bool} :
    KeepsSnapshot d (policyStage c d enablePolicies) := by
  unfold policyStage
  cases enablePolicies with
  | false => trivial
  | true =>
    cases hpe : d.pointer .policyEngine with
    | none => trivial
    | some p =>
      refine keeps_deref (fun _ => hpe) ?_
      by_cases hcount : c.count p > 0
      · rw [if_pos hcount]
        refine keeps_handlePolicies ?_
        rw [hpe]
        exact Option.some_ne_none p
      · rw [if_neg hcount]
        trivial

theorem keeps_handleBlockedDomain : KeepsSnapshot d handleBlockedDomain :=
  Safe.read_bind fun _ _ => keeps_ifPresent_bind (keeps_ifPresent_bind trivial)

theorem keeps_handleFastBlocklistPath (hm : d.pointer .blocklistManager ≠ none) :
    KeepsSnapshot d (handleFastBlocklistPath c) := by
  refine keeps_get fun p hp => ?_
  cases p with
  | none => exact absurd (hp (by decide)) hm
  | some p =>
    refine keeps_deref hp ?_
    by_cases hblocked : c.blocked p
    · rw [if_pos hblocked]
      exact keeps_handleBlockedDomain
    · rw [if_neg hblocked]
      trivial

theorem keeps_handleLegacyBlocklistPath :
    KeepsSnapshot d (handleLegacyBlocklistPath c) := by
  unfold handleLegacyBlocklistPath
  by_cases hblocked : c.legacyBlocked
  · rw [if_pos hblocked]
    exact keeps_ifPresent_bind (Safe.read_bind fun _ _ => keeps_ifPresent_bind trivial)
  · rw [if_neg hblocked]
    trivial

theorem keeps_handleBlocklistAndOverrides :
    KeepsSnapshot d (handleBlocklistAndOverrides c) := by
  refine keeps_get fun p hp => ?_
  cases p with
  | none => exact keeps_handleLegacyBlocklistPath
  | some p =>
    refine keeps_handleFastBlocklistPath ?_
    rw [hp (by decide)]
    exact Option.some_ne_none p

theorem keeps_serveFromCache : KeepsSnapshot d (serveFromCache c) := by
  refine keeps_get fun p hp => ?_
  cases p with
  | none => trivial
  | some p =>
    refine keeps_deref hp ?_
    by_cases hhit : c.getWithTrace p
    · rw [if_pos hhit]
      trivial
    · rw [if_neg hhit]
      trivial

theorem keeps_forwardToUpstream : KeepsSnapshot d (forwardToUpstream c) := by
  refine keeps_get fun p hp => ?_
  cases p with
  | none => trivial
  | some p => exact keeps_sendUpstream (hp (by decide))

/-! ## ServeDNS -/

theorem keeps_orNext {stage : Serving (Option Answer)} {next : Serving Answer}
    (hstage : KeepsSnapshot d stage) (hnext : KeepsSnapshot d next) :
    KeepsSnapshot d (orNext stage next) := by
  refine hstage.bind fun answer _ => ?_
  cases answer with
  | none => exact hnext
  | some answer => trivial

theorem keeps_serveRemote : KeepsSnapshot d (serveRemote c d) := by
  refine keeps_resolveFeatureToggles.bind fun toggles _ => ?_
  refine keeps_applyKillSwitch.bind fun enabled _ => ?_
  refine keeps_orNext keeps_policyStage (keeps_orNext ?_ (keeps_orNext keeps_serveFromCache
    (keeps_orNext keeps_forwardToUpstream trivial)))
  by_cases hblocklist : enabled.2
  · rw [if_pos hblocklist]
    exact keeps_handleBlocklistAndOverrides
  · rw [if_neg hblocklist]
    trivial

theorem keeps_asyncLogQuery : KeepsSnapshot d asyncLogQuery := by
  refine keeps_get fun ql hql => keeps_get fun st hst => ?_
  cases ql with
  | some ql => exact keeps_deref hql trivial
  | none =>
    cases st with
    | some st => exact keeps_deref hst trivial
    | none => trivial

theorem keeps_answerFrom {r : Msg} : KeepsSnapshot d (answerFrom c r d) := by
  unfold answerFrom
  cases r.question with
  | nil => trivial
  | cons q qs =>
    cases d.pointer .localRecords with
    | none => exact keeps_serveRemote
    | some lr => exact keeps_orNext keeps_serveFromLocalRecords keeps_serveRemote

theorem keeps_serveFrom {r : Msg} : KeepsSnapshot d (serveFrom c r d) :=
  keeps_answerFrom.bind fun _ _ => keeps_asyncLogQuery.bind fun _ _ => trivial

end Serving

/-! ## Queries under setters -/

/-- A setter that stores while the query with the snapshot `d` is on its way leaves the
answering components as they are in `d`. -/
def LeavesComponents (d : HandlerDeps) : Serve → ServeStep → Prop := Stores (SameComponents d)

/-- Whatever the query and whatever setters store between its steps: if none of them
replaces an answering component, the query never dereferences nil, and the components it
uses are those of the record it loaded when it began. -/
theorem serve_uses_snapshot (c : Components) (r : Msg) (d : HandlerDeps) (steps : List ServeStep)
    (hrun : AllSteps Serve.step (LeavesComponents d) (Serve.begin c r d) steps) :
    ∀ s ∈ states Serve.step (Serve.begin c r d) steps,
      s.prog ≠ .crash ∧ ∀ used ∈ s.used, FromSnapshot d used := by
  intro s hs
  have hbegin : Sound (SameComponents d) (FromSnapshot d) (fun _ => True) (Serve.begin c r d) :=
    ⟨fun _ hused => absurd hused List.not_mem_nil,
      Or.inr ⟨fun _ _ => rfl, Serving.keeps_serveFrom⟩⟩
  have hsound := sound_states hrun hbegin s hs
  exact ⟨hsound.ne_crash, hsound.used⟩

def quietComponents : Components where
  lookup _ _ := false
  enablePolicies _ := true
  enableBlocklist _ := true
  isPoliciesDisabled _ := false
  isBlocklistDisabled _ := false
  count _ := 0
  evaluate _ := none
  blocked _ := false
  legacyBlocked := false
  getWithTrace _ := false
  forward _ := true
  forwardWithUpstreams _ _ := true

def addressQuery : Msg := { question := [⟨lit "nas.lan.", typeA, 1⟩] }

def twoDeps : HandlerDeps :=
  (setForwarder (some 1)).apply ((setLocalRecords (some 0)).apply newHandlerDeps)

theorem serve_uses_snapshot_logger :
    (states Serve.step (Serve.begin quietComponents addressQuery twoDeps)
        [.advance, .store ((setLogger (some 3)).apply twoDeps), .advance, .advance]).Forall
      fun s => s.prog ≠ .crash ∧ ∀ used ∈ s.used, FromSnapshot twoDeps used := by
  refine List.forall_iff_forall_mem.mpr (serve_uses_snapshot quietComponents addressQuery twoDeps _
    ⟨trivial, Or.inl ?_, trivial, trivial, trivial⟩)
  unfold SameComponents
  decide

/-- The local records are switched off after the query has checked them: it dereferences
nil.  The forwarder is replaced: the query uses the new one, next to the local records of
its snapshot. -/
theorem serve_leaves_snapshot :
    (exec Serve.step (Serve.begin quietComponents addressQuery twoDeps)
        [.advance, .store ((setLocalRecords none).apply twoDeps), .advance]).prog = .crash ∧
      (let s := exec Serve.step (Serve.begin quietComponents addressQuery twoDeps)
          ([.advance, .advance, .advance, .advance, .advance,
            .store ((setForwarder (some 2)).apply twoDeps)] ++ List.replicate 5 .advance)
       (.localRecords, 0) ∈ s.used ∧ (.fwd, 2) ∈ s.used ∧
        ¬ FromSnapshot twoDeps (.fwd, 2)) := by
  refine ⟨rfl, by decide, by decide, ?_⟩
  unfold FromSnapshot
  decide

end GloryHole.Dns
