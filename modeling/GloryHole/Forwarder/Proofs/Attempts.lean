import GloryHole.Forwarder.Upstreams

/-!
# The attempts of a call

A call of `Forward` is the list of its trials: they are bounded by the attempts, their packets are
all that is sent, and the last one has the answer.  The counter that picks their upstreams has 32
bits and is reduced by the number of candidates, cut to 32 bits too: 2 ^ 32 upstreams count as
none, and the step of the counter to zero can pick the same upstream twice.
-/

set_option linter.dupNamespace false

namespace GloryHole.Forwarder

open Go Dns

/-! ## What a call comes to -/

/-- The trials account for the call, each in the world its round begins in: for what it sends, for
its answer, which is that of the last trial and the first one of all, and for the reason of its
error. -/
def Honest (env : Nat → Attempt) (w : World) : Prop :=
  ∃ trials : List Trial, trials.length ≤ w.fwd.attempts ∧
    (forward env w).2.2 = trials.flatMap Trial.sent ∧
    (∀ k (t : Trial), trials[k]? = some t → t.upstream ∈ w.fwd.upstreams ∧
      ∃ w', (choices env w.fwd.attempts 0 w)[k]? = some (w', t.upstream) ∧
        t.Of w.fwd w' (env k)) ∧
    (∀ m, (forward env w).2.1 = .ok m → ∃ init t, trials = init ++ [t] ∧
      (∀ t ∈ init, t.answer = none) ∧ t.answer = some m) ∧
    ∀ err, (forward env w).2.1 = .error err → (∀ t ∈ trials, t.answer = none) ∧
      (err = .noneConfigured ∧ w.fwd.upstreams = [] ∨
        (∃ e, err = .cancelled e ∧ (env trials.length).cancelled = some e) ∨
        err = .noHealthyUpstreams ∧ (forward env w).1.fwd.candidates = [] ∨
        ∃ last, err = .allFailed last ∧ trials.length = w.fwd.attempts)

theorem length_candidates_le (f : Forwarder) : f.candidates.length ≤ f.upstreams.length := by
  unfold Forwarder.candidates
  cases f.health with
  | none => exact Nat.le_refl _
  | some uh => exact List.length_filter_le _ _

theorem toNat_ofNat_length {n : Nat} (hn : n < 2 ^ 32) : (UInt32.ofNat n).toNat = n := by
  rw [UInt32.toNat_ofNat', Nat.mod_eq_of_lt hn]

/-- Among fewer than 2 ^ 32 upstreams, selection fails for want of a healthy one only. -/
theorem selectUpstream_error_reason {f : Forwarder} {err : ForwardError}
    (hne : f.upstreams ≠ []) (hlen : f.upstreams.length < 2 ^ 32)
    (h : f.selectUpstream.2 = .error err) : err = .noHealthyUpstreams ∧ f.candidates = [] := by
  have hcount := toNat_ofNat_length (Nat.lt_of_le_of_lt (length_candidates_le f) hlen)
  unfold Forwarder.selectUpstream at h
  dsimp only at h
  split at h
  · next hnone => exact ⟨(Except.error.inj h).symm, hnone.2⟩
  next hsome =>
  have hpos : f.candidates ≠ [] := by
    intro hnil
    cases hhealth : f.health with
    | none => exact hne (by simpa [Forwarder.candidates, hhealth] using hnil)
    | some uh => exact hsome ⟨by simp [hhealth], hnil⟩
  have hlength := List.length_pos_iff.mpr hpos
  split at h
  · next hzero =>
    rw [hzero] at hcount
    exact absurd hcount (Nat.ne_of_lt hlength)
  · split at h
    · next hget =>
      have hlt := Nat.mod_lt (f.index + 1).toNat hlength
      rw [UInt32.toNat_mod, hcount] at hget
      exact absurd (List.getElem?_eq_none_iff.mp hget) (Nat.not_le.mpr hlt)
    · simp at h

theorem honest_of_lt {env : Nat → Attempt} {w : World} (hlen : w.fwd.upstreams.length < 2 ^ 32) :
    Honest env w := by
  by_cases hnil : w.fwd.upstreams = []
  · have hforward : forward env w = (w, .error .noneConfigured, []) := if_pos hnil
    refine ⟨[], Nat.zero_le _, by rw [hforward]; rfl, by simp, by simp [hforward], ?_⟩
    intro err herr
    rw [hforward] at herr
    exact ⟨by simp, Or.inl ⟨(Except.error.inj herr).symm, hnil⟩⟩
  · have hforward : forward env w = forwardLoop env w.fwd.attempts 0 w none := if_neg hnil
    obtain ⟨trials, htried⟩ := forwardLoop_tried env w.fwd.attempts 0 w none
    rw [← hforward] at htried
    refine ⟨trials, htried.bound, htried.sent, ?_, htried.answered, ?_⟩
    · simpa only [Nat.zero_add] using htried.made
    · intro err herr
      obtain ⟨hanswers, hcancelled | hselect | hall⟩ := htried.failed err herr
      · exact ⟨hanswers, Or.inr (Or.inl (by simpa using hcancelled))⟩
      · have hreason := selectUpstream_error_reason (by rw [htried.upstreams]; exact hnil)
          (by rw [htried.upstreams]; exact hlen) hselect
        exact ⟨hanswers, Or.inr (Or.inr (Or.inl hreason))⟩
      · exact ⟨hanswers, Or.inr (Or.inr (Or.inr hall))⟩

/-! ## Too many upstreams -/

/-- The first `n` upstreams are healthy, and the breaker of the `k` others is open. -/
def crowd (n k : Nat) : World where
  fwd :=
    { upstreams := List.replicate n (lit "a:53") ++ List.replicate k (lit "b:53")
      health := some
        { breakers := fun u =>
            if u = lit "b:53" then some { newCircuitBreaker 1 1 0 0 with state := .stateOpen }
            else none
          config := {} }
      retries := 1
      index := 0
      servfailTCPRetry := true }
  now := 0

theorem candidates_crowd (n k : Nat) :
    (crowd n k).fwd.candidates = List.replicate n (lit "a:53") := by
  simp only [crowd, Forwarder.candidates, UpstreamHealth.getHealthyUpstreams]
  rw [List.filter_append, List.filter_replicate_of_pos (by decide),
    List.filter_replicate_of_neg (by decide), List.append_nil]

def answers : Attempt := ⟨none, fun _ => .resp {}, 0, fun _ => .resp {}, 0⟩

theorem not_honest_crowd {n : Nat} (k : Nat) (hn : n ≠ 0) (hcount : UInt32.ofNat n = 0) :
    ¬ Honest (fun _ => answers) (crowd n k) := by
  have hpos : 0 < n := Nat.pos_of_ne_zero hn
  have hnil : (crowd n k).fwd.upstreams ≠ [] := by
    intro hnil
    exact hn (List.replicate_eq_nil_iff _ |>.mp (List.append_eq_nil_iff.mp hnil).1)
  have hattempts : (crowd n k).fwd.attempts = 1 := by
    have hlength : (crowd n k).fwd.upstreams.length = n + k := by simp [crowd]
    unfold Forwarder.attempts
    rw [hlength]
    show (min (1 : Int) (n + k : Nat)).toNat = 1
    omega
  have hselect : (crowd n k).fwd.selectUpstream =
      ((crowd n k).fwd, .error .noUpstreamsAvailable) := by
    simp only [Forwarder.selectUpstream, candidates_crowd, List.length_replicate, hcount,
      List.replicate_eq_nil_iff, hn, and_false, if_false, if_true]
  have hforward : (forward (fun _ => answers) (crowd n k)).2.1 = .error .noUpstreamsAvailable := by
    unfold forward
    rw [if_neg hnil, hattempts]
    simp only [forwardLoop, attempt, answers, hselect]
  rintro ⟨trials, -, -, -, -, hfailed⟩
  obtain ⟨-, hreason⟩ := hfailed _ hforward
  simp at hreason

/-- A number of upstreams for which every call is honest is one below 2 ^ 32. -/
theorem forward_honest_iff (n : Nat) :
    (∀ env w, w.fwd.upstreams.length = n → Honest env w) ↔ n < 2 ^ 32 := by
  constructor
  · intro hall
    by_contra hn
    obtain ⟨k, rfl⟩ := Nat.exists_eq_add_of_le (Nat.not_lt.mp hn)
    refine not_honest_crowd k (by decide) (by decide) (hall _ (crowd (2 ^ 32) k) ?_)
    unfold crowd
    rw [List.length_append, List.length_replicate, List.length_replicate]
  · intro hn env w hlen
    exact honest_of_lt (hlen ▸ hn)

/-- With 2 ^ 32 healthy upstreams that would answer, the call ends in an error. -/
theorem crowd_not_asked :
    (crowd (2 ^ 32) 0).fwd.upstreams.length = 2 ^ 32 ∧
      ¬ Honest (fun _ => answers) (crowd (2 ^ 32) 0) := by
  refine ⟨?_, not_honest_crowd 0 (by decide) (by decide)⟩
  unfold crowd
  rw [List.length_append, List.length_replicate, List.length_replicate, Nat.add_zero]

/-! ## Consecutive attempts -/

/-- The world and the choice of the `k`-th round. -/
theorem of_choices {env : Nat → Attempt} {n i k : Nat} {w w' : World} {u : GoString}
    (h : (choices env n i w)[k]? = some (w', u)) :
    w'.fwd.index = w.fwd.index + UInt32.ofNat k ∧
      ∃ f, w'.fwd.selectUpstream = (f, .ok u) := by
  induction n generalizing i k w with
  | zero => simp [choices] at h
  | succ n ih =>
    rcases attempt_cases w (env i) with ⟨err, hcancelled, -⟩ | ⟨hcancelled, hround⟩
    · simp [choices, hcancelled] at h
    rcases hround with ⟨err, hselect, -⟩ |
      ⟨t, next, result, -, -, hselect, hsame, hattempt, -⟩
    · simp [choices, hcancelled, hselect] at h
    · simp only [choices, hcancelled, hselect, hattempt] at h
      cases k with
      | zero =>
        obtain ⟨rfl, rfl⟩ : w = w' ∧ t.upstream = u := by simpa using h
        exact ⟨by simp, _, hselect⟩
      | succ k =>
        cases result with
        | ok m => simp [Verdict.ofResult] at h
        | error err =>
          obtain ⟨hindex, hselect'⟩ := ih (by simpa [Verdict.ofResult] using h)
          refine ⟨?_, hselect'⟩
          calc w'.fwd.index
              = w.fwd.index + 1 + UInt32.ofNat k := by rw [hindex, hsame.index]
            _ = w.fwd.index + UInt32.ofNat (k + 1) := by
                rw [UInt32.add_assoc, UInt32.add_comm 1, UInt32.ofNat_add]
                rfl

def picked (index : UInt32) (n k : Nat) : Nat :=
  ((index + UInt32.ofNat k + 1) % UInt32.ofNat n).toNat

theorem picked_eq (index : UInt32) (n k : Nat) :
    picked index n k = (index.toNat + k + 1) % 2 ^ 32 % (n % 2 ^ 32) := by
  unfold picked
  rw [UInt32.toNat_mod, UInt32.toNat_add, UInt32.toNat_add, UInt32.toNat_ofNat',
    UInt32.toNat_ofNat']
  simp

theorem picked_succ_eq_iff (index : UInt32) (n k : Nat) :
    picked index n k = picked index n (k + 1) ↔
      n % 2 ^ 32 = 1 ∨
        (index.toNat + k + 1) % 2 ^ 32 = 2 ^ 32 - 1 ∧ n % 2 ^ 32 ∣ 2 ^ 32 - 1 := by
  have hlt : (index.toNat + k + 1) % 2 ^ 32 < 2 ^ 32 := Nat.mod_lt _ (by decide)
  rw [picked_eq, picked_eq]
  by_cases hlast : (index.toNat + k + 1) % 2 ^ 32 = 2 ^ 32 - 1
  · -- the counter goes back to zero
    have hnext : (index.toNat + (k + 1) + 1) % 2 ^ 32 = 0 := by omega
    rw [hlast, hnext, Nat.zero_mod, ← Nat.dvd_iff_mod_eq_zero]
    constructor
    · exact fun hdvd => Or.inr ⟨rfl, hdvd⟩
    · rintro (hone | ⟨-, hdvd⟩)
      · rw [hone]
        exact Nat.one_dvd _
      · exact hdvd
  · have hnext : (index.toNat + (k + 1) + 1) % 2 ^ 32 = (index.toNat + k + 1) % 2 ^ 32 + 1 := by
      omega
    rw [hnext]
    constructor
    · intro heq
      have hdvd := (Nat.modEq_iff_dvd' (Nat.le_succ _)).mp heq
      exact Or.inl (Nat.dvd_one.mp (by simpa using hdvd))
    · rintro (hone | ⟨hlast', -⟩)
      · rw [hone, Nat.mod_one, Nat.mod_one]
      · exact absurd hlast' hlast

/-- Two consecutive attempts of a call, while all its upstreams stay healthy, go to different
upstreams unless the counter steps from its last value to zero and the number of upstreams divides
that value, or only one upstream is ever picked because their number, cut to 32 bits, is one. -/
theorem retries_move_on_iff (env : Nat → Attempt) (w : World)
    (hnodup : w.fwd.upstreams.Nodup)
    (hhealthy : ∀ p ∈ choices env w.fwd.attempts 0 w, p.1.fwd.candidates = w.fwd.upstreams)
    (k : Nat) (u u' : GoString)
    (hu : ((choices env w.fwd.attempts 0 w).map Prod.snd)[k]? = some u)
    (hu' : ((choices env w.fwd.attempts 0 w).map Prod.snd)[k + 1]? = some u') :
    u ≠ u' ↔
      ¬ (w.fwd.upstreams.length % 2 ^ 32 = 1 ∨
        (w.fwd.index.toNat + k + 1) % 2 ^ 32 = 2 ^ 32 - 1 ∧
          w.fwd.upstreams.length % 2 ^ 32 ∣ 2 ^ 32 - 1) := by
  have hpicked (k : Nat) (u : GoString)
      (hu : ((choices env w.fwd.attempts 0 w).map Prod.snd)[k]? = some u) :
      w.fwd.upstreams[picked w.fwd.index w.fwd.upstreams.length k]? = some u := by
    rw [List.getElem?_map, Option.map_eq_some_iff] at hu
    obtain ⟨⟨world, u⟩, hget, rfl⟩ := hu
    obtain ⟨hindex, f, hselect⟩ := of_choices hget
    have hcandidates := hhealthy _ (List.mem_of_getElem? hget)
    have hchosen := (selectUpstream_ok hselect).1
    rw [hcandidates, hindex] at hchosen
    exact hchosen
  have hk := hpicked k u hu
  have hk' := hpicked (k + 1) u' hu'
  rw [← picked_succ_eq_iff, not_iff_not]
  constructor
  · rintro rfl
    obtain ⟨hlt, -⟩ := List.getElem?_eq_some_iff.mp hk
    exact (List.getElem?_inj hlt hnodup).mp (hk.trans hk'.symm)
  · intro heq
    rw [heq] at hk
    exact Option.some.inj (hk.symm.trans hk')

def threeUpstreams (index : UInt32) : World where
  fwd :=
    { upstreams := [lit "a:53", lit "b:53", lit "c:53"]
      health := none
      retries := 2
      index := index
      servfailTCPRetry := false }
  now := 0

def unreachable : Attempt := ⟨none, fun _ => .failed "refused", 0, fun _ => .failed "refused", 0⟩

theorem retries_move_on_first :
    (choices (fun _ => unreachable) 2 0 (threeUpstreams 0)).map Prod.snd =
        [lit "b:53", lit "c:53"] ∧
      lit "b:53" ≠ lit "c:53" := by
  have hchoices : (choices (fun _ => unreachable) 2 0 (threeUpstreams 0)).map Prod.snd =
      [lit "b:53", lit "c:53"] := by decide +kernel
  refine ⟨hchoices, (retries_move_on_iff (fun _ => unreachable) (threeUpstreams 0)
    (by decide +kernel) ?_ 0 _ _ (congrArg (·[0]?) hchoices)
    (congrArg (·[1]?) hchoices)).mpr (by decide +kernel)⟩
  intro p hp
  rcases List.mem_cons.mp hp with rfl | hp
  · rfl
  · rw [List.mem_singleton.mp hp]
    rfl

/-- The two attempts around the wrap of the counter go to the same one of three upstreams. -/
theorem wrapped_counter_repeats :
    (choices (fun _ => unreachable) 2 0 (threeUpstreams 0xFFFFFFFE)).map Prod.snd =
        [lit "a:53", lit "a:53"] ∧
      (forward (fun _ => unreachable) (threeUpstreams 0xFFFFFFFE)).2.2 =
        [.udp (lit "a:53"), .udp (lit "a:53")] := by
  decide +kernel

end GloryHole.Forwarder
