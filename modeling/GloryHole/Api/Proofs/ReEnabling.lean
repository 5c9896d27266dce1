import GloryHole.Api.KillSwitch

/-!
# When a disable that has run out is reported

A tick reports a feature only if its flag is clear, and the flag is cleared only by a tick that
samples the feature as disabled.  So a disable may not be replaced or cancelled between its end and
its report, and if it falls between two ticks, the flag of its feature must have been clear.
-/

namespace GloryHole.Api.KillSwitch

open Support.Runs

variable {k : KillSwitch} {f : Feature} {disabled : Feature → Bool} {u : Int}

def Reported (k : KillSwitch) (u : Int) : Prop := ∃ c ∈ k.calls, u ≤ c

def Allowed (k : KillSwitch) : Step → Prop
  | .disableFor f _ => ∀ u ∈ k.ranOut f, k.Reported u
  | .enable f => ∀ u ∈ k.ranOut f, k.Reported u
  | .tick => ∀ f, ∀ u ∈ k.ranOut f, k.Reported u ∨ k.logged f = false
  | .check => True

/-- The clock does not go back, and no disable that has run out is replaced or cancelled before its
report, or met by a tick that believes to have reported it. -/
def Admissible (k : KillSwitch) (i : Step × Int) : Prop :=
  k.clock ≤ i.2 ∧ Allowed { k with clock := i.2 } i.1

def Notified (k : KillSwitch) (i : Step × Int) : Prop :=
  ∀ disabled owed, i.1 = .check → k.phase = .checking .policies disabled owed →
    ∀ u ∈ owed, (k.step i).Reported u

/-- The tick that is under way will report `u`, if `next` is what it looks at next. -/
def Awaited (k : KillSwitch) (next : Feature) (disabled : Feature → Bool) (u : Int) : Prop :=
  ∃ f, (next = .policies → f = .policies) ∧ disabled f = false ∧ k.logged f = false ∧
    u ∈ k.ranOut f

structure Inv (k : KillSwitch) : Prop where
  owed : ∀ u ∈ k.owed, k.Reported u
  due : ∀ next disabled owed, k.phase = .checking next disabled owed →
    ∀ u ∈ owed, k.Reported u ∨ k.Awaited next disabled u

theorem mem_ranOut : u ∈ k.ranOut f ↔ k.disabledUntil f = some u ∧ u ≤ k.clock := by
  simp [ranOut]

theorem Inv.advance (h : k.Inv) {now : Int} (hnow : k.clock ≤ now) :
    Inv { k with clock := now } where
  owed := h.owed
  due next disabled owed hphase u hu := by
    rcases h.due next disabled owed hphase u hu with hrep | ⟨f, hf, hd, hl, hu⟩
    · exact .inl hrep
    · obtain ⟨huntil, hle⟩ := mem_ranOut.mp hu
      exact .inr ⟨f, hf, hd, hl, mem_ranOut.mpr ⟨huntil, hle.trans hnow⟩⟩

theorem Inv.setUntil (h : k.Inv) (hallowed : ∀ u ∈ k.ranOut f, k.Reported u)
    (time : Option Int) : (k.setUntil f time).Inv where
  owed u hu := by
    rcases List.mem_append.mp hu with hu | hu
    · exact h.owed u hu
    · exact hallowed u hu
  due next disabled owed hphase u hu := by
    rcases h.due next disabled owed hphase u hu with hrep | ⟨g, hg, hd, hl, hout⟩
    · exact .inl hrep
    · by_cases hgf : g = f
      · exact .inl (hallowed u (hgf ▸ hout))
      · have huntil : (k.setUntil f time).disabledUntil g = k.disabledUntil g :=
          Function.update_of_ne hgf _ _
        obtain ⟨hsome, hle⟩ := mem_ranOut.mp hout
        exact .inr ⟨g, hg, hd, hl, mem_ranOut.mpr ⟨huntil.trans hsome, hle⟩⟩

theorem Reported.report (h : k.Reported u) : (k.report f disabled).Reported u := by
  obtain ⟨c, hc, hle⟩ := h
  unfold KillSwitch.report
  split
  · exact ⟨c, List.mem_append_left _ hc, hle⟩
  · exact ⟨c, hc, hle⟩

/-- The callback is called for a feature that awaits it. -/
theorem reported_of_awaited (hd : disabled f = false) (hl : k.logged f = false)
    (hout : u ∈ k.ranOut f) : (k.report f disabled).Reported u := by
  obtain ⟨huntil, hle⟩ := mem_ranOut.mp hout
  rw [KillSwitch.report, if_pos (by simp [hd, hl, huntil])]
  exact ⟨k.clock, List.mem_append_right _ (List.mem_singleton_self _), hle⟩

theorem report_of_ne {g : Feature} (hg : g ≠ f) :
    (k.report f disabled).logged g = k.logged g ∧
      (k.report f disabled).ranOut g = k.ranOut g := by
  unfold KillSwitch.report
  split
  · exact ⟨Function.update_of_ne hg _ _, rfl⟩
  · exact ⟨rfl, rfl⟩

theorem report_owed : (k.report f disabled).owed = k.owed := by
  unfold KillSwitch.report
  split <;> rfl

theorem Inv.tick (h : k.Inv) (hallowed : k.Allowed .tick) : (k.act .tick).Inv := by
  cases hphase : k.phase with
  | checking next disabled owed => simpa only [act, hphase] using h
  | idle =>
    simp only [act, hphase]
    refine ⟨h.owed, ?_⟩
    rintro next disabled owed ⟨⟩ u hu
    have hout : ∀ f, u ∈ k.ranOut f → k.Reported u ∨ k.Awaited .blocklist k.sample u := by
      intro f hf
      rcases hallowed f u hf with hrep | hl
      · exact .inl hrep
      · have hle := mem_ranOut.mp hf
        exact .inr ⟨f, by simp, by simp [sample, hle.1, hle.2], hl, hf⟩
    rcases List.mem_append.mp hu with hu | hu
    · rcases List.mem_append.mp hu with hu | hu
      · exact .inl (h.owed u hu)
      · exact hout _ hu
    · exact hout _ hu

theorem Inv.check (h : k.Inv) : (k.act .check).Inv := by
  cases hphase : k.phase with
  | idle => simpa only [act, hphase] using h
  | checking next disabled owed =>
    have howed : ∀ f, ∀ u ∈ (k.report f disabled).owed, (k.report f disabled).Reported u := by
      intro f u hu
      rw [report_owed] at hu
      exact (h.owed u hu).report
    cases next with
    | policies =>
      simp only [act, hphase]
      refine ⟨howed .policies, ?_⟩
      rintro next disabled owed ⟨⟩
    | blocklist =>
      simp only [act, hphase]
      refine ⟨howed .blocklist, ?_⟩
      rintro next disabled owed ⟨⟩ u hu
      rcases h.due _ _ _ hphase u hu with hrep | ⟨f, -, hd, hl, hout⟩
      · exact .inl hrep.report
      · cases f with
        | blocklist => exact .inl (reported_of_awaited hd hl hout)
        | policies =>
          obtain ⟨hlogged, hranOut⟩ := @report_of_ne k .blocklist disabled .policies (by decide)
          exact .inr ⟨.policies, fun _ => rfl, hd, hlogged.trans hl, hranOut ▸ hout⟩

theorem notified_of_inv {i : Step × Int} (h : Inv { k with clock := i.2 }) : k.Notified i := by
  intro disabled owed hcheck hphase u hu
  have hstep : k.step i =
      ({ k with clock := i.2 }.report .policies disabled).resetFlags disabled := by
    rw [step, hcheck]
    simp only [act, hphase]
  rw [hstep]
  rcases h.due _ _ _ hphase u hu with hrep | ⟨f, hf, hd, hl, hout⟩
  · exact hrep.report
  · obtain rfl := hf rfl
    exact reported_of_awaited hd hl hout

theorem Inv.step {i : Step × Int} (h : k.Inv) (hi : k.Admissible i) :
    (k.step i).Inv ∧ k.Notified i := by
  obtain ⟨i, now⟩ := i
  obtain ⟨hclock, hallowed⟩ := hi
  have hnow := h.advance hclock
  refine ⟨?_, notified_of_inv hnow⟩
  cases i with
  | disableFor _ _ | enable _ => exact hnow.setUntil hallowed _
  | tick => exact hnow.tick hallowed
  | check => exact hnow.check

theorem inv_new (start : Int) : (newKillSwitchManager start).Inv where
  owed u hu := by cases hu
  due next disabled owed hphase := by cases hphase

/-- In every run whose steps are admissible, every tick ends with the notice that was owed. -/
theorem reenable_notified {start : Int} {run : List (Step × Int)}
    (hrun : AllSteps step Admissible (newKillSwitchManager start) run) :
    AllSteps step Notified (newKillSwitchManager start) run :=
  hrun.imp_of_invariant (fun _ _ hi h => h.step hi) (inv_new start)

def reportedDisable : List (Step × Int) :=
  [(.disableFor .blocklist 30, 0), (.tick, 10), (.check, 10), (.check, 10), (.tick, 40),
    (.check, 40), (.check, 40)]

theorem reenable_notified_once : AllSteps step Notified (newKillSwitchManager 0) reportedDisable :=
  reenable_notified (by
    simp [reportedDisable, AllSteps, Admissible, Allowed, step, act, newKillSwitchManager, setUntil,
      ranOut, sample, report, resetFlags, Reported])

/-- After a report, a disable that ends before the next tick is not reported by that tick. -/
theorem short_disable_missed :
    let run := reportedDisable ++
      [(.disableFor .blocklist 5, 42), (.tick, 50), (.check, 50), (.check, 50)]
    (exec step (newKillSwitchManager 0) run).disabledUntil .blocklist = some 47 ∧
      (exec step (newKillSwitchManager 0) run).clock = 50 ∧
      (exec step (newKillSwitchManager 0) run).calls = [40] := by
  decide +kernel

end GloryHole.Api.KillSwitch
