import GloryHole.Support.Runs

/-!
# Clone and swap

A record that several writers update without a lock: each call copies the whole record, changes one
field of its copy and publishes the copy, in any interleaving.

Every step advances a clock, so that "returned before it was invoked" is an order of numbers.
-/

namespace GloryHole.Support.CloneSwap

open Support.Runs

variable {ι : Type} {V : ι → Type}

inductive Phase (V : ι → Type) where
  | invoked
  | copied (copy : (i : ι) → V i)
  | returned (time : Nat)

structure Call (V : ι → Type) where
  set : (i : ι) × V i
  time : Nat
  phase : Phase V

structure Shared (V : ι → Type) where
  record : (i : ι) → V i
  calls : Nat → Option (Call V)
  clock : Nat

inductive Step (V : ι → Type) where
  | invoke (id : Nat) (set : (i : ι) × V i)
  | load (id : Nat)
  | store (id : Nat)

/-! ## Completed calls -/

def Completed (s : Shared V) (i : ι) (v : V i) (time : Nat) : Prop :=
  ∃ id invoked, s.calls id = some ⟨⟨i, v⟩, invoked, .returned time⟩

section

variable {s : Shared V}

/-- A call that is not returning now was completed before. -/
theorem completed_update {id : Nat} {c : Call V} {record : (i : ι) → V i} {clock : Nat}
    (hphase : ∀ time, c.phase ≠ .returned time)
    (hbefore : ∀ set invoked time, s.calls id ≠ some ⟨set, invoked, .returned time⟩)
    {i : ι} {v : V i} {time : Nat} :
    Completed ⟨record, Function.update s.calls id (some c), clock⟩ i v time ↔
      Completed s i v time := by
  unfold Completed
  refine exists_congr fun id' => exists_congr fun invoked => ?_
  by_cases hid : id' = id
  · subst hid
    simp only [Function.update_self, Option.some.injEq]
    constructor
    · rintro rfl
      exact absurd rfl (hphase time)
    · intro h
      exact absurd h (hbefore _ _ _)
  · simp only [Function.update_of_ne hid]

/-- The call that returns now is completed, and nothing else changes. -/
theorem completed_return {id invoked : Nat} {set : (i : ι) × V i} {record : (i : ι) → V i}
    {clock : Nat} (hbefore : ∀ set invoked time, s.calls id ≠ some ⟨set, invoked, .returned time⟩)
    {i : ι} {v : V i} {time : Nat} :
    Completed
        ⟨record, Function.update s.calls id (some ⟨set, invoked, .returned s.clock⟩), clock⟩
        i v time ↔
      (set = ⟨i, v⟩ ∧ time = s.clock) ∨ Completed s i v time := by
  unfold Completed
  constructor
  · rintro ⟨id', invoked', h⟩
    by_cases hid : id' = id
    · subst hid
      simp only [Function.update_self, Option.some.injEq, Call.mk.injEq, Phase.returned.injEq] at h
      exact Or.inl ⟨h.1, h.2.2.symm⟩
    · simp only [Function.update_of_ne hid] at h
      exact Or.inr ⟨id', invoked', h⟩
  · rintro (⟨rfl, rfl⟩ | ⟨id', invoked', h⟩)
    · exact ⟨id, invoked, by simp⟩
    · refine ⟨id', invoked', ?_⟩
      have hid : id' ≠ id := by
        rintro rfl
        exact hbefore _ _ _ h
      simpa only [Function.update_of_ne hid] using h

end

/-! ## Steps -/

variable [DecidableEq ι]

def step (s : Shared V) (i : Step V) : Shared V :=
  match i with
  | .invoke id set =>
    match s.calls id with
    | some _ => s
    | none =>
      { s with
        calls := Function.update s.calls id (some ⟨set, s.clock, .invoked⟩)
        clock := s.clock + 1 }
  | .load id =>
    match s.calls id with
    | some ⟨set, time, .invoked⟩ =>
      { s with
        calls := Function.update s.calls id (some ⟨set, time, .copied s.record⟩)
        clock := s.clock + 1 }
    | _ => s
  | .store id =>
    match s.calls id with
    | some ⟨set, time, .copied copy⟩ =>
      { record := Function.update copy set.1 set.2
        calls := Function.update s.calls id (some ⟨set, time, .returned s.clock⟩)
        clock := s.clock + 1 }
    | _ => s

def start (record : (i : ι) → V i) : Shared V :=
  { record := record, calls := fun _ => none, clock := 0 }

/-- What a call publishes differs from the record only in its own field: since the call
copied the record, no other field has been changed. -/
def Undisturbed (s : Shared V) : Step V → Prop
  | .store id =>
    ∀ set time copy, s.calls id = some ⟨set, time, .copied copy⟩ →
      ∀ j, j ≠ set.1 → copy j = s.record j
  | _ => True

/-- Field `i` holds its first value if no call for it has returned, and else the value of
the call for it that returned last. -/
def Intact (first : (i : ι) → V i) (s : Shared V) (i : ι) : Prop :=
  ((∀ v time, ¬ Completed s i v time) ∧ s.record i = first i) ∨
    ∃ time, Completed s i (s.record i) time ∧
      ∀ v time', Completed s i v time' → time' ≤ time

def Past (s : Shared V) : Prop := ∀ i v time, Completed s i v time → time < s.clock

section

variable {s : Shared V} {first : (i : ι) → V i}

/-- An undisturbed step either leaves the record and the completed calls as they are, or
completes one call and sets its field. -/
theorem step_cases {i : Step V} (hcond : Undisturbed s i) :
    s.clock ≤ (step s i).clock ∧
      (((step s i).record = s.record ∧
          ∀ j v time, Completed (step s i) j v time ↔ Completed s j v time) ∨
        ∃ set : (i : ι) × V i, (step s i).record = Function.update s.record set.1 set.2 ∧
          s.clock < (step s i).clock ∧
          ∀ j v time, Completed (step s i) j v time ↔
            (set = ⟨j, v⟩ ∧ time = s.clock) ∨ Completed s j v time) := by
  cases i with
  | invoke id set =>
    cases hcall : s.calls id with
    | some c => simp [step, hcall]
    | none =>
      simp only [step, hcall]
      refine ⟨Nat.le_succ _, Or.inl ⟨trivial, fun j v time => completed_update ?_ ?_⟩⟩
      · simp
      · simp [hcall]
  | load id =>
    cases hcall : s.calls id with
    | none => simp [step, hcall]
    | some c =>
      obtain ⟨set, time, phase⟩ := c
      cases phase with
      | invoked =>
        simp only [step, hcall]
        refine ⟨Nat.le_succ _, Or.inl ⟨trivial, fun j v time => completed_update ?_ ?_⟩⟩
        · simp
        · simp [hcall]
      | copied copy | returned time => simp [step, hcall]
  | store id =>
    cases hcall : s.calls id with
    | none => simp [step, hcall]
    | some c =>
      obtain ⟨set, time, phase⟩ := c
      cases phase with
      | invoked => simp [step, hcall]
      | copied copy =>
        simp only [step, hcall]
        refine ⟨Nat.le_succ _, Or.inr ⟨set, ?_, Nat.lt_succ_self _, ?_⟩⟩
        · funext j
          by_cases hj : j = set.1
          · subst hj
            simp
          · rw [Function.update_of_ne hj, Function.update_of_ne hj]
            exact hcond set time copy hcall j hj
        · exact fun j v time => completed_return (by simp [hcall])
      | returned time => simp [step, hcall]

/-- An undisturbed step keeps every field intact. -/
theorem intact_step {i : Step V} (hcond : Undisturbed s i)
    (h : (∀ j, Intact first s j) ∧ Past s) :
    (∀ j, Intact first (step s i) j) ∧ Past (step s i) := by
  obtain ⟨hintact, hpast⟩ := h
  obtain ⟨hclock, ⟨hrecord, hcompleted⟩ | ⟨set, hrecord, hlt, hcompleted⟩⟩ := step_cases hcond
  · constructor
    · intro j
      simp only [Intact, hrecord, hcompleted]
      exact hintact j
    · intro j v time hdone
      exact (hpast j v time ((hcompleted j v time).mp hdone)).trans_le hclock
  · constructor
    · intro j
      by_cases hj : j = set.1
      · subst hj
        refine Or.inr ⟨s.clock, ?_, ?_⟩
        · rw [hcompleted, hrecord, Function.update_self]
          exact Or.inl ⟨rfl, rfl⟩
        · intro v time hdone
          rcases (hcompleted _ _ _).mp hdone with ⟨-, rfl⟩ | hdone
          · exact le_refl _
          · exact (hpast _ _ _ hdone).le
      · have hother (v : V j) (time : Nat) :
            Completed (step s i) j v time ↔ Completed s j v time := by
          rw [hcompleted]
          constructor
          · rintro (⟨rfl, -⟩ | hdone)
            · exact absurd rfl hj
            · exact hdone
          · exact Or.inr
        have hsame : (step s i).record j = s.record j := by
          rw [hrecord, Function.update_of_ne hj]
        simp only [Intact, hsame, hother]
        exact hintact j
    · intro j v time hdone
      rcases (hcompleted j v time).mp hdone with ⟨-, rfl⟩ | hdone
      · exact hlt
      · exact (hpast j v time hdone).trans hlt

/-- In a run of undisturbed steps every field is intact all along. -/
theorem intact_states {steps : List (Step V)}
    (hrun : AllSteps step Undisturbed (start first) steps) :
    ∀ t ∈ states step (start first) steps, ∀ i, Intact first t i := by
  intro t ht
  have hstart : (∀ j, Intact first (start first) j) ∧ Past (start first) := by
    constructor
    · intro j
      exact Or.inl ⟨by simp [Completed, start], rfl⟩
    · rintro i v time ⟨id, invoked, h⟩
      simp [start] at h
  exact (invariant_states (fun _ _ => intact_step) hrun hstart t ht).1

end

/-! ## The order of the calls -/

def Ordered (s : Shared V) : Prop :=
  ∀ id c, s.calls id = some c → c.time < s.clock ∧ ∀ time, c.phase = .returned time → c.time ≤ time

theorem ordered_step {s : Shared V} (i : Step V) (h : Ordered s) : Ordered (step s i) := by
  have hlater {id : Nat} {c : Call V} (hnew : c.time ≤ s.clock)
      (hreturned : ∀ time, c.phase = .returned time → c.time ≤ time)
      {record : (i : ι) → V i} :
      Ordered ⟨record, Function.update s.calls id (some c), s.clock + 1⟩ := by
    intro id' c' hcall
    by_cases hid : id' = id
    · subst hid
      simp only [Function.update_self, Option.some.injEq] at hcall
      subst hcall
      exact ⟨Nat.lt_succ_of_le hnew, hreturned⟩
    · simp only [Function.update_of_ne hid] at hcall
      obtain ⟨htime, hphase⟩ := h id' c' hcall
      exact ⟨Nat.lt_succ_of_lt htime, hphase⟩
  cases i with
  | invoke id set =>
    simp only [step]
    split
    · exact h
    · exact hlater (le_refl _) (by simp)
  | load id =>
    simp only [step]
    split
    · rename_i set time hcall
      have htime : time ≤ s.clock := (h id _ hcall).1.le
      exact hlater htime (by simp)
    · exact h
  | store id =>
    simp only [step]
    split
    · rename_i set time copy hcall
      have htime : time ≤ s.clock := (h id _ hcall).1.le
      refine hlater htime ?_
      rintro _ ⟨⟩
      exact htime
    · exact h

theorem ordered_states {first : (i : ι) → V i} {steps : List (Step V)} :
    ∀ t ∈ states step (start first) steps, Ordered t := by
  have hrun : AllSteps step (fun _ _ => True) (start first) steps :=
    allSteps_of_forall (fun _ _ => trivial) _ _
  exact invariant_states (fun _ i _ h => ordered_step i h) hrun (by simp [Ordered, start])

def AllReturned (s : Shared V) : Prop :=
  ∀ id c, s.calls id = some c → ∃ time, c.phase = .returned time

/-- Field `i` holds its first value if there was no call for it, and else the value of a
call for it after whose return no other call for it was invoked. -/
def Latest (first : (i : ι) → V i) (s : Shared V) (i : ι) : Prop :=
  ((∀ id c, s.calls id = some c → c.set.1 ≠ i) ∧ s.record i = first i) ∨
    ∃ time, Completed s i (s.record i) time ∧
      ∀ id c, s.calls id = some c → c.set.1 = i → ¬ time < c.time

omit [DecidableEq ι] in
theorem latest_of_intact {first : (i : ι) → V i} {s : Shared V} {i : ι} (hall : AllReturned s)
    (hordered : Ordered s) (hintact : Intact first s i) : Latest first s i := by
  have hcompleted {id : Nat} {c : Call V} (hcall : s.calls id = some c) (hfield : c.set.1 = i) :
      ∃ v time, Completed s i v time ∧ c.time ≤ time := by
    obtain ⟨time, hreturned⟩ := hall id c hcall
    have hle := (hordered id c hcall).2 time hreturned
    obtain ⟨⟨j, v⟩, invoked, phase⟩ := c
    cases hfield
    cases hreturned
    exact ⟨v, time, ⟨id, invoked, hcall⟩, hle⟩
  rcases hintact with ⟨hnone, hfirst⟩ | ⟨time, hdone, hlast⟩
  · refine Or.inl ⟨?_, hfirst⟩
    intro id c hcall hfield
    obtain ⟨v, time, hdone, -⟩ := hcompleted hcall hfield
    exact hnone v time hdone
  · refine Or.inr ⟨time, hdone, ?_⟩
    intro id c hcall hfield hlater
    obtain ⟨v, time', hdone', hle⟩ := hcompleted hcall hfield
    have := hlast v time' hdone'
    omega

end GloryHole.Support.CloneSwap
