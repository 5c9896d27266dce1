import Mathlib

/-!
# Runs of a labelled state machine

A machine is a total step function `step : σ → ι → σ`; a run is the list of the
labels it consumes.  Everything the environment decides (an outcome, a delay, an
interleaving) is part of the label, so a property of all runs is a property of
all behaviours.
-/

namespace GloryHole.Support.Runs

variable {σ ι : Type*}

def exec (step : σ → ι → σ) : σ → List ι → σ
  | s, [] => s
  | s, i :: is => exec step (step s i) is

/-- The states a run passes through, the first and the last one included. -/
def states (step : σ → ι → σ) : σ → List ι → List σ
  | s, [] => [s]
  | s, i :: is => s :: states step (step s i) is

def AllSteps (step : σ → ι → σ) (cond : σ → ι → Prop) : σ → List ι → Prop
  | _, [] => True
  | s, i :: is => cond s i ∧ AllSteps step cond (step s i) is

instance decidableAllSteps (step : σ → ι → σ) (cond : σ → ι → Prop)
    [∀ s i, Decidable (cond s i)] : ∀ s is, Decidable (AllSteps step cond s is)
  | _, [] => isTrue trivial
  | s, i :: is =>
    have := decidableAllSteps step cond (step s i) is
    inferInstanceAs (Decidable (_ ∧ _))

variable {step : σ → ι → σ} {cond : σ → ι → Prop} {inv : σ → Prop}

@[simp] theorem exec_nil (s : σ) : exec step s [] = s := rfl

@[simp] theorem exec_cons (s : σ) (i : ι) (is : List ι) :
    exec step s (i :: is) = exec step (step s i) is := rfl

theorem exec_append (s : σ) (is js : List ι) :
    exec step s (is ++ js) = exec step (exec step s is) js := by
  induction is generalizing s with
  | nil => rfl
  | cons i is ih => exact ih (step s i)

theorem mem_states_self (s : σ) (is : List ι) : s ∈ states step s is := by
  cases is <;> simp [states]

theorem exec_mem_states (s : σ) (is : List ι) : exec step s is ∈ states step s is := by
  induction is generalizing s with
  | nil => simp [states]
  | cons i is ih => exact List.mem_cons_of_mem _ (ih (step s i))

/-- The invariant rule: what every admissible step keeps holds in every state of
an admissible run. -/
theorem invariant_states
    (hstep : ∀ s i, cond s i → inv s → inv (step s i)) {s : σ} {is : List ι}
    (hrun : AllSteps step cond s is) (hs : inv s) :
    ∀ t ∈ states step s is, inv t := by
  induction is generalizing s with
  | nil => simpa [states] using hs
  | cons i is ih =>
    intro t ht
    rcases List.mem_cons.mp ht with rfl | ht
    · exact hs
    · exact ih hrun.2 (hstep s i hrun.1 hs) t ht

/-- The invariant rule for the last state of a run. -/
theorem invariant_exec
    (hstep : ∀ s i, cond s i → inv s → inv (step s i)) {s : σ} {is : List ι}
    (hrun : AllSteps step cond s is) (hs : inv s) : inv (exec step s is) :=
  invariant_states hstep hrun hs _ (exec_mem_states s is)

variable {is : List ι} {cond' : σ → ι → Prop}

/-- If, among good states, a step leads to a good state exactly if it is right, then a run stays
among the good states exactly if its steps are right. -/
theorem forall_states_iff {good : σ → Prop} {right : σ → ι → Prop}
    (hstep : ∀ s i, cond s i → good s → (good (step s i) ↔ right s i)) {s : σ}
    (hrun : AllSteps step cond s is) (hgood : good s) :
    (∀ t ∈ states step s is, good t) ↔ AllSteps step right s is := by
  induction is generalizing s with
  | nil => simpa [states, AllSteps] using hgood
  | cons i is ih =>
    have hnext := hstep s i hrun.1 hgood
    rw [states, List.forall_mem_cons, AllSteps]
    constructor
    · rintro ⟨-, hall⟩
      have hgood' := hall _ (mem_states_self _ _)
      exact ⟨hnext.mp hgood', (ih hrun.2 hgood').mp hall⟩
    · rintro ⟨hright, hrest⟩
      exact ⟨hgood, (ih hrun.2 (hnext.mpr hright)).mpr hrest⟩

theorem allSteps_append {s : σ} {js : List ι} :
    AllSteps step cond s (is ++ js) ↔
      AllSteps step cond s is ∧ AllSteps step cond (exec step s is) js := by
  induction is generalizing s with
  | nil => simp [AllSteps]
  | cons i is ih => simp only [List.cons_append, AllSteps, ih, exec_cons, and_assoc]

theorem AllSteps.and {s : σ} (h : AllSteps step cond s is) (h' : AllSteps step cond' s is) :
    AllSteps step (fun s i => cond s i ∧ cond' s i) s is := by
  induction is generalizing s with
  | nil => trivial
  | cons i is ih => exact ⟨⟨h.1, h'.1⟩, ih h.2 h'.2⟩

theorem AllSteps.imp {s : σ} (h : AllSteps step cond s is) (himp : ∀ s i, cond s i → cond' s i) :
    AllSteps step cond' s is := by
  induction is generalizing s with
  | nil => trivial
  | cons i is ih => exact ⟨himp s i h.1, ih h.2⟩

theorem AllSteps.imp_of_invariant {s : σ}
    (hstep : ∀ s i, cond s i → inv s → inv (step s i) ∧ cond' s i) (h : AllSteps step cond s is)
    (hs : inv s) : AllSteps step cond' s is := by
  induction is generalizing s with
  | nil => trivial
  | cons i is ih =>
    obtain ⟨hinv, hcond⟩ := hstep s i h.1 hs
    exact ⟨hcond, ih h.2 hinv⟩

/-- A run through good states takes steps to good states. -/
theorem allSteps_of_forall_states {good : σ → Prop} {s : σ} (h : ∀ t ∈ states step s is, good t) :
    AllSteps step (fun s i => good (step s i)) s is := by
  induction is generalizing s with
  | nil => trivial
  | cons i is ih =>
    refine ⟨h _ (List.mem_cons_of_mem _ (mem_states_self _ _)), ih fun t ht => ?_⟩
    exact h t (List.mem_cons_of_mem _ ht)

theorem allSteps_iff_forall_mem {right : ι → Prop} {s : σ} :
    AllSteps step (fun _ i => right i) s is ↔ ∀ i ∈ is, right i := by
  induction is generalizing s with
  | nil => simp [AllSteps]
  | cons i is ih => rw [AllSteps, ih, List.forall_mem_cons]

theorem allSteps_of_forall (h : ∀ s i, cond s i) (s : σ) (is : List ι) :
    AllSteps step cond s is := by
  induction is generalizing s with
  | nil => trivial
  | cons i is ih => exact ⟨h s i, ih (step s i)⟩

end GloryHole.Support.Runs
