import GloryHole.Support.Runs

/-!
# Machines with outputs

Two machines that take the same inputs answer alike as long as their states stay related.
-/

namespace GloryHole.Support.Bisimulation

open Support.Runs

variable {σ τ ι ο : Type*}

def outputs (step : σ → ι → σ × ο) : σ → List ι → List ο
  | _, [] => []
  | s, i :: is => (step s i).2 :: outputs step (step s i).1 is

def both (step : σ → ι → σ × ο) (step' : τ → ι → τ × ο) (s : σ × τ) (i : ι) : σ × τ :=
  ((step s.1 i).1, (step' s.2 i).1)

/-- Machines whose related states answer alike and stay related answer alike in every run. -/
theorem outputs_eq {step : σ → ι → σ × ο} {step' : τ → ι → τ × ο} {R : σ → τ → Prop}
    {cond : σ × τ → ι → Prop}
    (hstep : ∀ s t i, R s t → cond (s, t) i →
      R (step s i).1 (step' t i).1 ∧ (step s i).2 = (step' t i).2)
    {s : σ} {t : τ} {is : List ι} (hrel : R s t)
    (hrun : AllSteps (both step step') cond (s, t) is) :
    outputs step s is = outputs step' t is := by
  induction is generalizing s t with
  | nil => rfl
  | cons i is ih =>
    obtain ⟨hrel', hout⟩ := hstep s t i hrel hrun.1
    rw [outputs, outputs, hout, ih hrel' hrun.2]

end GloryHole.Support.Bisimulation
