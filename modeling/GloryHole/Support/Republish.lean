import Mathlib.Logic.Function.Basic
import GloryHole.Support.Runs

/-!
# A store and its published view

Several writers change a store and keep a view of it published.  Each commits its change, reads the
store and publishes the view of what it has read, so a view can be out of date when it is
published.  A state is good if the published view is that of the store or will be: a writer is
still to read the store, or holds the view of it as it is.
-/

namespace GloryHole.Support.Republish

variable {σ ν : Type}

inductive Writer (ν : Type) where
  | idle
  | committed
  | holding (v : ν)

structure State (σ ν : Type) where
  store : σ
  published : ν
  writers : Nat → Writer ν

inductive Move (σ : Type) where
  | commit (t : Nat) (store : σ)
  | read (t : Nat)
  | publish (t : Nat)
  /-- The writer ends without having read. -/
  | abandon (t : Nat)

namespace State

variable (view : σ → ν)

def set (s : State σ ν) (t : Nat) (writer : Writer ν) : State σ ν :=
  { s with writers := Function.update s.writers t writer }

def move (s : State σ ν) : Move σ → State σ ν
  | .commit t store => { s.set t .committed with store := store }
  | .read t =>
    match s.writers t with
    | .committed => s.set t (.holding (view s.store))
    | _ => s
  | .publish t =>
    match s.writers t with
    | .holding v => { s.set t .idle with published := v }
    | _ => s
  | .abandon t =>
    match s.writers t with
    | .committed => s.set t .idle
    | _ => s

def Current (s : State σ ν) (t : Nat) : Prop :=
  s.writers t = .committed ∨ s.writers t = .holding (view s.store)

def Good (s : State σ ν) : Prop := s.published = view s.store ∨ ∃ t, s.Current view t

/-- The move takes away the published view or a writer only if what is left is good: the view
it publishes is that of the store, or another writer is going to publish it. -/
def Timely (s : State σ ν) : Move σ → Prop
  | .commit _ _ => True
  | .read _ => True
  | .publish t =>
    (∀ v, s.writers t = .holding v → v = view s.store) ∨ ∃ t', t' ≠ t ∧ s.Current view t'
  | .abandon t =>
    s.writers t = .committed →
      s.published = view s.store ∨ ∃ t', t' ≠ t ∧ s.Current view t'

end State

section

variable {view : σ → ν} {s : State σ ν}

theorem State.move_read {t : Nat} (h : s.writers t = .committed) :
    s.move view (.read t) = s.set t (.holding (view s.store)) := by
  simp only [State.move, h]

theorem State.move_publish {t : Nat} {v : ν} (h : s.writers t = .holding v) :
    s.move view (.publish t) = { s.set t .idle with published := v } := by
  simp only [State.move, h]

theorem State.move_abandon {t : Nat} (h : s.writers t = .committed) :
    s.move view (.abandon t) = s.set t .idle := by
  simp only [State.move, h]

/-- A step of a writer that stays idle is none of the store's. -/
theorem State.eq_of_idle {s' : State σ ν} {t : Nat} {writer : Writer ν}
    (hset : s' = s.set t writer) (hbefore : s.writers t = .idle) (hafter : writer = .idle) :
    s' = s := by
  rw [hset, hafter, ← hbefore, State.set, Function.update_eq_self]

theorem State.Current.set {t t' : Nat} (h : s.Current view t') (hne : t' ≠ t)
    (writer : Writer ν) : (s.set t writer).Current view t' := by
  have hwriter : (s.set t writer).writers t' = s.writers t' := Function.update_of_ne hne _ _
  unfold State.Current
  rw [hwriter]
  exact h

/-- Publishing is good if the view is that of the store or another writer is on its way. -/
theorem State.Good.publish {t : Nat} {v : ν}
    (h : v = view s.store ∨ ∃ t', t' ≠ t ∧ s.Current view t') :
    State.Good view { s.set t .idle with published := v } := by
  rcases h with rfl | ⟨t', hne, hcurrent⟩
  · exact Or.inl rfl
  · exact Or.inr ⟨t', hcurrent.set hne .idle⟩

theorem State.Good.move {m : Move σ} (h : s.Good view) (htimely : s.Timely view m) :
    (s.move view m).Good view := by
  cases m with
  | commit t store => exact Or.inr ⟨t, Or.inl (Function.update_self t _ _)⟩
  | read t =>
    rw [State.move]
    split
    · exact Or.inr ⟨t, Or.inr (Function.update_self t _ _)⟩
    · exact h
  | publish t =>
    rw [State.move]
    split
    · rename_i v hv
      exact State.Good.publish (htimely.imp_left fun hall => hall v hv)
    · exact h
  | abandon t =>
    rw [State.move]
    split
    · rename_i hcommitted
      exact (htimely hcommitted).imp id fun ⟨t', hne, hcurrent⟩ =>
        ⟨t', hcurrent.set hne .idle⟩
    · exact h

/-- Without a writer under way the published view is that of the store. -/
theorem State.Good.published (h : s.Good view) (hidle : ∀ t, s.writers t = .idle) :
    s.published = view s.store := by
  rcases h with h | ⟨t, hcommitted | hholding⟩
  · exact h
  · rw [hidle t] at hcommitted
    cases hcommitted
  · rw [hidle t] at hholding
    cases hholding

open Support.Runs in
/-- A system that is a store with a view: `state` shows it as one and `move` tells what a step
does there, if anything.  In a run of timely steps all states are good. -/
theorem good_exec {ω ι : Type} {step : ω → ι → ω} {state : ω → State σ ν}
    {move : ω → ι → Option (Move σ)}
    (hstep : ∀ w i, state (step w i) = ((move w i).map ((state w).move view)).getD (state w))
    {w : ω} {is : List ι}
    (hrun : AllSteps step (fun w i => ∀ m ∈ move w i, (state w).Timely view m) w is)
    (hw : (state w).Good view) : (state (exec step w is)).Good view := by
  have hkeep : ∀ w i, (∀ m ∈ move w i, (state w).Timely view m) → (state w).Good view →
      (state (step w i)).Good view := by
    intro w i htimely hgood
    rw [hstep]
    cases hmove : move w i with
    | none => exact hgood
    | some m => exact hgood.move (htimely m hmove)
  exact invariant_exec hkeep hrun hw

end

end GloryHole.Support.Republish
