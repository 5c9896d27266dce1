import GloryHole.Support.Runs

/-!
# Threads over one memory

Any number of threads take turns on a shared memory.  A thread is where it is in its program, with
the values it has read; a turn is one atomic step of one thread, with what it finds outside of the
memory, such as the clock, as an input.  A run is a list of turns, so every interleaving is one.
-/

namespace GloryHole.Support.Threads

open Support.Runs

variable {μ τ κ ι : Type}

structure Pool (μ τ : Type) where
  memory : μ
  threads : List τ

inductive Turn (κ ι : Type) where
  | spawn (k : κ)
  | run (i : Nat) (input : ι)

def Turn.isOf (i : Nat) : Turn κ ι → Bool
  | .spawn _ => false
  | .run j _ => j = i

namespace Pool

def step (start : κ → τ) (next : μ → τ → ι → μ × τ) (p : Pool μ τ) : Turn κ ι → Pool μ τ
  | .spawn k => { p with threads := p.threads ++ [start k] }
  | .run i input =>
    match p.threads[i]? with
    | none => p
    | some t =>
      let (memory, t') := next p.memory t input
      ⟨memory, p.threads.set i t'⟩

def count (here : τ → Bool) (p : Pool μ τ) : Nat := p.threads.countP here

def Alone (here : τ → Bool) (p : Pool μ τ) (i : Nat) : Prop :=
  ∀ j t, p.threads[j]? = some t → here t = true → j = i

section

variable {start : κ → τ} {next : μ → τ → ι → μ × τ} {p : Pool μ τ} {here : τ → Bool} {i : Nat}
  {input : ι} {t : τ}

theorem step_run (h : p.threads[i]? = some t) :
    p.step start next (.run i input) =
      ⟨(next p.memory t input).1, p.threads.set i (next p.memory t input).2⟩ := by
  simp only [step, h]

theorem step_run_none (h : p.threads[i]? = none) :
    p.step start next (.run i input) = p := by
  simp only [step, h]

theorem countP_set_add {l : List τ} (h : l[i]? = some t) (t' : τ) :
    (l.set i t').countP here + (if here t then 1 else 0) =
      l.countP here + (if here t' then 1 else 0) := by
  obtain ⟨hi, rfl⟩ := List.getElem?_eq_some_iff.mp h
  have hpos : here l[i] = true → 0 < l.countP here :=
    fun hat => List.countP_pos_iff.mpr ⟨l[i], List.getElem_mem hi, hat⟩
  rw [List.countP_set hi]
  by_cases hat : here l[i] = true
  · have := hpos hat
    simp only [hat, if_true]
    omega
  · simp [hat]

/-- A turn takes the thread away from where it was and adds it where it is now. -/
theorem count_run (h : p.threads[i]? = some t) :
    (p.step start next (.run i input)).count here + (if here t then 1 else 0) =
      p.count here + (if here (next p.memory t input).2 then 1 else 0) := by
  rw [step_run h]
  exact countP_set_add h _

theorem count_spawn (k : κ) :
    ((p.step start next (.spawn k : Turn κ ι)).count here) =
      p.count here + (if here (start k) then 1 else 0) := by
  simp [step, count, List.countP_append, List.countP_cons]

theorem count_pos (h : p.threads[i]? = some t) (hat : here t = true) : 0 < p.count here :=
  List.countP_pos_iff.mpr ⟨t, List.mem_of_getElem? h, hat⟩

theorem count_mono {here' : τ → Bool} (h : ∀ t, here t = true → here' t = true) :
    p.count here ≤ p.count here' :=
  List.countP_mono_left fun t _ => h t

/-- Points of two kinds. -/
theorem count_add {here₁ here₂ : τ → Bool}
    (h : ∀ t, here t = true → here₁ t = true ∨ here₂ t = true) :
    p.count here ≤ p.count here₁ + p.count here₂ := by
  unfold count
  induction p.threads with
  | nil => simp
  | cons t ts ih =>
    have ht := h t
    simp only [List.countP_cons]
    by_cases hat : here t = true
    · rcases ht hat with hat' | hat'
      · simp only [hat, hat', if_true]
        omega
      · simp only [hat, hat', if_true]
        omega
    · simp only [hat, if_false, Bool.false_eq_true]
      omega

theorem alone_iff : p.Alone here i ↔
    ∀ j ∈ List.range p.threads.length, p.threads[j]?.all here = true → j = i := by
  refine ⟨fun h j hj hall => ?_, fun h j t ht hat => ?_⟩
  · have hlt := List.mem_range.mp hj
    rw [List.getElem?_eq_getElem hlt, Option.all_some] at hall
    exact h j _ (List.getElem?_eq_getElem hlt) hall
  · refine h j (List.mem_range.mpr (List.getElem?_eq_some_iff.mp ht).1) ?_
    rw [ht, Option.all_some]
    exact hat

instance decidableAlone : Decidable (p.Alone here i) := decidable_of_iff' _ alone_iff

theorem countP_eq_of_alone {l : List τ} (h : ∀ j u, l[j]? = some u → here u = true → j = i)
    (hi : l[i]? = some t) : l.countP here = if here t then 1 else 0 := by
  induction l generalizing i with
  | nil => cases hi
  | cons u us ih =>
    rw [List.countP_cons]
    cases i with
    | zero =>
      obtain rfl : u = t := by simpa using hi
      have hrest : us.countP here = 0 := by
        rw [List.countP_eq_zero]
        intro v hv hat
        obtain ⟨j, hj⟩ := List.getElem?_of_mem hv
        exact absurd (h (j + 1) v (by simpa using hj) hat) (Nat.succ_ne_zero j)
      rw [hrest, Nat.zero_add]
    | succ i =>
      have hhead : ¬ here u = true :=
        fun hat => absurd (h 0 u rfl hat) (Nat.succ_ne_zero i).symm
      have hrest : ∀ j v, us[j]? = some v → here v = true → j = i :=
        fun j v hv hat => Nat.succ.inj (h (j + 1) v (by simpa using hv) hat)
      rw [ih hrest (by simpa using hi), if_neg hhead, Nat.add_zero]

/-- If thread `i` is alone at the points, the number of threads there is that of `i` itself. -/
theorem Alone.count_eq (h : p.Alone here i) (hthread : p.threads[i]? = some t) :
    p.count here = if here t then 1 else 0 :=
  countP_eq_of_alone h hthread

/-- What holds of a thread that has just taken a turn and is kept for the others holds of all. -/
theorem forall_run {P : Nat → τ → Prop} (h : p.threads[i]? = some t)
    (hself : P i (next p.memory t input).2)
    (hothers : ∀ j u, j ≠ i → p.threads[j]? = some u → P j u) :
    ∀ j u, (p.step start next (.run i input)).threads[j]? = some u → P j u := by
  intro j u hu
  rw [step_run h] at hu
  by_cases hj : j = i
  · subst hj
    rw [List.getElem?_set_self (List.getElem?_eq_some_iff.mp h).1] at hu
    cases hu
    exact hself
  · rw [List.getElem?_set_ne (Ne.symm hj)] at hu
    exact hothers j u hj hu

theorem forall_spawn {P : Nat → τ → Prop} (k : κ) (hnew : P p.threads.length (start k))
    (hold : ∀ j u, p.threads[j]? = some u → P j u) :
    ∀ j u, (p.step start next (.spawn k : Turn κ ι)).threads[j]? = some u → P j u := by
  intro j u hu
  change (p.threads ++ [start k])[j]? = some u at hu
  rcases Nat.lt_trichotomy j p.threads.length with hlt | rfl | hgt
  · rw [List.getElem?_append_left hlt] at hu
    exact hold j u hu
  · rw [List.getElem?_concat_length] at hu
    cases hu
    exact hnew
  · rw [List.getElem?_eq_none (by simp; omega)] at hu
    cases hu

/-- A thread with `n` steps to go at most has finished after `n` turns, whatever the others do. -/
theorem exec_finishes {rank : τ → Nat} {P : τ → Prop}
    (hrank : ∀ m t input, rank (next m t input).2 ≤ rank t - 1)
    (hkeep : ∀ m t input, P t → P (next m t input).2) (hi : p.threads[i]? = some t) (ht : P t)
    {turns : List (Turn κ ι)} (hturns : rank t ≤ turns.countP (Turn.isOf i)) :
    ∃ t', (exec (step start next) p turns).threads[i]? = some t' ∧ P t' ∧ rank t' = 0 := by
  induction turns generalizing p t with
  | nil => exact ⟨t, hi, ht, by simpa using hturns⟩
  | cons turn turns ih =>
    rw [List.countP_cons] at hturns
    cases turn with
    | spawn k =>
      apply ih _ ht (by simpa [Turn.isOf] using hturns)
      show (p.threads ++ [start k])[i]? = some t
      rw [List.getElem?_append_left (List.getElem?_eq_some_iff.mp hi).1]
      exact hi
    | run j input =>
      by_cases hj : j = i
      · subst hj
        have hrank' := hrank p.memory t input
        simp only [Turn.isOf, decide_true, if_true] at hturns
        apply ih _ (hkeep p.memory t input ht) (by omega)
        rw [step_run hi, List.getElem?_set_self (List.getElem?_eq_some_iff.mp hi).1]
      · simp only [Turn.isOf, hj, decide_false, Bool.false_eq_true, if_false] at hturns
        apply ih _ ht hturns
        cases hu : p.threads[j]? with
        | none =>
          rw [step_run_none hu]
          exact hi
        | some u =>
          rw [step_run hu, List.getElem?_set_ne hj]
          exact hi

end

end Pool

end GloryHole.Support.Threads
