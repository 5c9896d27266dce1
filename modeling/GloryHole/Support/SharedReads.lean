import GloryHole.Support.Runs

/-!
# Programs that read a shared record

A program loads a record that others replace at any time and makes use of parts of it.  `Safe`
holds of a program that, whatever records with a given property it loads, uses only parts that are
allowed and never dereferences nil.  It stays safe in every run in which the records that are
stored all have the property.
-/

namespace GloryHole.Support.SharedReads

open Support.Runs

/-- A program that loads records of type `σ` and uses parts of type `ω`. -/
inductive Prog (σ ω α : Type) where
  | done (a : α)
  | crash
  | load (next : σ → Prog σ ω α)
  | use (part : ω) (next : Prog σ ω α)

variable {σ ω α β : Type}

def Prog.bind : Prog σ ω α → (α → Prog σ ω β) → Prog σ ω β
  | .done a, f => f a
  | .crash, _ => .crash
  | .load next, f => .load fun s => (next s).bind f
  | .use part next, f => .use part (next.bind f)

instance : Monad (Prog σ ω) where
  pure := .done
  bind := Prog.bind

def read (f : σ → α) : Prog σ ω α := .load fun s => .done (f s)

/-! ## The rule -/

section

variable (inv : σ → Prop) (ok : ω → Prop)

/-- The program uses only parts that are `ok`, never dereferences nil and ends in a value
with `post`, if the records it loads have `inv`. -/
def Safe (post : α → Prop) : Prog σ ω α → Prop
  | .done a => post a
  | .crash => False
  | .load next => ∀ s, inv s → Safe post (next s)
  | .use part next => ok part ∧ Safe post next

end

variable {inv : σ → Prop} {ok : ω → Prop}

theorem safe_bind {post : β → Prop} {p : Prog σ ω α} {f : α → Prog σ ω β} :
    Safe inv ok post (p >>= f) ↔ Safe inv ok (fun a => Safe inv ok post (f a)) p := by
  change Safe inv ok post (p.bind f) ↔ _
  induction p with
  | done a | crash => rfl
  | load next ih => exact forall_congr' fun s => imp_congr_right fun _ => ih s
  | use part next ih => exact and_congr_right fun _ => ih

theorem Safe.mono {post post' : α → Prop} {p : Prog σ ω α} (h : Safe inv ok post p)
    (himp : ∀ a, post a → post' a) : Safe inv ok post' p := by
  induction p with
  | done a => exact himp a h
  | crash => exact h
  | load next ih => exact fun s hs => ih s (h s hs)
  | use part next ih => exact ⟨h.1, ih h.2⟩

/-- The rule of composition. -/
theorem Safe.bind {post : α → Prop} {post' : β → Prop} {p : Prog σ ω α} {f : α → Prog σ ω β}
    (hp : Safe inv ok post p) (hf : ∀ a, post a → Safe inv ok post' (f a)) :
    Safe inv ok post' (p >>= f) :=
  safe_bind.mpr (hp.mono hf)

/-- The rule of a load: what follows is safe with the value in any record with `inv`. -/
theorem Safe.read_bind {post : β → Prop} {f : σ → α} {k : α → Prog σ ω β}
    (h : ∀ s, inv s → Safe inv ok post (k (f s))) : Safe inv ok post (read f >>= k) :=
  h

/-! ## Runs -/

structure State (σ ω α : Type) where
  record : σ
  prog : Prog σ ω α
  used : List ω

inductive Step (σ : Type) where
  | store (record : σ)
  | advance

def step (s : State σ ω α) : Step σ → State σ ω α
  | .store record => { s with record := record }
  | .advance =>
    match s.prog with
    | .load next => { s with prog := next s.record }
    | .use part next => { s with prog := next, used := s.used ++ [part] }
    | _ => s

def Prog.Finished : Prog σ ω α → Prop
  | .done _ => True
  | _ => False

def Stores (inv : σ → Prop) (s : State σ ω α) : Step σ → Prop
  | .store record => inv record ∨ s.prog.Finished
  | .advance => True

/-- What a step keeps: the program has used only parts that are `ok`, and it has ended or
is safe with the record as it is. -/
structure Sound (inv : σ → Prop) (ok : ω → Prop) (post : α → Prop) (s : State σ ω α) :
    Prop where
  used : ∀ part ∈ s.used, ok part
  rest : s.prog.Finished ∨ inv s.record ∧ Safe inv ok post s.prog

theorem Sound.step {post : α → Prop} {s : State σ ω α} {i : Step σ} (hcond : Stores inv s i)
    (h : Sound inv ok post s) : Sound inv ok post (step s i) := by
  obtain ⟨hused, hrest⟩ := h
  cases i with
  | store record =>
    refine ⟨hused, ?_⟩
    rcases hcond with hinv | hfinished
    · exact hrest.imp_right fun h => ⟨hinv, h.2⟩
    · exact Or.inl hfinished
  | advance =>
    obtain ⟨record, prog, used⟩ := s
    cases prog with
    | done a | crash => exact ⟨hused, hrest⟩
    | load next =>
      obtain hfalse | ⟨hinv, hsafe⟩ := hrest
      · exact hfalse.elim
      · exact ⟨hused, Or.inr ⟨hinv, hsafe record hinv⟩⟩
    | use part next =>
      obtain hfalse | ⟨hinv, hok, hsafe⟩ := hrest
      · exact hfalse.elim
      · refine ⟨?_, Or.inr ⟨hinv, hsafe⟩⟩
        intro part' hpart'
        rcases List.mem_append.mp hpart' with hmem | hmem
        · exact hused part' hmem
        · rw [List.mem_singleton.mp hmem]
          exact hok

theorem Sound.ne_crash {post : α → Prop} {s : State σ ω α} (h : Sound inv ok post s) :
    s.prog ≠ .crash := by
  intro hcrash
  have hrest := h.rest
  rw [hcrash] at hrest
  exact hrest.elim id And.right

/-- A safe program stays safe while only records with `inv` are stored. -/
theorem sound_states {post : α → Prop} {s : State σ ω α} {steps : List (Step σ)}
    (hrun : AllSteps step (Stores inv) s steps) (h : Sound inv ok post s) :
    ∀ t ∈ states step s steps, Sound inv ok post t :=
  invariant_states (fun _ _ => Sound.step) hrun h

end GloryHole.Support.SharedReads
