import GloryHole.Support.Runs

/-!
# A shared table of results

Calls of one function look for their key in a shared table, compute the result if it is not there,
and leave it in the table unless that is full.  The size is counted beside the table, so that calls
race.  A table that starts sound stays so: what it holds under a key is the result for that key.
-/

namespace GloryHole.Support.Memo

variable {κ α : Type} [BEq κ]

structure Table (κ α : Type) where
  entries : List (κ × α) := []
  len : Int := 0

inductive Phase (α : Type) where
  | load
  | compute
  | loadLen (fresh : α)
  | loadOrStore (fresh : α)
  | addLen (value : α)
  | done (value : Option α)

/-- An operation of a call for `key`.  A call that finds the key stored in the meantime goes on with
the stored result if `adopt` is set, and with its own otherwise. -/
def Table.step (compute : κ → Option α) (cap : Int) (adopt : Bool) (key : κ) (m : Table κ α) :
    Phase α → Table κ α × Phase α
  | .load =>
    match m.entries.lookup key with
    | some value => (m, .done (some value))
    | none => (m, .compute)
  | .compute =>
    match compute key with
    | none => (m, .done none)
    | some fresh => (m, .loadLen fresh)
  | .loadLen fresh =>
    if m.len < cap then (m, .loadOrStore fresh) else (m, .done (some fresh))
  | .loadOrStore fresh =>
    match m.entries.lookup key with
    | some actual => (m, .done (some (if adopt then actual else fresh)))
    | none => ({ m with entries := (key, fresh) :: m.entries }, .addLen fresh)
  | .addLen value => ({ m with len := m.len + 1 }, .done (some value))
  | .done value => (m, .done value)

def Phase.rank : Phase α → Nat
  | .load => 5
  | .compute => 4
  | .loadLen _ => 3
  | .loadOrStore _ => 2
  | .addLen _ => 1
  | .done _ => 0

def Table.Sound (compute : κ → Option α) (m : Table κ α) : Prop :=
  ∀ e ∈ m.entries, compute e.1 = some e.2

def Phase.Sound (compute : κ → Option α) (key : κ) : Phase α → Prop
  | .load => True
  | .compute => True
  | .loadLen fresh => compute key = some fresh
  | .loadOrStore fresh => compute key = some fresh
  | .addLen value => compute key = some value
  | .done value => compute key = value

variable {compute : κ → Option α} (cap : Int) (adopt : Bool) {key : κ} {m : Table κ α}

theorem Table.Sound.lookup [LawfulBEq κ] (h : m.Sound compute) {value : α}
    (hvalue : m.entries.lookup key = some value) : compute key = some value := by
  obtain ⟨before, after, heq, -⟩ := List.lookup_eq_some_iff.mp hvalue
  exact h (key, value) (by simp [heq])

theorem step_sound [LawfulBEq κ] (hm : m.Sound compute) {phase : Phase α}
    (hphase : phase.Sound compute key) :
    (m.step compute cap adopt key phase).1.Sound compute ∧
      (m.step compute cap adopt key phase).2.Sound compute key := by
  cases phase with
  | load =>
    rw [Table.step]
    cases hlookup : m.entries.lookup key with
    | none => exact ⟨hm, trivial⟩
    | some value => exact ⟨hm, hm.lookup hlookup⟩
  | compute =>
    rw [Table.step]
    cases hcompute : compute key with
    | none | some fresh => exact ⟨hm, hcompute⟩
  | loadLen fresh =>
    rw [Table.step]
    split
    · exact ⟨hm, hphase⟩
    · exact ⟨hm, hphase⟩
  | loadOrStore fresh =>
    rw [Table.step]
    cases hlookup : m.entries.lookup key with
    | none => exact ⟨List.forall_mem_cons.mpr ⟨hphase, hm⟩, hphase⟩
    | some actual =>
      refine ⟨hm, ?_⟩
      cases adopt with
      | true => exact hm.lookup hlookup
      | false => exact hphase
  | addLen value | done value => exact ⟨hm, hphase⟩

theorem rank_step (phase : Phase α) :
    (m.step compute cap adopt key phase).2.rank ≤ phase.rank - 1 := by
  cases phase with
  | addLen value | done value => exact Nat.le_refl _
  | _ =>
    rw [Table.step]
    split <;> simp [Phase.rank]

end GloryHole.Support.Memo
