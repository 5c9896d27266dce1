import GloryHole.Storage.Closing

/-!
# Sends on closed channels

While a call holds the read lock, the storage stays as open as it has found it, so the buffer and
the channel of the statistics are never sent on when they are closed.  The buffer of the Unbound
queries is, unless no call is between its check and its send when `Close` closes it.
-/

namespace GloryHole.Storage

open Support.Threads Support.Runs

variable {p : Callers} {g g' : Gate} {c : Caller} {i : Nat} {u : Unit}

/-- `Close` closes the Unbound buffer only while no call is between its check and its send. -/
def quiet (p : Callers) : Turn (Option Channel) Unit → Bool
  | .spawn _ => true
  | .run i _ => p.threads[i]? = some (.closer .bufferClosed) →
      ∀ c ∈ p.threads, c ≠ .sender .unboundBuffer .released

def Caller.Fine (g : Gate) : Caller → Prop
  | .sender _ .checked => g.closed = false
  | .sender ch .released => ch = .unboundBuffer ∧ g.shut .unboundBuffer = false
  | .closer .marked | .closer .statsClosed | .closer .unlocked | .closer .bufferClosed =>
    g.closed = true
  | _ => True

structure SendInv (p : Callers) : Prop where
  excl : ∀ (i : Nat) (c : Caller), p.threads[i]? = some c → c.writes = true →
    ∀ (j : Nat) (d : Caller), p.threads[j]? = some d → d.holds = true → j = i
  fine : ∀ (i : Nat) (c : Caller), p.threads[i]? = some c → c.Fine p.memory
  shut : ∀ ch, p.memory.shut ch = true → p.memory.closed = true
  safe : p.memory.sentAfterClose = false

/-! ## The lock -/

theorem writes_next (h : (g.next c u).2.writes = true) : c.writes = true ∨ c = .closer .start := by
  cases c with
  | sender ch pc => cases h
  | closer pc => cases pc <;> simp_all [Gate.next, nextClose, Caller.writes]

theorem holds_next (h : (g.next c u).2.holds = true) :
    c.holds = true ∨ c = .closer .start ∨ ∃ ch, c = .sender ch .start := by
  cases c with
  | sender ch pc => cases pc <;> simp_all [Gate.next, nextSend, Caller.holds, Caller.writes]
  | closer pc => cases pc <;> simp_all [Gate.next, nextClose, Caller.holds, Caller.writes]

theorem holds_of_writes (h : c.writes = true) : c.holds = true := by
  cases c with
  | sender ch pc => cases h
  | closer pc => exact h

/-- A writer stays alone with the lock. -/
theorem SendInv.excl_run (h : SendInv p) (hi : p.threads[i]? = some c)
    (hgrant : granted p (.run i u) = true) :
    ∀ (j : Nat) (d : Caller), (p.step (.run i u)).threads[j]? = some d → d.writes = true →
      ∀ (k : Nat) (e : Caller), (p.step (.run i u)).threads[k]? = some e → e.holds = true →
        k = j := by
  have hset : ∀ {j : Nat} {d : Caller}, (p.step (.run i u)).threads[j]? = some d →
      j = i ∧ d = (p.memory.next c u).2 ∨ j ≠ i ∧ p.threads[j]? = some d := by
    intro j d
    refine Pool.forall_run (P := fun j d => j = i ∧ d = (p.memory.next c u).2 ∨
      j ≠ i ∧ p.threads[j]? = some d) hi (.inl ⟨rfl, rfl⟩) ?_ j d
    intro j d hj hd
    exact .inr ⟨hj, hd⟩
  simp only [granted, hi] at hgrant
  intro j d hd hwrites k e he hholds
  rcases hset hd with ⟨rfl, rfl⟩ | ⟨-, hd'⟩
  · rcases hset he with ⟨rfl, rfl⟩ | ⟨-, he'⟩
    · rfl
    · rcases writes_next hwrites with hold | rfl
      · exact h.excl _ _ hi hold _ _ he' hholds
      · have hfree : e.holds = false :=
          of_decide_eq_true hgrant e (List.mem_of_getElem? he')
        rw [hfree] at hholds
        cases hholds
  · have hmem := List.mem_of_getElem? hd'
    rcases hset he with ⟨rfl, rfl⟩ | ⟨-, he'⟩
    · rcases holds_next hholds with hold | rfl | ⟨ch, rfl⟩
      · exact h.excl _ _ hd' hwrites _ _ hi hold
      · have hfree : d.holds = false := of_decide_eq_true hgrant d hmem
        rw [holds_of_writes hwrites] at hfree
        cases hfree
      · have hfree : d.writes = false := of_decide_eq_true hgrant d hmem
        rw [hwrites] at hfree
        cases hfree
    · exact h.excl _ _ hd' hwrites _ _ he' hholds

/-! ## What the calls know -/

theorem Caller.Fine.congr (h : c.Fine g) (hclosed : g'.closed = g.closed)
    (hshut : g'.shut .unboundBuffer = g.shut .unboundBuffer) : c.Fine g' := by
  unfold Caller.Fine at h ⊢
  split <;> simp_all

theorem next_fine (hfine : c.Fine g) (hshut : ∀ ch, g.shut ch = true → g.closed = true)
    (hsafe : g.sentAfterClose = false) :
    (g.next c u).2.Fine (g.next c u).1 ∧
      (∀ ch, (g.next c u).1.shut ch = true → (g.next c u).1.closed = true) ∧
      (g.next c u).1.sentAfterClose = false := by
  cases c with
  | sender ch pc =>
    cases pc with
    | start | unlocking | done => exact ⟨trivial, hshut, hsafe⟩
    | locked =>
      refine ⟨?_, hshut, hsafe⟩
      cases hclosed : g.closed <;> simp [Gate.next, nextSend, hclosed, Caller.Fine]
    | checked =>
      have hopen : ∀ ch, g.shut ch = false := by
        intro ch
        cases hch : g.shut ch with
        | false => rfl
        | true => exact absurd (hshut ch hch) (by simpa [Caller.Fine] using hfine)
      simp only [Gate.next, nextSend]
      split
      · exact ⟨⟨‹_›, hopen _⟩, hshut, hsafe⟩
      · exact ⟨trivial, hshut, by simp [Gate.send, hsafe, hopen]⟩
    | released =>
      obtain ⟨rfl, hopen⟩ := hfine
      exact ⟨trivial, hshut, by simp [Gate.next, nextSend, Gate.send, hsafe, hopen]⟩
  | closer pc =>
    cases pc with
    | start | done => exact ⟨trivial, hshut, hsafe⟩
    | locked =>
      simp only [Gate.next, nextClose]
      split
      · exact ⟨trivial, hshut, hsafe⟩
      · exact ⟨rfl, fun _ _ => rfl, hsafe⟩
    | marked | statsClosed | unlocked => exact ⟨hfine, fun _ _ => hfine, hsafe⟩
    | bufferClosed => exact ⟨trivial, fun _ _ => hfine, hsafe⟩

theorem nextSend_same (g : Gate) (ch : Channel) (pc : SenderPc) :
    (nextSend g ch pc).1.closed = g.closed ∧ (nextSend g ch pc).1.shut = g.shut := by
  cases pc with
  | checked =>
    rw [nextSend]
    split <;> exact ⟨rfl, rfl⟩
  | _ => exact ⟨rfl, rfl⟩

/-- What another call knows stays true. -/
theorem SendInv.fine_other (h : SendInv p) (hi : p.threads[i]? = some c)
    (hquiet : quiet p (.run i u) = true) {j : Nat} {d : Caller} (hj : j ≠ i)
    (hd : p.threads[j]? = some d) : d.Fine (p.memory.next c u).1 := by
  have hfine := h.fine j d hd
  cases c with
  | sender ch pc =>
    obtain ⟨hclosed, hshut⟩ := nextSend_same p.memory ch pc
    exact hfine.congr hclosed (congrFun hshut _)
  | closer pc =>
    cases pc with
    | start | statsClosed | done => exact hfine
    | marked | unlocked => exact hfine.congr rfl (by simp [Gate.next, nextClose, Gate.close])
    | locked =>
      simp only [Gate.next, nextClose]
      split
      · exact hfine
      · -- the writer is alone, so no other call has just checked the flag
        cases d with
        | sender ch pc =>
          cases pc with
          | checked => exact absurd (h.excl _ _ hi rfl _ _ hd rfl) hj
          | released => exact hfine
          | _ => trivial
        | closer pc => cases pc <;> first | rfl | trivial
    | bufferClosed =>
      cases d with
      | sender ch pc =>
        cases pc with
        | released =>
          obtain ⟨rfl, -⟩ := hfine
          exact absurd rfl (of_decide_eq_true hquiet hi _ (List.mem_of_getElem? hd))
        | _ => exact hfine
      | closer pc => cases pc <;> exact hfine

theorem SendInv.step (h : SendInv p) (turn : Turn (Option Channel) Unit)
    (hgrant : granted p turn = true) (hquiet : quiet p turn = true) : SendInv (p.step turn) := by
  cases turn with
  | spawn k =>
    have hnew : (startCall k).writes = false ∧ (startCall k).holds = false ∧
        (startCall k).Fine p.memory := by
      cases k <;> exact ⟨rfl, rfl, trivial⟩
    have hold : ∀ (i : Nat) (c : Caller), (p.step (.spawn k)).threads[i]? = some c →
        c = startCall k ∨ p.threads[i]? = some c :=
      Pool.forall_spawn k (.inl rfl) fun _ _ hc => .inr hc
    refine ⟨?_, Pool.forall_spawn k hnew.2.2 h.fine, h.shut, h.safe⟩
    intro i c hc hwrites j d hd hholds
    rcases hold i c hc with rfl | hc
    · rw [hnew.1] at hwrites
      cases hwrites
    · rcases hold j d hd with rfl | hd
      · rw [hnew.2.1] at hholds
        cases hholds
      · exact h.excl i c hc hwrites j d hd hholds
  | run i u =>
    cases hi : p.threads[i]? with
    | none =>
      rw [Callers.step, Pool.step_run_none hi]
      exact h
    | some c =>
      have hmemory : (p.step (.run i u)).memory = (p.memory.next c u).1 := by
        rw [Callers.step, Pool.step_run hi]
      obtain ⟨hfine, hshut, hsafe⟩ := next_fine (u := u) (h.fine i c hi) h.shut h.safe
      refine ⟨h.excl_run hi hgrant, ?_, hmemory ▸ hshut, hmemory ▸ hsafe⟩
      rw [hmemory]
      exact Pool.forall_run (P := fun _ d => d.Fine (p.memory.next c u).1) hi hfine fun j d hj hd =>
        h.fine_other hi hquiet hj hd

theorem sendInv_opened : SendInv ⟨Gate.opened, []⟩ where
  excl i c hc := by simp at hc
  fine i c hc := by simp at hc
  shut ch hch := by cases hch
  safe := rfl

/-- No run in which `Close` is quiet sends on a closed channel. -/
theorem no_send_after_close {turns : List (Turn (Option Channel) Unit)}
    (hrun : AllSteps Callers.step (fun p turn => granted p turn = true ∧ quiet p turn = true)
      ⟨Gate.opened, []⟩ turns) :
    ∀ p ∈ states Callers.step ⟨Gate.opened, []⟩ turns, p.memory.sentAfterClose = false := by
  intro p hp
  exact (invariant_states (fun p turn hturn h => h.step turn hturn.1 hturn.2) hrun sendInv_opened
    p hp).safe

def twoCalls (order : List Nat) : List (Turn (Option Channel) Unit) :=
  .spawn (some .unboundBuffer) :: .spawn none :: order.map (.run · ())

theorem no_send_after_close_serial :
    (states Callers.step ⟨Gate.opened, []⟩ (twoCalls [0, 0, 0, 0, 1, 1, 1, 1, 1, 1])).Forall
      fun p => p.memory.sentAfterClose = false :=
  List.forall_iff_forall_mem.mpr (no_send_after_close (by decide +kernel))

/-- `LogUnboundQuery` finds the storage open, `Close` runs, and then the query is sent. -/
theorem unbound_send_after_close :
    let run := twoCalls [0, 0, 0, 1, 1, 1, 1, 1, 1, 0]
    AllSteps Callers.step (fun p turn => granted p turn = true) ⟨Gate.opened, []⟩ run ∧
      (exec Callers.step ⟨Gate.opened, []⟩ run).memory.sentAfterClose = true := by
  decide +kernel

end GloryHole.Storage
