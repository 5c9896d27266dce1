import GloryHole.Storage.FlushWorker

/-!
# Nothing is lost in the flush worker

What has been received is what has been flushed and what the slice shows.  A copy that was made for
the statistics is in an array of its own, which no later use of the slice touches.
-/

namespace GloryHole.Storage.FlushWorker

open Support.Slices Support.Runs

variable {α : Type}

/-- The slice shows `pending`, which has been received and not flushed; the copies show what was
flushed, and none shares the array of the slice. -/
structure Inv (batchSize : Nat) (w : FlushWorker α) (pending : List α) : Prop where
  holds : w.heap.Holds w.batch pending
  conserved : w.flushed.flatten ++ pending = w.received
  short : pending.length ≤ batchSize
  batches : ∀ b ∈ w.flushed, b ≠ [] ∧ b.length ≤ batchSize
  sent : ∀ c ∈ w.sent, w.heap.Holds c.1 c.2 ∧ c.1.array ≠ w.batch.array ∧ c.2 ∈ w.flushed

variable {batchSize : Nat} {w : FlushWorker α} {pending : List α}

theorem inv_start (batchSize : Nat) : Inv batchSize (start batchSize) ([] : List α) where
  holds := Heap.holds_alloc [] [] batchSize
  conserved := rfl
  short := Nat.zero_le _
  batches b hb := by cases hb
  sent c hc := by cases hc

theorem Inv.receive (h : Inv batchSize w pending) (hroom : pending.length < batchSize) (query : α)
    (grown : Nat) : Inv batchSize (w.receive query grown) (pending ++ [query]) where
  holds := h.holds.append query grown
  conserved := by
    show _ = w.received ++ [query]
    rw [← h.conserved, List.append_assoc]
    rfl
  short := by simpa using hroom
  batches := h.batches
  sent c hc := by
    obtain ⟨hcopy, hne, hmem⟩ := h.sent c hc
    refine ⟨hcopy.of_array_eq (Heap.append_frame _ _ _ _ hcopy.lt_length hne), ?_, hmem⟩
    -- the slice keeps its array or moves to a new one
    show c.1.array ≠ (w.heap.append w.batch query grown).2.array
    unfold Heap.append
    split
    · exact hne
    · exact hcopy.lt_length.ne

/-- A flush, whatever it does to the heap and to the copies. -/
theorem Inv.flushed (h : Inv batchSize w pending) (hne : pending ≠ []) {heap : Heap α}
    {sent : List (Slice × List α)} (hholds : heap.Holds w.batch pending)
    (hsent : ∀ c ∈ sent, heap.Holds c.1 c.2 ∧ c.1.array ≠ w.batch.array ∧
      (c ∈ w.sent ∨ c.2 = pending)) :
    Inv batchSize
      ⟨heap, { w.batch with len := 0 }, w.received, w.flushed ++ [pending], sent⟩ [] where
  holds := hholds.cut
  conserved := by simpa using h.conserved
  short := Nat.zero_le _
  batches b hb := by
    rcases List.mem_append.mp hb with hb | hb
    · exact h.batches b hb
    · obtain rfl := List.mem_singleton.mp hb
      exact ⟨hne, h.short⟩
  sent c hc := by
    obtain ⟨hcopy, harray, hold | hnew⟩ := hsent c hc
    · exact ⟨hcopy, harray, List.mem_append_left _ (h.sent c hold).2.2⟩
    · exact ⟨hcopy, harray, List.mem_append_right _ (List.mem_singleton.mpr hnew)⟩

theorem Inv.flush (h : Inv batchSize w pending) (outcome : FlushOutcome) :
    Inv batchSize (w.flush outcome) [] := by
  have hlength := h.holds.length_eq
  unfold FlushWorker.flush
  split
  · obtain rfl : pending = [] := List.length_eq_zero_iff.mp (by omega)
    exact h
  · have hne : pending ≠ [] := fun hnil => by simp [hnil] at hlength; omega
    have hcopies : ∀ c ∈ w.sent, (w.heap.alloc pending 0).1.Holds c.1 c.2 ∧
        c.1.array ≠ w.batch.array ∧ (c ∈ w.sent ∨ c.2 = pending) := fun c hc =>
      ⟨(h.sent c hc).1.alloc _ _, (h.sent c hc).2.1, .inl hc⟩
    cases outcome with
    | failed =>
      rw [h.holds.read_eq]
      exact h.flushed hne h.holds fun c hc => ⟨(h.sent c hc).1, (h.sent c hc).2.1, .inl hc⟩
    | updated =>
      simp only [FlushWorker.flushBatch, h.holds.read_eq]
      exact h.flushed hne (h.holds.alloc _ _) hcopies
    | sent =>
      simp only [FlushWorker.flushBatch, h.holds.read_eq]
      refine h.flushed hne (h.holds.alloc _ _) ?_
      intro c hc
      rcases List.mem_append.mp hc with hc | hc
      · exact hcopies c hc
      · obtain rfl := List.mem_singleton.mp hc
        exact ⟨Heap.holds_alloc _ _ _, h.holds.lt_length.ne', .inr rfl⟩

theorem inv_step (hpos : 1 ≤ batchSize) (w : FlushWorker α) (e : FlushEvent α)
    (h : ∃ pending, Inv batchSize w pending ∧ pending.length < batchSize) :
    ∃ pending, Inv batchSize (w.step batchSize e) pending ∧ pending.length < batchSize := by
  obtain ⟨pending, h, hroom⟩ := h
  cases e with
  | tick outcome => exact ⟨[], h.flush outcome, hpos⟩
  | receive query outcome =>
    have hreceived := h.receive hroom query (2 * batchSize)
    have hlength := hreceived.holds.length_eq
    simp only [step]
    split
    · exact ⟨[], hreceived.flush outcome, hpos⟩
    · exact ⟨_, hreceived, by omega⟩

theorem flush_received (w : FlushWorker α) (outcome : FlushOutcome) :
    (w.flush outcome).received = w.received := by
  unfold flush
  split
  · rfl
  · cases outcome <;> rfl

theorem step_received (w : FlushWorker α) (e : FlushEvent α) :
    (w.step batchSize e).received = w.received ++ e.query.toList := by
  cases e with
  | tick outcome =>
    rw [step, flush_received]
    exact (List.append_nil _).symm
  | receive query outcome =>
    simp only [step]
    split
    · rw [flush_received]
      rfl
    · rfl

theorem exec_received (w : FlushWorker α) (events : List (FlushEvent α)) :
    (exec (step batchSize) w events).received = w.received ++ events.filterMap (·.query) := by
  induction events generalizing w with
  | nil => simp
  | cons e events ih =>
    rw [exec_cons, ih, step_received, List.append_assoc]
    cases e <;> rfl

/-- The batches are what was received, in order; none is empty or too long; and a copy for the
statistics shows its batch in every later state. -/
theorem flush_worker_conserves (hpos : 1 ≤ batchSize) (events : List (FlushEvent α))
    (last : FlushOutcome) :
    (run batchSize events last).flushed.flatten = events.filterMap (·.query) ∧
    (∀ b ∈ (run batchSize events last).flushed, b ≠ [] ∧ b.length ≤ batchSize) ∧
    ∀ v ∈ states (step batchSize) (start batchSize) events ++ [run batchSize events last],
      ∀ c ∈ v.sent, v.heap.read c.1 = c.2 ∧ c.2 ∈ v.flushed := by
  have hinv := invariant_states (fun w e _ => inv_step hpos w e)
    (allSteps_of_forall (fun _ _ => trivial) (start batchSize) events)
    ⟨[], inv_start batchSize, hpos⟩
  obtain ⟨pending, hlast, -⟩ := hinv _ (exec_mem_states _ events)
  have hrun := hlast.flush last
  refine ⟨?_, hrun.batches, ?_⟩
  · have hconserved := hrun.conserved
    rw [List.append_nil, flush_received, exec_received] at hconserved
    exact hconserved
  · intro v hv c hc
    rcases List.mem_append.mp hv with hv | hv
    · obtain ⟨pending, h, -⟩ := hinv v hv
      exact ⟨(h.sent c hc).1.read_eq, (h.sent c hc).2.2⟩
    · obtain rfl := List.mem_singleton.mp hv
      exact ⟨(hrun.sent c hc).1.read_eq, (hrun.sent c hc).2.2⟩

theorem flush_worker_conserves_two :
    (run 2 [.receive 1 .failed, .receive 2 .sent, .receive 3 .failed] .updated).flushed.flatten =
      [1, 2, 3] :=
  (flush_worker_conserves (by decide) _ _).1

end GloryHole.Storage.FlushWorker
