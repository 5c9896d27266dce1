import GloryHole.Storage.Pipeline

/-!
# What becomes of a committed batch

A batch is committed before it is counted.  At the hand-over it can be lost to the statistics of
the clients and of the hours: the flush worker then updates those of the domains only.  For every
summary, the committed queries of a run are the counted ones, those on their way and the lost ones.
-/

namespace GloryHole.Storage

open Go Support.Runs Support.Tally

/-! ## Batches on their way -/

/-- The order in which the statistics worker updates the tables. -/
def Summary.index : Summary → Nat
  | .domains => 0
  | .clients => 1
  | .hours => 2

def FlushPhase.awaiting (summary : Summary) : FlushPhase → List QueryLog
  | .sending _ copy => copy
  | .updating _ copy => if summary = .domains then copy else []
  | _ => []

def StatsPhase.awaiting (summary : Summary) : StatsPhase → List QueryLog
  | .updating next batch => if next.index ≤ summary.index then batch else []
  | _ => []

def FlushPhase.last : FlushPhase → Bool
  | .collecting => false
  | .flushing last => last
  | .sending last _ => last
  | .updating last _ => last
  | .done => true

namespace Pipeline

/-- The committed queries that the summary does not count yet. -/
def awaiting (summary : Summary) (s : Pipeline) : List QueryLog :=
  s.flush.awaiting summary ++ (s.domainStatsCh.flatten ++ s.stats.awaiting summary)

def HasRoom (s : Pipeline) : Prop :=
  s.closed = false ∧ s.domainStatsCh.length < statsCapacity

instance decidableHasRoom (s : Pipeline) : Decidable s.HasRoom :=
  inferInstanceAs (Decidable (_ ∧ _))

def lost (summary : Summary) (s : Pipeline) : Event → List QueryLog
  | .send =>
    match s.flush with
    | .sending _ copy => if summary = .domains ∨ s.HasRoom then [] else copy
    | _ => []
  | _ => []

def lostAll (limits : Limits) (summary : Summary) (s : Pipeline) : List Event → List QueryLog
  | [] => []
  | e :: es => s.lost summary e ++ lostAll limits summary (s.step limits e) es

/-! ## One step -/

theorem awaiting_congr {s t : Pipeline} (summary : Summary)
    (hflush : t.flush.awaiting summary = s.flush.awaiting summary)
    (hchannel : t.domainStatsCh = s.domainStatsCh) (hstats : t.stats = s.stats) :
    t.awaiting summary = s.awaiting summary := by
  unfold awaiting
  rw [hflush, hchannel, hstats]

theorem afterFlush_awaiting (summary : Summary) (last : Bool) :
    (afterFlush last).awaiting summary = [] := by
  cases last <;> rfl

theorem startFlush_awaiting (summary : Summary) (s : Pipeline) (last : Bool) :
    (s.startFlush last).flush.awaiting summary = [] := by
  unfold startFlush
  dsimp only
  split
  · exact afterFlush_awaiting summary last
  · rfl

theorem logQuery_awaiting (limits : Limits) (summary : Summary) (s : Pipeline) (query : QueryLog)
    (now : Time) (cancelled : Bool) :
    ((s.logQuery limits query now cancelled).toOption.getD s).awaiting summary =
      s.awaiting summary := by
  unfold logQuery
  dsimp only
  split
  · rfl
  · split
    · rfl
    · split
      · rfl
      · rfl

theorem receive_awaiting (limits : Limits) (summary : Summary) (s : Pipeline) :
    (s.receive limits).awaiting summary = s.awaiting summary := by
  unfold receive
  split
  case h_1 query rest hflush hbuffer =>
    dsimp only
    split
    · exact awaiting_congr summary (by rw [startFlush_awaiting, hflush]; rfl) rfl rfl
    · rfl
  case h_2 hflush hbuffer =>
    split
    · exact awaiting_congr summary (by rw [startFlush_awaiting, hflush]; rfl) rfl rfl
    · rfl
  case h_3 => rfl

section Sending

variable {s : Pipeline} {last : Bool} {copy : List QueryLog} (hflush : s.flush = .sending last copy)

include hflush

theorem send_of_hasRoom (hroom : s.HasRoom) :
    s.send = { s with domainStatsCh := s.domainStatsCh ++ [copy] }.endFlush last := by
  unfold send
  rw [hflush]
  dsimp only
  rw [if_neg (by simp [hroom.1]), if_pos hroom.2]

theorem send_of_not_hasRoom (hroom : ¬ s.HasRoom) :
    s.send = { s with flush := .updating last copy } := by
  unfold send
  rw [hflush]
  dsimp only
  by_cases hclosed : s.closed = true
  · rw [if_pos hclosed]
  · have hfull : ¬ s.domainStatsCh.length < statsCapacity :=
      fun h => hroom ⟨by simpa using hclosed, h⟩
    rw [if_neg hclosed, if_neg hfull]

theorem sending_conserves (summary : Summary) (p : QueryLog → Bool) :
    (s.awaiting summary).countP p =
      (s.send.awaiting summary).countP p + (s.lost summary .send).countP p := by
  unfold lost awaiting
  simp only [hflush]
  by_cases hroom : s.HasRoom
  · rw [send_of_hasRoom hflush hroom, if_pos (Or.inr hroom)]
    have hend : (afterFlush last).awaiting summary = [] := afterFlush_awaiting summary last
    simp only [endFlush, hend, List.countP_append, List.flatten_append, List.flatten_singleton,
      List.countP_nil]
    change copy.countP p + _ = _
    omega
  · rw [send_of_not_hasRoom hflush hroom]
    by_cases hdomains : summary = .domains
    · rw [if_pos (Or.inl hdomains)]
      simp [FlushPhase.awaiting, hdomains]
    · rw [if_neg (by simp [hdomains, hroom])]
      simp only [FlushPhase.awaiting, if_neg hdomains, List.countP_append, List.countP_nil]
      omega

end Sending

theorem send_conserves (summary : Summary) (p : QueryLog → Bool) (s : Pipeline) :
    (s.awaiting summary).countP p =
      (s.send.awaiting summary).countP p + (s.lost summary .send).countP p := by
  cases hflush : s.flush with
  | sending last copy => exact sending_conserves hflush summary p
  | _ => simp [send, lost, hflush]

theorem take_awaiting (summary : Summary) (p : QueryLog → Bool) (s : Pipeline) :
    (s.take.awaiting summary).countP p = (s.awaiting summary).countP p := by
  unfold take
  split
  case h_1 batch rest hstats hchannel =>
    simp only [awaiting, hstats, hchannel, StatsPhase.awaiting, List.countP_append,
      List.flatten_cons, List.countP_nil, Summary.index, Nat.zero_le, if_pos]
    omega
  case h_2 hstats hchannel =>
    split
    · simp [awaiting, hstats, StatsPhase.awaiting]
    · rfl
  case h_3 => rfl

/-- A batch awaits a table until the update of that table. -/
theorem afterUpdate_awaiting (summary next : Summary) (batch : List QueryLog) (rank) :
    (StatsPhase.updating next batch).awaiting summary =
      Statement.counted summary (.updateStats next rank batch) ++
        (afterUpdate batch next).awaiting summary := by
  cases next <;> cases summary <;> simp [StatsPhase.awaiting, Statement.counted, afterUpdate,
    Summary.index]

/-- The step moves committed queries from one place to another and drops none but the lost ones. -/
def Conserves (limits : Limits) (summary : Summary) (p : QueryLog → Bool) (s : Pipeline)
    (e : Event) : Prop :=
  (committed (s.statement e).toList).countP p + (s.awaiting summary).countP p =
    (counted summary (s.statement e).toList).countP p +
      ((s.step limits e).awaiting summary).countP p + (s.lost summary e).countP p

variable {limits : Limits} {summary : Summary} {p : QueryLog → Bool} {s : Pipeline} {e : Event}

theorem conserves_of_awaiting (hstatement : s.statement e = none) (hlost : s.lost summary e = [])
    (hawaiting : (s.step limits e).awaiting summary = s.awaiting summary) :
    Conserves limits summary p s e := by
  unfold Conserves
  rw [hstatement, hlost, hawaiting]
  simp [committed, counted]

theorem tick_awaiting (summary : Summary) (s : Pipeline) :
    (if s.flush = .collecting then s.startFlush false else s).awaiting summary =
      s.awaiting summary := by
  split
  case isTrue hflush =>
    exact awaiting_congr summary (by rw [startFlush_awaiting, hflush]; rfl) rfl rfl
  case isFalse => rfl

theorem insert_conserves : Conserves limits summary p s .insert := by
  cases hflush : s.flush with
  | flushing last =>
    simp [Conserves, statement, step, lost, awaiting, committed, counted, hflush,
      Statement.committed, Statement.counted, FlushPhase.awaiting]
  | _ => exact conserves_of_awaiting (by simp [statement, hflush]) rfl (by simp [step, hflush])

theorem abort_conserves : Conserves limits summary p s .abort := by
  apply conserves_of_awaiting rfl rfl
  cases hflush : s.flush with
  | flushing last =>
    simp only [step, hflush]
    exact awaiting_congr summary (by rw [hflush]; exact afterFlush_awaiting summary last) rfl rfl
  | _ => simp [step, hflush]

theorem update_conserves (rank : GoString → Nat) :
    Conserves limits summary p s (.update rank) := by
  cases hflush : s.flush with
  | updating last copy =>
    simp only [Conserves, statement, step, lost, awaiting, committed, counted, hflush, endFlush,
      afterFlush_awaiting]
    cases summary <;> simp [FlushPhase.awaiting, Statement.committed, Statement.counted]
  | _ => exact conserves_of_awaiting (by simp [statement, hflush]) rfl (by simp [step, hflush])

theorem count_conserves (rank : GoString → Nat) :
    Conserves limits summary p s (.count rank) := by
  cases hstats : s.stats with
  | updating next batch =>
    simp only [Conserves, statement, step, lost, awaiting, committed, counted, hstats,
      afterUpdate_awaiting summary next batch rank, Option.toList_some, List.flatMap_singleton,
      List.countP_append, Statement.committed, List.countP_nil]
    omega
  | _ => exact conserves_of_awaiting (by simp [statement, hstats]) rfl (by simp [step, hstats])

theorem close_awaiting (summary : Summary) (s : Pipeline) :
    s.close.awaiting summary = s.awaiting summary := by
  unfold close
  split
  · rfl
  · rfl

theorem closeReturn_awaiting (summary : Summary) (s : Pipeline) :
    s.closeReturn.awaiting summary = s.awaiting summary := by
  unfold closeReturn
  split
  · rfl
  · rfl

theorem step_conserves (limits : Limits) (summary : Summary) (p : QueryLog → Bool) (s : Pipeline)
    (e : Event) : Conserves limits summary p s e := by
  cases e with
  | logQuery query now cancelled =>
    exact conserves_of_awaiting rfl rfl (logQuery_awaiting limits summary s query now cancelled)
  | receive => exact conserves_of_awaiting rfl rfl (receive_awaiting limits summary s)
  | tick => exact conserves_of_awaiting rfl rfl (tick_awaiting summary s)
  | insert => exact insert_conserves
  | abort => exact abort_conserves
  | send =>
    have hsend := send_conserves summary p s
    simp only [Conserves, statement, step, committed, counted, Option.toList_none,
      List.flatMap_nil, List.countP_nil]
    omega
  | update rank => exact update_conserves rank
  | take =>
    have htake := take_awaiting summary p s
    simp only [Conserves, statement, step, lost, committed, counted, Option.toList_none,
      List.flatMap_nil, List.countP_nil]
    omega
  | count rank => exact count_conserves rank
  | close => exact conserves_of_awaiting rfl rfl (close_awaiting summary s)
  | closeBuffer =>
    apply conserves_of_awaiting rfl rfl
    simp only [step]
    split
    · rfl
    · rfl
  | closeReturn => exact conserves_of_awaiting rfl rfl (closeReturn_awaiting summary s)

/-! ## Whole runs -/

theorem run_conserves (limits : Limits) (summary : Summary) (p : QueryLog → Bool) (s : Pipeline)
    (run : List Event) :
    (committed (s.statements limits run)).countP p + (s.awaiting summary).countP p =
      (counted summary (s.statements limits run)).countP p +
        ((exec (step limits) s run).awaiting summary).countP p +
        (s.lostAll limits summary run).countP p := by
  induction run generalizing s with
  | nil => simp [statements, lostAll, committed, counted]
  | cons e run ih =>
    have hstep := step_conserves limits summary p s e
    have hrest := ih (s.step limits e)
    unfold Conserves committed counted at hstep
    unfold committed counted at hrest ⊢
    simp only [statements, lostAll, exec_cons, List.flatMap_append, List.countP_append]
    omega

/-! ## Closing -/

structure Closing (s : Pipeline) : Prop where
  stats_done : s.stats = .done → s.domainStatsCh = [] ∧ s.closed = true
  flush_last : s.flush.last = true → s.bufferClosed = true
  buffer_closed : s.bufferClosed = true → s.closed = true
  returned : s.closeReturned = true → s.flush = .done ∧ s.stats = .done

theorem opened_closing : opened.Closing := by
  constructor <;> simp [opened, FlushPhase.last]

def ClosedOnce (s : Pipeline) : Event → Prop
  | .close => s.closed = false ∨ s.closeReturned = true
  | _ => True

/-- A batch is handed over only while the storage is open and the channel has room. -/
def HandsOver (s : Pipeline) : Event → Prop
  | .send =>
    match s.flush with
    | .sending _ _ => s.HasRoom
    | _ => True
  | _ => True

def Orderly (s : Pipeline) (e : Event) : Prop := s.ClosedOnce e ∧ s.HandsOver e

theorem last_afterFlush (last : Bool) : (afterFlush last).last = last := by
  cases last <;> rfl

/-- The flush worker goes on to another phase. -/
theorem Closing.flush_change (h : s.Closing) (phase : FlushPhase) (hbusy : s.flush ≠ .done)
    (hlast : phase.last = true → s.bufferClosed = true) (buffer batch : List QueryLog) :
    { s with flush := phase, buffer := buffer, batch := batch }.Closing where
  stats_done := h.stats_done
  flush_last := hlast
  buffer_closed := h.buffer_closed
  returned hreturned := absurd (h.returned hreturned).1 hbusy

theorem Closing.startFlush (h : s.Closing) (hflush : s.flush = .collecting) {last : Bool}
    (hlast : last = true → s.bufferClosed = true) (buffer batch : List QueryLog) :
    ({ s with buffer := buffer, batch := batch }.startFlush last).Closing := by
  refine h.flush_change _ (by rw [hflush]; decide) ?_ buffer batch
  split
  · rw [last_afterFlush]
    exact hlast
  · exact hlast

theorem Closing.logQuery (h : s.Closing) (query : QueryLog) (now : Time) (cancelled : Bool) :
    ((s.logQuery limits query now cancelled).toOption.getD s).Closing := by
  unfold Pipeline.logQuery
  dsimp only
  split
  · exact h
  · split
    · exact h
    · split
      · exact ⟨h.stats_done, h.flush_last, h.buffer_closed, h.returned⟩
      · exact h

theorem Closing.receive (h : s.Closing) : (s.receive limits).Closing := by
  unfold Pipeline.receive
  split
  case h_1 query rest hflush hbuffer =>
    dsimp only
    split
    · exact h.startFlush hflush (by simp) rest _
    · exact ⟨h.stats_done, h.flush_last, h.buffer_closed, h.returned⟩
  case h_2 hflush hbuffer =>
    split
    case isTrue hclosed => exact h.startFlush hflush (fun _ => hclosed) _ _
    case isFalse => exact h
  case h_3 => exact h

theorem Closing.endFlush (h : s.Closing) (hbusy : s.flush ≠ .done) :
    (s.endFlush s.flush.last).Closing := by
  apply h.flush_change _ hbusy
  rw [last_afterFlush]
  exact h.flush_last

theorem Closing.send (h : s.Closing) : s.send.Closing := by
  cases hflush : s.flush with
  | sending last copy =>
    have hlast : last = true → s.bufferClosed = true := by
      have hlast := h.flush_last
      rwa [hflush] at hlast
    by_cases hroom : s.HasRoom
    · have hopen : s.stats ≠ .done := fun hdone => by
        have hclosed := (h.stats_done hdone).2
        rw [hroom.1] at hclosed
        cases hclosed
      rw [send_of_hasRoom hflush hroom]
      refine ⟨fun hdone => absurd hdone hopen, ?_, h.buffer_closed, fun hreturned => ?_⟩
      · change (afterFlush last).last = true → _
        rw [last_afterFlush]
        exact hlast
      · exact absurd (h.returned hreturned).2 hopen
    · rw [send_of_not_hasRoom hflush hroom]
      exact h.flush_change (.updating last copy) (by rw [hflush]; exact FlushPhase.noConfusion)
        hlast _ _
  | _ => simpa [Pipeline.send, hflush] using h

theorem Closing.take (h : s.Closing) : s.take.Closing := by
  unfold Pipeline.take
  split
  case h_1 batch rest hstats hchannel =>
    refine ⟨fun hdone => StatsPhase.noConfusion hdone, h.flush_last, h.buffer_closed,
      fun hreturned => ?_⟩
    have hdone := (h.returned hreturned).2
    rw [hstats] at hdone
    cases hdone
  case h_2 hstats hchannel =>
    split
    case isTrue hclosed =>
      exact ⟨fun _ => ⟨hchannel, hclosed⟩, h.flush_last, h.buffer_closed,
        fun hreturned => ⟨(h.returned hreturned).1, rfl⟩⟩
    case isFalse => exact h
  case h_3 => exact h

theorem Closing.close (h : s.Closing) (honce : s.ClosedOnce .close) : s.close.Closing := by
  unfold Pipeline.close
  split
  case isTrue hclosed =>
    have hreturned : s.closeReturned = true := by
      rcases honce with hopen | hreturned
      · rw [hopen] at hclosed
        cases hclosed
      · exact hreturned
    exact ⟨h.stats_done, h.flush_last, h.buffer_closed, fun _ => h.returned hreturned⟩
  case isFalse =>
    exact ⟨fun hdone => ⟨(h.stats_done hdone).1, rfl⟩, h.flush_last, fun _ => rfl, h.returned⟩

theorem Closing.count (h : s.Closing) {next : Summary} {batch : List QueryLog}
    (hstats : s.stats = .updating next batch) :
    { s with stats := afterUpdate batch next }.Closing := by
  have hbusy : s.stats ≠ .done := by
    rw [hstats]
    exact StatsPhase.noConfusion
  refine ⟨fun hdone => ?_, h.flush_last, h.buffer_closed, fun hreturned => ?_⟩
  · cases next <;> cases hdone
  · exact absurd (h.returned hreturned).2 hbusy

theorem Closing.step (h : s.Closing) (honce : s.ClosedOnce e) : (s.step limits e).Closing := by
  cases e with
  | logQuery query now cancelled => exact h.logQuery query now cancelled
  | receive => exact h.receive
  | tick =>
    simp only [Pipeline.step]
    split
    case isTrue hflush => exact h.startFlush hflush (by simp) _ _
    case isFalse => exact h
  | insert =>
    cases hflush : s.flush with
    | flushing last =>
      simp only [Pipeline.step, hflush]
      have hlast := h.flush_last
      rw [hflush] at hlast
      exact h.flush_change (.sending last s.batch)
        (by rw [hflush]; exact FlushPhase.noConfusion) hlast _ _
    | _ => simpa [Pipeline.step, hflush] using h
  | abort =>
    cases hflush : s.flush with
    | flushing last =>
      simp only [Pipeline.step, hflush]
      have hend := h.endFlush (by rw [hflush]; exact FlushPhase.noConfusion)
      rwa [hflush] at hend
    | _ => simpa [Pipeline.step, hflush] using h
  | send => exact h.send
  | update rank =>
    cases hflush : s.flush with
    | updating last copy =>
      simp only [Pipeline.step, hflush]
      have hend := h.endFlush (by rw [hflush]; exact FlushPhase.noConfusion)
      rwa [hflush] at hend
    | _ => simpa [Pipeline.step, hflush] using h
  | take => exact h.take
  | count rank =>
    cases hstats : s.stats with
    | updating next batch =>
      simp only [Pipeline.step, hstats]
      exact h.count hstats
    | _ => simpa [Pipeline.step, hstats] using h
  | close => exact h.close honce
  | closeBuffer =>
    simp only [Pipeline.step]
    split
    case isTrue hclosed =>
      exact ⟨h.stats_done, fun _ => rfl, fun _ => hclosed, h.returned⟩
    case isFalse => exact h
  | closeReturn =>
    simp only [Pipeline.step, closeReturn]
    split
    case isTrue hdone =>
      exact ⟨h.stats_done, h.flush_last, h.buffer_closed, fun _ => hdone.2⟩
    case isFalse => exact h

theorem Closing.awaiting (h : s.Closing) (hreturned : s.closeReturned = true)
    (summary : Summary) : s.awaiting summary = [] := by
  obtain ⟨hflush, hstats⟩ := h.returned hreturned
  unfold Pipeline.awaiting
  rw [hflush, hstats, (h.stats_done hstats).1]
  rfl

theorem lost_of_handsOver (hover : s.HandsOver e) (summary : Summary) : s.lost summary e = [] := by
  cases e with
  | send =>
    cases hflush : s.flush with
    | sending last copy =>
      have hroom : s.HasRoom := by
        unfold HandsOver at hover
        simpa only [hflush] using hover
      simp [lost, hflush, hroom]
    | _ => simp [lost, hflush]
  | _ => rfl

/-- The statistics of the domains lose nothing. -/
theorem lost_domains (s : Pipeline) (e : Event) : s.lost .domains e = [] := by
  cases e with
  | send => cases hflush : s.flush <;> simp [lost, hflush]
  | _ => rfl

theorem lostAll_eq_nil {cond : Pipeline → Event → Prop} {summary : Summary}
    (hlost : ∀ s e, cond s e → s.lost summary e = []) {run : List Event}
    (hrun : AllSteps (Pipeline.step limits) cond s run) :
    s.lostAll limits summary run = [] := by
  induction run generalizing s with
  | nil => rfl
  | cons e run ih => rw [lostAll, hlost s e hrun.1, ih hrun.2, List.nil_append]

/-- If no step loses anything, the summary has counted what was committed when `Close` returns. -/
theorem counted_eq_committed {cond : Pipeline → Event → Prop} {summary : Summary}
    (honce : ∀ s e, cond s e → s.ClosedOnce e)
    (hlost : ∀ s e, cond s e → s.lost summary e = []) {run : List Event}
    (hrun : AllSteps (Pipeline.step limits) cond opened run)
    (hreturned : (exec (Pipeline.step limits) opened run).closeReturned = true)
    (p : QueryLog → Bool) :
    (counted summary (opened.statements limits run)).countP p =
      (committed (opened.statements limits run)).countP p := by
  have hconserves := run_conserves limits summary p opened run
  have hclosing : (exec (Pipeline.step limits) opened run).Closing :=
    invariant_exec (fun s e hcond h => h.step (honce s e hcond)) hrun opened_closing
  have hopened : opened.awaiting summary = [] := rfl
  rw [hclosing.awaiting hreturned, lostAll_eq_nil hlost hrun, hopened] at hconserves
  simp only [List.countP_nil] at hconserves
  omega

end Pipeline

/-! ## The tables -/

/-- The column of the row of each key has grown by the rows of that key that meet `q`. -/
def Grown {ν : Type} (key : ν → GoString) (column : ν → Nat) (before after : List ν)
    (rows : List QueryLog) (keyOf : QueryLog → GoString) (q : QueryLog → Bool) : Prop :=
  ∀ k, valueAt key column k after =
    valueAt key column k before + rows.countP fun x => decide (keyOf x = k) && q x

structure CountedOnce (before after : Database) (rows : List QueryLog) : Prop where
  domains : Grown DomainStat.domain DomainStat.queryCount before.domainStats after.domainStats
    rows QueryLog.domain fun _ => true
  clients : Grown ClientStat.clientIP ClientStat.totalQueries before.clientStats
    after.clientStats rows QueryLog.clientIP fun _ => true
  clientsBlocked : Grown ClientStat.clientIP ClientStat.blockedQueries before.clientStats
    after.clientStats rows QueryLog.clientIP QueryLog.blocked
  clientsNxdomain : Grown ClientStat.clientIP ClientStat.nxdomainQueries before.clientStats
    after.clientStats rows QueryLog.clientIP QueryLog.nxdomain
  hours : Grown HourStat.hourText HourStat.totalQueries before.hourlyStats after.hourlyStats
    rows QueryLog.hourText fun _ => true
  hoursBlocked : Grown HourStat.hourText HourStat.blockedQueries before.hourlyStats
    after.hourlyStats rows QueryLog.hourText QueryLog.blocked
  hoursCached : Grown HourStat.hourText HourStat.cachedQueries before.hourlyStats
    after.hourlyStats rows QueryLog.hourText QueryLog.cached
  hoursNxdomain : Grown HourStat.hourText HourStat.nxdomainQueries before.hourlyStats
    after.hourlyStats rows QueryLog.hourText QueryLog.nxdomain

theorem IsTable.grown {μ ν : Type} {zoneName : Time → GoString}
    {agg : Support.Tally.Aggregation QueryLog GoString μ ν} {summary : Summary}
    {table : Database → List ν} (htable : IsTable zoneName agg summary table)
    {column : ν → Nat} {q : QueryLog → Bool} (hcounts : agg.Counts column q)
    {statements : List Statement}
    (hcounted : ∀ p, (counted summary statements).countP p = (committed statements).countP p)
    (before : Database) :
    Grown agg.key column (table before) (table (before.applyAll zoneName statements))
      (committed statements) agg.keyOf q := by
  intro k
  rw [htable.valueAt_applyAll hcounts, hcounted]

theorem countedOnce_of_counted (zoneName : Time → GoString) {statements : List Statement}
    (hcounted : ∀ summary p,
      (counted summary statements).countP p = (committed statements).countP p)
    (before : Database) :
    CountedOnce before (before.applyAll zoneName statements) (committed statements) where
  domains := (isTable_domainStats zoneName).grown (domainStats_counts zoneName) (hcounted _) before
  clients := (isTable_clientStats zoneName).grown clientStats_counts_all (hcounted _) before
  clientsBlocked :=
    (isTable_clientStats zoneName).grown clientStats_counts_blocked (hcounted _) before
  clientsNxdomain :=
    (isTable_clientStats zoneName).grown clientStats_counts_nxdomain (hcounted _) before
  hours := (isTable_hourlyStats zoneName).grown hourlyStats_counts_all (hcounted _) before
  hoursBlocked :=
    (isTable_hourlyStats zoneName).grown hourlyStats_counts_blocked (hcounted _) before
  hoursCached :=
    (isTable_hourlyStats zoneName).grown hourlyStats_counts_cached (hcounted _) before
  hoursNxdomain :=
    (isTable_hourlyStats zoneName).grown hourlyStats_counts_nxdomain (hcounted _) before

/-- The domains are counted once in every run, however full the channel is. -/
theorem domains_counted_once (zoneName : Time → GoString) (limits : Limits) (before : Database)
    {run : List Event}
    (hrun : AllSteps (Pipeline.step limits) Pipeline.ClosedOnce Pipeline.opened run)
    (hreturned : (exec (Pipeline.step limits) Pipeline.opened run).closeReturned = true) :
    Grown DomainStat.domain DomainStat.queryCount before.domainStats
      (before.applyAll zoneName (Pipeline.opened.statements limits run)).domainStats
      (committed (Pipeline.opened.statements limits run)) QueryLog.domain fun _ => true :=
  (isTable_domainStats zoneName).grown (domainStats_counts zoneName)
    (Pipeline.counted_eq_committed (fun _ _ h => h) (fun s e _ => s.lost_domains e) hrun hreturned)
    before

theorem orderly_run_counted_once (zoneName : Time → GoString) (limits : Limits)
    (before : Database) (run : List Event)
    (hrun : AllSteps (Pipeline.step limits) Pipeline.Orderly Pipeline.opened run)
    (hreturned : (exec (Pipeline.step limits) Pipeline.opened run).closeReturned = true) :
    ∃ rows, (before.applyAll zoneName (Pipeline.opened.statements limits run)).queries =
        before.queries ++ rows ∧
      CountedOnce before (before.applyAll zoneName (Pipeline.opened.statements limits run))
        rows := by
  refine ⟨_, applyAll_queries zoneName before _, countedOnce_of_counted zoneName ?_ before⟩
  intro summary
  exact Pipeline.counted_eq_committed (fun _ _ h => h.1)
    (fun _ _ h => Pipeline.lost_of_handsOver h.2 summary) hrun hreturned

def newYearQuery : QueryLog :=
  ⟨newYear, lit "192.0.2.1", lit "ads.example.", 0, true, false⟩

def countedRun : List Event :=
  [.logQuery newYearQuery newYear false, .receive, .tick, .insert, .send, .take,
    .count fun _ => 0, .count fun _ => 0, .count fun _ => 0, .close, .closeBuffer, .receive, .take,
    .closeReturn]

theorem orderly_run_counted_once_countedRun :
    ∃ rows, (Database.empty.applyAll (fun _ => [])
          (Pipeline.opened.statements (.validate 0 0) countedRun)).queries = [] ++ rows ∧
      CountedOnce .empty (Database.empty.applyAll (fun _ => [])
        (Pipeline.opened.statements (.validate 0 0) countedRun)) rows :=
  orderly_run_counted_once (fun _ => []) (.validate 0 0) .empty countedRun
    (by
      have hroom : ∀ copy, Pipeline.HasRoom
          ⟨[], [newYearQuery], .sending false copy, [], .idle, false, false, false⟩ :=
        fun _ => ⟨rfl, Nat.zero_lt_succ _⟩
      exact ⟨⟨trivial, trivial⟩, ⟨trivial, trivial⟩, ⟨trivial, trivial⟩, ⟨trivial, trivial⟩,
        ⟨trivial, hroom _⟩, ⟨trivial, trivial⟩, ⟨trivial, trivial⟩, ⟨trivial, trivial⟩,
        ⟨trivial, trivial⟩, ⟨Or.inl rfl, trivial⟩, ⟨trivial, trivial⟩, ⟨trivial, trivial⟩,
        ⟨trivial, trivial⟩, ⟨trivial, trivial⟩, trivial⟩)
    (by decide +kernel)

def lateRun : List Event :=
  [.logQuery newYearQuery newYear false, .close, .closeBuffer, .receive, .receive, .insert, .send,
    .update fun _ => 0, .take, .closeReturn]

/-- The late query is committed, and neither its client nor its hour is counted. -/
theorem lateRun_not_counted :
    (exec (Pipeline.step (.validate 0 0)) Pipeline.opened lateRun).closeReturned = true ∧
      (Database.empty.applyAll (fun _ => [])
        (Pipeline.opened.statements (.validate 0 0) lateRun)).queries = [newYearQuery] ∧
      ¬ CountedOnce .empty (Database.empty.applyAll (fun _ => [])
        (Pipeline.opened.statements (.validate 0 0) lateRun)) [newYearQuery] := by
  refine ⟨by decide +kernel, by decide +kernel, fun hcounted => ?_⟩
  have hhours := hcounted.hours newYearQuery.hourText
  revert hhours
  decide +kernel

theorem domains_counted_once_lateRun :
    Grown DomainStat.domain DomainStat.queryCount []
      (Database.empty.applyAll (fun _ => [])
        (Pipeline.opened.statements (.validate 0 0) lateRun)).domainStats
      (committed (Pipeline.opened.statements (.validate 0 0) lateRun)) QueryLog.domain
      fun _ => true :=
  domains_counted_once (fun _ => []) _ .empty
    ⟨trivial, Or.inl rfl, trivial, trivial, trivial, trivial, trivial, trivial, trivial, trivial,
      trivial⟩
    (by decide +kernel)

end GloryHole.Storage
