import GloryHole.Api.PolicyCalls
import GloryHole.Api.Proofs.PolicyFrame
import GloryHole.Support.Republish

/-!
# The engine after policy requests

A call that runs alone does what its handler does.  Of calls that run side by side, the rules
of the engine are those of the table once all have been answered, if none of them installs
rules compiled from older rows when no other is going to install the newer ones.
-/

namespace GloryHole.Api

open Go Policy Storage Support.Runs
open Support.Republish (State Move Writer good_exec)

section

variable (upper : Nat → Nat) (lang : ExprLang)

/-! ## A call alone -/

def Server.after (s : Server) (faults : Faults) :
    Except StorageError (PolicyTable × Response) → Server × Response
  | .error err => (s, .error (.storage err))
  | .ok (table, response) => (s.rebuild upper lang table faults, response)

/-- A handler answers at once, or it comes to its statement. -/
theorem PolicyWorld.opening_cases (w : PolicyWorld) (call : PolicyCall) (faults : Faults) :
    (∃ response, w.opening upper lang faults.count call = .answered response ∧
      call.handle upper lang w.server faults = (w.server, response)) ∨
    ∃ result, w.statement (w.opening upper lang faults.count call) = some result ∧
      call.handle upper lang w.server faults = w.server.after upper lang faults result := by
  cases call with
  | add body =>
    simp only [opening, PolicyCall.handle, handleAddPolicy]
    cases checkRequest upper lang w.server body with
    | error err => exact Or.inl ⟨_, rfl, rfl⟩
    | ok req =>
      refine Or.inr ⟨_, rfl, ?_⟩
      simp only [server]
      cases w.table.createPolicyRule _ with
      | error err | ok p => rfl
  | update id body =>
    simp only [opening, PolicyCall.handle, handleUpdatePolicy, server]
    cases id with
    | none => exact Or.inl ⟨_, rfl, rfl⟩
    | some id =>
      simp only
      cases checkRequest upper lang ⟨w.table, some w.engine⟩ body with
      | error err => exact Or.inl ⟨_, rfl, rfl⟩
      | ok req =>
        refine Or.inr ⟨_, rfl, ?_⟩
        simp only
        cases w.table.updatePolicyRule id (req.dbRule 0) with
        | error err | ok table => rfl
  | delete id =>
    simp only [opening, PolicyCall.handle, handleDeletePolicy, server]
    cases id with
    | none => exact Or.inl ⟨_, rfl, rfl⟩
    | some id =>
      simp only
      generalize List.find? (fun row : PolicyRow => decide (row.id = id)) _ = found
      cases found with
      | none => exact Or.inl ⟨_, rfl, rfl⟩
      | some row =>
        simp only
        by_cases hname : row.rule.name = []
        · simp only [if_pos hname]
          exact Or.inl ⟨_, rfl, rfl⟩
        · simp only [if_neg hname]
          refine Or.inr ⟨_, rfl, ?_⟩
          cases w.table.deletePolicyRule id with
          | error err | ok table => rfl

theorem PolicyWorld.exec_statement (w : PolicyWorld) (t : Nat) (faults : Faults)
    {result : Except StorageError (PolicyTable × Response)}
    (hstatement : w.statement (w.calls t) = some result) :
    (exec (step upper lang) w [.commit t, .read t faults.rebuild, .replace t]).server =
        (w.server.after upper lang faults result).1 ∧
      (exec (step upper lang) w [.commit t, .read t faults.rebuild, .replace t]).calls t =
        .answered (w.server.after upper lang faults result).2 := by
  cases result with
  | error err => simp [step, hstatement, set, server, Server.after]
  | ok p =>
    cases hfails : faults.rebuild with
    | true | false => simp [step, hstatement, set, server, Server.after, Server.rebuild, hfails]

/-- A call that runs alone does what its handler does. -/
theorem PolicyWorld.exec_callSteps (w : PolicyWorld) (t : Nat) (call : PolicyCall)
    (faults : Faults) (hidle : w.calls t = .idle) :
    (exec (step upper lang) w (callSteps t call faults)).server =
        (call.handle upper lang w.server faults).1 ∧
      (exec (step upper lang) w (callSteps t call faults)).calls t =
        .answered (call.handle upper lang w.server faults).2 := by
  have hbegin : w.step upper lang (.begin t call faults.count) =
      w.set t (w.opening upper lang faults.count call) := by
    simp only [step, hidle]
  have hphase (phase : PolicyPhase) : (w.set t phase).calls t = phase :=
    Function.update_self t _ _
  rw [callSteps, exec_cons, hbegin]
  rcases w.opening_cases upper lang call faults with
    ⟨response, hanswered, hhandle⟩ | ⟨result, hstatement, hhandle⟩
  · rw [hanswered, hhandle]
    simp [step, statement, server, set]
  · rw [hhandle]
    refine exec_statement upper lang _ t faults ?_
    rw [hphase]
    exact hstatement

/-! ## The table and the engine as a store with a view -/

def PolicyPhase.writer : PolicyPhase → Writer (List Rule)
  | .committed _ => .committed
  | .compiled rules _ => .holding rules
  | _ => .idle

def PolicyWorld.state (w : PolicyWorld) : State PolicyTable (List Rule) where
  store := w.table
  published := w.engine
  writers := PolicyPhase.writer ∘ w.calls

def PolicyWorld.move (w : PolicyWorld) : PolicyStep → Option (Move PolicyTable)
  | .begin _ _ _ => none
  | .commit t =>
    match w.statement (w.calls t) with
    | some (.ok (table, _)) => some (.commit t table)
    | _ => none
  | .read t fails => some (if fails then .abandon t else .read t)
  | .replace t => some (.publish t)

theorem PolicyWorld.state_set (w : PolicyWorld) (t : Nat) (phase : PolicyPhase) :
    (w.set t phase).state = w.state.set t phase.writer := by
  unfold state set State.set
  rw [Function.comp_update]

theorem PolicyWorld.opening_writer (w : PolicyWorld) (fails : Bool) (call : PolicyCall) :
    (w.opening upper lang fails call).writer = .idle := by
  unfold opening
  grind [PolicyPhase.writer]

theorem PolicyWorld.writer_of_statement {w : PolicyWorld} {phase : PolicyPhase}
    {result : Except StorageError (PolicyTable × Response)}
    (h : w.statement phase = some result) : phase.writer = .idle := by
  cases phase <;> first | rfl | cases h

theorem PolicyWorld.state_step (w : PolicyWorld) (a : PolicyStep) :
    (w.step upper lang a).state =
      ((w.move a).map (w.state.move (compiledRules upper lang))).getD w.state := by
  cases a with
  | begin t call fails =>
    rw [step]
    split
    · rename_i hidle
      exact State.eq_of_idle (w.state_set t _) (congrArg PolicyPhase.writer hidle)
        (w.opening_writer upper lang fails call)
    · rfl
  | commit t =>
    rw [step, move]
    cases hstatement : w.statement (w.calls t) with
    | none => rfl
    | some result =>
      cases result with
      | error err => exact State.eq_of_idle (w.state_set t _) (writer_of_statement hstatement) rfl
      | ok p => exact congrArg (fun s => { s with store := p.1 }) (w.state_set t _)
  | read t fails =>
    have hwriter : w.state.writers t = (w.calls t).writer := rfl
    cases hphase : w.calls t with
    | committed response =>
      rw [hphase] at hwriter
      simp only [step, move, hphase, Option.map_some, Option.getD_some]
      cases fails with
      | true => exact (w.state_set t _).trans (State.move_abandon hwriter).symm
      | false => exact (w.state_set t _).trans (State.move_read hwriter).symm
    | _ => cases fails <;> simp [step, move, State.move, hwriter, hphase, PolicyPhase.writer]
  | replace t =>
    have hwriter : w.state.writers t = (w.calls t).writer := rfl
    cases hphase : w.calls t with
    | compiled rules response =>
      rw [hphase] at hwriter
      simp only [step, move, hphase, Option.map_some, Option.getD_some]
      rw [State.move_publish hwriter]
      exact congrArg (fun s => { s with published := rules })
        (w.state_set t (.answered response))
    | _ => simp [step, move, State.move, hwriter, hphase, PolicyPhase.writer]

end

/-! ## Runs -/

def PolicyWorld.start (upper : Nat → Nat) (lang : ExprLang) (table : PolicyTable) : PolicyWorld :=
  ⟨table, compiledRules upper lang table, fun _ => .idle⟩

def PolicyPhase.Finished : PolicyPhase → Prop
  | .idle => True
  | .answered _ => True
  | _ => False

theorem PolicyPhase.Finished.writer {phase : PolicyPhase} (h : phase.Finished) :
    phase.writer = .idle := by
  cases phase <;> first | rfl | cases h

/-- The step does not put older rules into the engine, nor does a call give up its rebuild,
unless the engine is up to date after it or another call is going to install the rules of the
table as it is. -/
def PolicyWorld.Timely (upper : Nat → Nat) (lang : ExprLang) (w : PolicyWorld)
    (a : PolicyStep) : Prop :=
  ∀ m ∈ w.move a, w.state.Timely (compiledRules upper lang) m

/-- Once all calls have been answered, the engine has the rules of the table. -/
theorem timely_calls_leave_engine_current (upper : Nat → Nat) (lang : ExprLang)
    (table : PolicyTable) (steps : List PolicyStep)
    (htimely : AllSteps (PolicyWorld.step upper lang) (PolicyWorld.Timely upper lang)
      (PolicyWorld.start upper lang table) steps)
    (hfinished : ∀ t, ((exec (PolicyWorld.step upper lang)
      (PolicyWorld.start upper lang table) steps).calls t).Finished) :
    (exec (PolicyWorld.step upper lang) (PolicyWorld.start upper lang table) steps).engine =
      compiledRules upper lang
        (exec (PolicyWorld.step upper lang) (PolicyWorld.start upper lang table) steps).table := by
  have hgood := good_exec (fun w a => w.state_step upper lang a) htimely (Or.inl rfl)
  exact hgood.published fun t => (hfinished t).writer

/-! ## Two requests -/

def blockAll (name : String) : PolicyCall :=
  .add (some ⟨lit name, lit "true", lit "BLOCK", [], true⟩)

theorem exec_callSteps_first :
    let w := PolicyWorld.start id anyLang PolicyTable.empty
    (exec (PolicyWorld.step id anyLang) w (callSteps 0 (blockAll "first") {})).calls 0 =
      .answered ((blockAll "first").handle id anyLang w.server {}).2 :=
  (PolicyWorld.exec_callSteps id anyLang _ 0 _ {} rfl).2

def orderlySteps : List PolicyStep :=
  [.begin 0 (blockAll "first") false, .commit 0, .begin 1 (blockAll "second") false, .commit 1,
    .read 0 false, .replace 0, .read 1 false, .replace 1]

/-- The first request reads the table before the second has written it, and replaces the rules
after the second has. -/
def overtakenSteps : List PolicyStep :=
  [.begin 0 (blockAll "first") false, .commit 0, .read 0 false,
    .begin 1 (blockAll "second") false, .commit 1, .read 1 false, .replace 1, .replace 0]

theorem second_rebuild_leaves_engine_current :
    (exec (PolicyWorld.step id anyLang) (PolicyWorld.start id anyLang PolicyTable.empty)
        orderlySteps).engine =
      compiledRules id anyLang (exec (PolicyWorld.step id anyLang)
        (PolicyWorld.start id anyLang PolicyTable.empty) orderlySteps).table := by
  apply timely_calls_leave_engine_current
  · refine ⟨?_, ?_, ?_, ?_, ?_, ?_, ?_, ?_, trivial⟩
    · rintro m ⟨⟩
    · rintro m ⟨⟩
      trivial
    · rintro m ⟨⟩
    · rintro m ⟨⟩
      trivial
    · rintro m ⟨⟩
      trivial
    · rintro m ⟨⟩
      left
      rintro v ⟨⟩
      rfl
    · rintro m ⟨⟩
      trivial
    · rintro m ⟨⟩
      left
      rintro v ⟨⟩
      rfl
  · rintro (_ | _ | t)
    · trivial
    · trivial
    · trivial

theorem engine_lacks_rule :
    (∀ t, ((exec (PolicyWorld.step id anyLang)
        (PolicyWorld.start id anyLang PolicyTable.empty) overtakenSteps).calls t).Finished) ∧
      (exec (PolicyWorld.step id anyLang) (PolicyWorld.start id anyLang PolicyTable.empty)
        overtakenSteps).engine.map (·.name) = [lit "first"] ∧
      (compiledRules id anyLang (exec (PolicyWorld.step id anyLang)
        (PolicyWorld.start id anyLang PolicyTable.empty) overtakenSteps).table).map (·.name) =
        [lit "first", lit "second"] := by
  refine ⟨?_, ?_, ?_⟩
  · rintro (_ | _ | t)
    · trivial
    · trivial
    · trivial
  · decide +kernel
  · decide +kernel

end GloryHole.Api
