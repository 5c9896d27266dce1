import GloryHole.Api.ClientCalls
import GloryHole.Support.Republish

/-!
# Group membership after client requests

Once all calls have been answered, an address is in a group for the policies just if its
stored profile has the group, if no call stores an older map, or gives up its reload, when no
other is going to store that of the tables as they are.
-/

namespace GloryHole.Api

open Go Policy Storage Support.Runs
open Support.Republish (State Move Writer good_exec)

def HasGroup (tables : ClientTables) (ip g : GoString) : Prop :=
  ∃ row ∈ tables.profiles, row.clientIP = ip ∧ row.groupName = some g

theorem isInGroup_listClientProfiles (tables : ClientTables) (ip g : GoString) :
    isInGroup (groupCache tables.listClientProfiles) ip g ↔ HasGroup tables ip g := by
  rw [isInGroup_groupCache]
  unfold ClientTables.listClientProfiles HasGroup
  simp only [List.mem_map, List.mem_insertionSort, exists_exists_and_eq_and]
  constructor
  · rintro ⟨row, hrow, hip, hgroup, hne⟩
    refine ⟨row, hrow, hip, ?_⟩
    cases hname : row.groupName with
    | none =>
      rw [hname] at hgroup
      exact absurd hgroup.symm hne
    | some name =>
      rw [hname] at hgroup
      exact congrArg some hgroup
  · rintro ⟨row, hrow, hip, hgroup⟩
    refine ⟨row, hrow, hip, by rw [hgroup]; rfl, ?_⟩
    rintro rfl
    exact tables.group_ne_nil row hrow hgroup

/-! ## The profiles and the map as a store with a view -/

def ClientPhase.writer : ClientPhase → Writer GroupCache
  | .committed => .committed
  | .loaded cache => .holding cache
  | _ => .idle

def ClientWorld.state (w : ClientWorld) : State (List ClientProfile) GroupCache where
  store := w.tables.listClientProfiles
  published := w.cache
  writers := ClientPhase.writer ∘ w.calls

def ClientWorld.move (w : ClientWorld) : ClientStep → Option (Move (List ClientProfile))
  | .begin _ _ => none
  | .commit t fails =>
    match w.calls t with
    | .writing statement =>
      match fails, (statement.run w.tables).2 with
      | false, .committed => some (.commit t (statement.run w.tables).1.listClientProfiles)
      | _, _ => none
    | _ => none
  | .read t fails => some (if fails then .abandon t else .read t)
  | .store t => some (.publish t)

section

variable (unescape : GoString → Option GoString) (sanitizeColor : GoString → GoString)

theorem ClientWorld.state_set (w : ClientWorld) (t : Nat) (phase : ClientPhase) :
    (w.set t phase).state = w.state.set t phase.writer := by
  unfold state set State.set
  rw [Function.comp_update]

theorem ClientCall.opening_writer (call : ClientCall) :
    (call.opening unescape sanitizeColor).writer = .idle := by
  unfold opening
  grind [ClientPhase.writer]

/-- A statement after which the handler does not reload leaves the profiles alone. -/
theorem ClientStatement.run_cases (statement : ClientStatement) (tables : ClientTables) :
    (statement.run tables).2 = .committed ∨
      (statement.run tables).1.profiles = tables.profiles ∧
        (statement.run tables).2.writer = .idle := by
  cases statement with
  | updateProfile profile => exact Or.inl rfl
  | upsertGroup group => exact Or.inr ⟨rfl, rfl⟩
  | deleteGroup name =>
    cases hdelete : tables.deleteClientGroup name with
    | none => simp [run, hdelete, ClientPhase.writer]
    | some tables' => simp [run, hdelete]

theorem ClientWorld.state_step (w : ClientWorld) (a : ClientStep) :
    (w.step unescape sanitizeColor a).state =
      ((w.move a).map (w.state.move groupCache)).getD w.state := by
  cases a with
  | begin t call =>
    rw [step]
    split
    · rename_i hidle
      exact State.eq_of_idle (w.state_set t _) (congrArg ClientPhase.writer hidle)
        (call.opening_writer unescape sanitizeColor)
    · rfl
  | commit t fails =>
    cases hphase : w.calls t with
    | writing statement =>
      have hbefore : (w.calls t).writer = .idle := by rw [hphase]; rfl
      cases fails with
      | true =>
        simp only [step, move, hphase]
        exact State.eq_of_idle (w.state_set t _) hbefore rfl
      | false =>
        rcases statement.run_cases w.tables with hcommitted | ⟨hprofiles, hafter⟩
        · simp only [step, move, hphase, hcommitted]
          exact congrArg
            (fun s => { s with store := (statement.run w.tables).1.listClientProfiles })
            (w.state_set t .committed)
        · have hnone : w.move (.commit t false) = none := by
            simp only [move, hphase]
            split
            · rename_i hcommitted
              rw [hcommitted] at hafter
              cases hafter
            · rfl
          have hstate := State.eq_of_idle (w.state_set t _) hbefore hafter
          simp only [step, hphase, hnone]
          rw [← hstate]
          unfold state ClientTables.listClientProfiles
          simp only [Bool.false_eq_true, if_false, hprofiles]
          rfl
    | _ => simp [step, move, hphase]
  | read t fails =>
    have hwriter : w.state.writers t = (w.calls t).writer := rfl
    cases hphase : w.calls t with
    | committed =>
      rw [hphase] at hwriter
      simp only [step, move, hphase, Option.map_some, Option.getD_some]
      cases fails with
      | true => exact (w.state_set t _).trans (State.move_abandon hwriter).symm
      | false => exact (w.state_set t _).trans (State.move_read hwriter).symm
    | _ => cases fails <;> simp [step, move, State.move, hwriter, hphase, ClientPhase.writer]
  | store t =>
    have hwriter : w.state.writers t = (w.calls t).writer := rfl
    cases hphase : w.calls t with
    | loaded cache =>
      rw [hphase] at hwriter
      simp only [step, move, hphase, Option.map_some, Option.getD_some]
      rw [State.move_publish hwriter]
      exact congrArg (fun s => { s with published := cache })
        (w.state_set t (.answered (.ok ())))
    | _ => simp [step, move, State.move, hwriter, hphase, ClientPhase.writer]

end

/-! ## Runs -/

def ClientPhase.Finished : ClientPhase → Prop
  | .idle => True
  | .answered _ => True
  | _ => False

theorem ClientPhase.Finished.writer {phase : ClientPhase} (h : phase.Finished) :
    phase.writer = .idle := by
  cases phase <;> first | rfl | cases h

/-- The step does not store an older map, nor does a call give up its reload, unless the map is
up to date after it or another call is going to store that of the profiles as they are. -/
def ClientWorld.Timely (w : ClientWorld) (a : ClientStep) : Prop :=
  ∀ m ∈ w.move a, w.state.Timely groupCache m

/-- Once all calls have been answered, membership is what the profiles say. -/
theorem timely_calls_leave_groups_current (unescape : GoString → Option GoString)
    (sanitizeColor : GoString → GoString) (tables : ClientTables) (steps : List ClientStep)
    (htimely : AllSteps (ClientWorld.step unescape sanitizeColor) ClientWorld.Timely
      (ClientWorld.start tables) steps)
    (hfinished : ∀ t, ((exec (ClientWorld.step unescape sanitizeColor)
      (ClientWorld.start tables) steps).calls t).Finished) (ip g : GoString) :
    isInGroup (exec (ClientWorld.step unescape sanitizeColor)
        (ClientWorld.start tables) steps).cache ip g ↔
      HasGroup (exec (ClientWorld.step unescape sanitizeColor)
        (ClientWorld.start tables) steps).tables ip g := by
  have hgood := good_exec (fun w a => w.state_step unescape sanitizeColor a) htimely (Or.inl rfl)
  have hcache := hgood.published fun t => (hfinished t).writer
  rw [← isInGroup_listClientProfiles]
  exact iff_of_eq (congrArg (fun m : GroupCache => isInGroup m ip g = true) hcache)

/-! ## A client and its group -/

def kidsTables : ClientTables := ClientTables.empty.upsertClientGroup { name := lit "kids" }

def joinKids : ClientCall := .updateClient (lit "10.0.0.2") (some { groupName := lit "kids" })

/-- The group is deleted while the client's request is under way, which then reads the
profiles and stores its map. -/
def deletedSteps : List ClientStep :=
  [.begin 0 joinKids, .commit 0 false, .begin 1 (.deleteGroup (lit "kids")), .commit 1 false,
    .read 1 false, .read 0 false, .store 1, .store 0]

/-- The client's request has read the profiles before the group is deleted, and stores its map
after the deletion has stored its own. -/
def rejoinedSteps : List ClientStep :=
  [.begin 0 joinKids, .commit 0 false, .read 0 false, .begin 1 (.deleteGroup (lit "kids")),
    .commit 1 false, .read 1 false, .store 1, .store 0]

theorem deleted_group_loses_member :
    isInGroup (exec (ClientWorld.step some id) (ClientWorld.start kidsTables)
        deletedSteps).cache (lit "10.0.0.2") (lit "kids") ↔
      HasGroup (exec (ClientWorld.step some id) (ClientWorld.start kidsTables)
        deletedSteps).tables (lit "10.0.0.2") (lit "kids") := by
  apply timely_calls_leave_groups_current
  · refine ⟨?_, ?_, ?_, ?_, ?_, ?_, ?_, ?_, trivial⟩
    · rintro m ⟨⟩
    · rintro m ⟨⟩
      trivial
    · rintro m ⟨⟩
    · rintro m ⟨⟩
      trivial
    · rintro m ⟨⟩
      trivial
    · rintro m ⟨⟩
      trivial
    · rintro m ⟨⟩
      left
      rintro v ⟨⟩
      rfl
    · rintro m ⟨⟩
      left
      rintro v ⟨⟩
      rfl
  · rintro (_ | _ | t)
    · trivial
    · trivial
    · trivial

theorem deleted_group_keeps_member :
    (∀ t, ((exec (ClientWorld.step some id) (ClientWorld.start kidsTables)
        rejoinedSteps).calls t).Finished) ∧
      isInGroup (exec (ClientWorld.step some id) (ClientWorld.start kidsTables)
        rejoinedSteps).cache (lit "10.0.0.2") (lit "kids") = true ∧
      (exec (ClientWorld.step some id) (ClientWorld.start kidsTables)
        rejoinedSteps).tables.profiles.map (fun row => (row.clientIP, row.groupName)) =
        [(lit "10.0.0.2", none)] := by
  refine ⟨?_, ?_, ?_⟩
  · rintro (_ | _ | t)
    · trivial
    · trivial
    · trivial
  · decide +kernel
  · decide +kernel

end GloryHole.Api
