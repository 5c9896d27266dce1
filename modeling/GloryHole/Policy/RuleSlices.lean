import GloryHole.Policy.Engine
import GloryHole.Support.Slices

/-!
# The rules of the engine as a slice

The engine keeps its rules in a slice and changes it in place.  `GetRules` returns a copy and
`ReplaceRules` takes the slice of its caller as it is, so a slice may be both.  The engine behaves
as a list of rules throughout; a copy stays what it was unless it is handed back.
-/

namespace GloryHole.Policy

open Go
open Support.Runs Support.Slices

structure EngineState where
  heap : Heap Rule := [[]]
  rules : Slice := ⟨0, 0, 0, 0⟩
  count : Int32 := 0
  deriving DecidableEq

/-- A call of the engine, or a slice of compiled rules that a caller makes.  The capacity of an
array that has to grow is the runtime's choice. -/
inductive RuleOp where
  | addRule (spec : RuleSpec) (grown : Nat)
  | removeRule (name : GoString)
  | updateRule (index : Int) (spec : RuleSpec)
  | replaceRules (rules : Slice)
  | clear
  | getRules
  | makeRules (rules : List Rule) (cap : Nat)
  deriving DecidableEq

inductive RuleResult where
  | done
  | failed
  | slice (rules : Slice)
  deriving DecidableEq

namespace EngineState

def list (e : EngineState) : List Rule := e.heap.read e.rules

def removeRule (e : EngineState) (name : GoString) : EngineState × RuleResult :=
  match e.list.findIdx? (·.name = name) with
  | none => (e, .failed)
  | some i =>
    let len := e.rules.len - 1
    ({ heap := e.heap.overwrite e.rules (e.list.eraseIdx i)
       rules := { e.rules with len := len }
       count := Int32.ofNat len }, .done)

def replaceRules (e : EngineState) (rules : Slice) : EngineState :=
  { e with rules := rules, count := Int32.ofNat rules.len }

def clear (e : EngineState) : EngineState :=
  let (heap, rules) := e.heap.alloc [] 0
  { heap := heap, rules := rules, count := 0 }

def getRules (e : EngineState) : EngineState × Slice :=
  let (heap, rules) := e.heap.alloc e.list 0
  ({ e with heap := heap }, rules)

section

variable (upper : Nat → Nat) (lang : ExprLang)

def addRule (e : EngineState) (spec : RuleSpec) (grown : Nat) : EngineState × RuleResult :=
  match spec.compile upper lang with
  | none => (e, .failed)
  | some rule =>
    let (heap, rules) := e.heap.append e.rules rule grown
    ({ heap := heap, rules := rules, count := Int32.ofNat rules.len }, .done)

def updateRule (e : EngineState) (index : Int) (spec : RuleSpec) : EngineState × RuleResult :=
  match spec.compile upper lang with
  | none => (e, .failed)
  | some rule =>
    if index < 0 ∨ index ≥ e.rules.len then (e, .failed)
    else
      ({ e with heap := e.heap.overwrite e.rules (e.list.set index.toNat rule) }, .done)

def call (e : EngineState) : RuleOp → EngineState × RuleResult
  | .addRule spec grown => e.addRule upper lang spec grown
  | .removeRule name => e.removeRule name
  | .updateRule index spec => e.updateRule upper lang index spec
  | .replaceRules rules => (e.replaceRules rules, .done)
  | .clear => (e.clear, .done)
  | .getRules =>
    let (e, rules) := e.getRules
    (e, .slice rules)
  | .makeRules rules cap =>
    let (heap, rules) := e.heap.alloc rules cap
    ({ e with heap := heap }, .slice rules)

def step (e : EngineState) (op : RuleOp) : EngineState := (e.call upper lang op).1

/-- The loop of `Evaluate`: a rule that is off or fails is skipped. -/
def evaluateLoop (ctx : Context) : List Rule → Option Rule
  | [] => none
  | rule :: rest =>
    if ¬ rule.enabled then evaluateLoop ctx rest
    else
      match lang.run rule.logic ctx with
      | some true => some rule
      | _ => evaluateLoop ctx rest

end

end EngineState

namespace RuleOp

def Valid (e : EngineState) : RuleOp → Prop
  | .replaceRules rules => ∃ xs, e.heap.Holds rules xs
  | _ => True

def onList (upper : Nat → Nat) (lang : ExprLang) (e : EngineState) : RuleOp → List Rule
  | .addRule spec _ => e.list ++ (spec.compile upper lang).toList
  | .removeRule name => e.list.eraseP (·.name = name)
  | .updateRule index spec =>
    match spec.compile upper lang with
    | none => e.list
    | some rule => if index < 0 then e.list else e.list.set index.toNat rule
  | .replaceRules rules => e.heap.read rules
  | .clear => []
  | _ => e.list

end RuleOp

theorem evaluateLoop_eq (lang : ExprLang) (ctx : Context) (rules : List Rule) :
    EngineState.evaluateLoop lang ctx rules = evaluate lang rules ctx := by
  induction rules with
  | nil => rfl
  | cons rule rest ih =>
    rw [evaluate] at ih
    rw [EngineState.evaluateLoop, evaluate, List.find?_cons, Rule.matches]
    cases henabled : rule.enabled with
    | false => simpa using ih
    | true =>
      rcases hrun : lang.run rule.logic ctx with _ | _ | _
      · simpa using ih
      · simpa using ih
      · simp

namespace EngineState

section

variable {upper : Nat → Nat} {lang : ExprLang} {e e' : EngineState} {op : RuleOp} {a : Nat}

/-- The engine has the rules `xs` after a step that touched no array but its own. -/
structure Becomes (e e' : EngineState) (xs : List Rule) : Prop where
  holds : e'.heap.Holds e'.rules xs
  count : e'.count = Int32.ofNat xs.length
  frame : ∀ a < e.heap.length, a ≠ e.rules.array → e'.heap[a]? = e.heap[a]?

def Ready (e : EngineState) : Prop := e.Becomes e e.list

theorem Becomes.list_eq {xs : List Rule} (h : e.Becomes e' xs) : e'.list = xs := h.holds.read_eq

theorem Becomes.ready {xs : List Rule} (h : e.Becomes e' xs) : e'.Ready := by
  refine ⟨?_, ?_, fun _ _ _ => rfl⟩
  · rw [h.list_eq]
    exact h.holds
  · rw [h.list_eq]
    exact h.count

theorem Ready.len_eq (h : e.Ready) : e.rules.len = e.list.length := h.holds.length_eq.symm

/-- What the engine does to its own slice in place. -/
theorem Ready.overwrite (h : e.Ready) (xs : List Rule) {n : Nat} (hn : xs.length = n) :
    e.Becomes
      ⟨e.heap.overwrite e.rules xs, { e.rules with len := n }, Int32.ofNat n⟩ xs :=
  ⟨h.holds.overwrite xs hn, by rw [hn], fun _ _ ha => Heap.overwrite_of_ne ha xs⟩

/-- An array that another slice is made of. -/
theorem Ready.alloc (h : e.Ready) (xs : List Rule) (cap : Nat) :
    e.Becomes { e with heap := (e.heap.alloc xs cap).1 } e.list :=
  ⟨h.holds.of_array_eq (Heap.alloc_of_lt h.holds.lt_length xs cap), h.count,
    fun _ ha _ => Heap.alloc_of_lt ha xs cap⟩

/-- The step lemma: what a call does to the list, and to which arrays it does it. -/
theorem Ready.step (h : e.Ready) (hvalid : op.Valid e) :
    e.Becomes (e.step upper lang op) (op.onList upper lang e) := by
  cases op with
  | addRule spec grown =>
    simp only [EngineState.step, call, addRule, RuleOp.onList]
    cases spec.compile upper lang with
    | none =>
      rw [Option.toList_none, List.append_nil]
      exact h
    | some rule =>
      have hholds := h.holds.append rule grown
      refine ⟨hholds, ?_, fun a ha hne => Heap.append_frame _ _ _ _ ha hne⟩
      rw [Option.toList_some, hholds.length_eq]
  | removeRule name =>
    simp only [EngineState.step, call, removeRule, RuleOp.onList]
    rw [List.eraseP_eq_eraseIdx]
    cases hfind : e.list.findIdx? (·.name = name) with
    | none => exact h
    | some i =>
      have hi := (List.findIdx?_eq_some_iff_findIdx_eq.mp hfind).1
      refine h.overwrite _ ?_
      rw [List.length_eraseIdx_of_lt hi, h.len_eq]
  | updateRule index spec =>
    simp only [EngineState.step, call, updateRule, RuleOp.onList]
    cases spec.compile upper lang with
    | none => exact h
    | some rule =>
      have hlen := h.len_eq
      dsimp only
      by_cases hneg : index < 0
      · rw [if_pos (Or.inl hneg), if_pos hneg]
        exact h
      rw [if_neg hneg]
      by_cases hpast : index ≥ e.rules.len
      · rw [if_pos (Or.inr hpast), List.set_eq_of_length_le (by omega)]
        exact h
      · rw [if_neg (not_or.mpr ⟨hneg, hpast⟩)]
        have hset := h.overwrite (e.list.set index.toNat rule) (List.length_set.trans hlen.symm)
        refine ⟨hset.holds, ?_, hset.frame⟩
        rw [List.length_set]
        exact h.count
  | replaceRules rules =>
    obtain ⟨xs, hxs⟩ := hvalid
    simp only [EngineState.step, call, replaceRules, RuleOp.onList]
    rw [hxs.read_eq]
    exact ⟨hxs, by rw [hxs.length_eq], fun _ _ _ => rfl⟩
  | clear => exact ⟨Heap.holds_alloc _ _ _, rfl, fun a ha _ => Heap.alloc_of_lt ha [] 0⟩
  | getRules => exact h.alloc e.list 0
  | makeRules rules cap => exact h.alloc rules cap

/-- After a call the engine has the array it had, the one handed over, or a new one. -/
theorem step_array (hvalid : ∀ rules, op = .replaceRules rules → rules.array ≠ a)
    (ha : a < e.heap.length) (hne : a ≠ e.rules.array) :
    a ≠ (e.step upper lang op).rules.array := by
  cases op with
  | addRule spec grown =>
    simp only [EngineState.step, call, addRule]
    cases spec.compile upper lang with
    | none => exact hne
    | some rule =>
      simp only [Heap.append]
      split
      · exact hne
      · exact ha.ne
  | removeRule name =>
    simp only [EngineState.step, call, removeRule]
    split <;> exact hne
  | updateRule index spec =>
    simp only [EngineState.step, call, updateRule]
    split
    · exact hne
    · split <;> exact hne
  | replaceRules rules => exact (hvalid rules rfl).symm
  | clear => exact ha.ne
  | getRules | makeRules rules cap => exact hne

theorem call_failed (h : (e.call upper lang op).2 = .failed) : e.step upper lang op = e := by
  cases op with
  | addRule spec grown =>
    simp only [EngineState.step, call, addRule] at h ⊢
    split at h
    · rfl
    · cases h
  | removeRule name =>
    simp only [EngineState.step, call, removeRule] at h ⊢
    split at h
    · rfl
    · cases h
  | updateRule index spec =>
    simp only [EngineState.step, call, updateRule] at h ⊢
    split at h
    · rfl
    · split at h
      · rename_i hbounds
        rw [if_pos hbounds]
      · cases h
  | replaceRules rules | clear | getRules | makeRules rules cap => cases h

/-- A slice that shares no array with the engine, nor with what the engine is given, keeps what it
shows. -/
theorem exec_holds {g : Slice} {xs : List Rule} {later : List RuleOp} (h : e.Ready)
    (hg : e.heap.Holds g xs) (hne : g.array ≠ e.rules.array)
    (hlater : AllSteps (EngineState.step upper lang) (fun e op => op.Valid e ∧
      ∀ rules, op = .replaceRules rules → rules.array ≠ g.array) e later) :
    (exec (EngineState.step upper lang) e later).heap.Holds g xs := by
  induction later generalizing e with
  | nil => exact hg
  | cons op later ih =>
    obtain ⟨⟨hvalid, hother⟩, hrest⟩ := hlater
    have hstep : e.Becomes (e.step upper lang op) _ := h.step hvalid
    refine ih hstep.ready ?_ ?_ hrest
    · exact hg.of_array_eq (hstep.frame g.array hg.lt_length hne)
    · exact step_array hother hg.lt_length hne

theorem exec_ready {ops : List RuleOp} (h : e.Ready)
    (hops : AllSteps (EngineState.step upper lang) (fun e op => op.Valid e) e ops) :
    (exec (EngineState.step upper lang) e ops).Ready := by
  refine invariant_exec (fun e op hvalid hready => ?_) hops h
  exact (Ready.step hready hvalid).ready

end

end EngineState

/-- In every run the engine is the list of its rules: the calls act on the list, one that fails
changes nothing, the count is its length and `Evaluate` takes the first rule that matches.  A slice
from `GetRules` keeps the rules it showed while no slice of its array is given to `ReplaceRules`. -/
theorem engine_as_list (upper : Nat → Nat) (lang : ExprLang) (ops : List RuleOp)
    (hops : AllSteps (EngineState.step upper lang) (fun e op => op.Valid e) {} ops) :
    let e := exec (EngineState.step upper lang) {} ops
    (e.list.length < 2 ^ 31 → e.count.toInt = e.list.length) ∧
    (∀ op : RuleOp, op.Valid e →
      (e.step upper lang op).list = op.onList upper lang e ∧
      ((e.call upper lang op).2 = .failed → e.step upper lang op = e)) ∧
    (∀ ctx, EngineState.evaluateLoop lang ctx e.list =
      e.list.find? fun rule => rule.enabled && lang.run rule.logic ctx == some true) ∧
    ∀ later, AllSteps (EngineState.step upper lang) (fun e' op => op.Valid e' ∧
        ∀ rules, op = .replaceRules rules → rules.array ≠ e.getRules.2.array) e.getRules.1 later →
      (exec (EngineState.step upper lang) e.getRules.1 later).heap.read e.getRules.2 = e.list := by
  intro e
  have hstart : EngineState.Ready {} := ⟨⟨[], [], rfl, rfl, rfl⟩, rfl, fun _ _ _ => rfl⟩
  have hready : e.Ready := EngineState.exec_ready hstart hops
  refine ⟨?_, ?_, fun ctx => evaluateLoop_eq lang ctx e.list, ?_⟩
  · intro hlen
    rw [hready.count, Int32.toInt_ofNat_of_lt hlen]
  · intro op hvalid
    exact ⟨(hready.step hvalid).list_eq, EngineState.call_failed⟩
  · intro later hlater
    have hcopy := Heap.holds_alloc e.heap e.list 0
    have hne : e.getRules.2.array ≠ e.rules.array := hready.holds.lt_length.ne'
    exact (EngineState.exec_holds (hready.alloc e.list 0).ready hcopy hne hlater).read_eq

def alwaysTrue : ExprLang := ⟨fun _ => true, fun _ _ => some true⟩

def blockRule (name : GoString) : RuleSpec := ⟨name, lit "true", lit "block", [], true⟩

theorem engine_as_list_copy :
    let e := exec (EngineState.step id alwaysTrue) {} [.addRule (blockRule (lit "a")) 1]
    (exec (EngineState.step id alwaysTrue) e.getRules.1
      [.addRule (blockRule (lit "b")) 2, .removeRule (lit "a")]).heap.read e.getRules.2 =
        e.list := by
  have hlist := engine_as_list id alwaysTrue [.addRule (blockRule (lit "a")) 1] ⟨trivial, trivial⟩
  exact hlist.2.2.2 [.addRule (blockRule (lit "b")) 2, .removeRule (lit "a")]
    ⟨⟨trivial, nofun⟩, ⟨trivial, nofun⟩, trivial⟩

/-- A slice from `GetRules` that is handed back to `ReplaceRules` is shifted by `RemoveRule`. -/
theorem copy_handed_back_changes :
    let e := exec (EngineState.step id alwaysTrue) {}
      [.addRule (blockRule (lit "a")) 1, .addRule (blockRule (lit "b")) 2]
    e.list.map (·.name) = [lit "a", lit "b"] ∧
      ((exec (EngineState.step id alwaysTrue) e.getRules.1
        [.replaceRules e.getRules.2, .removeRule (lit "a")]).heap.read e.getRules.2).map (·.name) =
          [lit "b", lit "b"] := by
  decide

end GloryHole.Policy
