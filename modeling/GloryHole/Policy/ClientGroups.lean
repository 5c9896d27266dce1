import Mathlib.Data.List.Basic
import Mathlib.Logic.Function.Basic
import GloryHole.Storage.Clients

/-!
# The client-group resolver

`SQLiteResolver`: the map from addresses to sets of groups that `Reload` builds from the
profiles, and `IsInGroup` on it.
-/

namespace GloryHole.Policy

open Go
open Storage (ClientProfile)

/-- `map[string]map[string]struct{}`; a set of groups is a list. -/
abbrev GroupCache := GoString → Option (List GoString)

def addProfile (m : GroupCache) (p : ClientProfile) : GroupCache :=
  if p.groupName = [] then m
  else Function.update m p.clientIP (some (((m p.clientIP).getD []).insert p.groupName))

def groupCache (profiles : List ClientProfile) : GroupCache :=
  profiles.foldl addProfile fun _ => none

def isInGroup (m : GroupCache) (clientIP groupName : GoString) : Bool :=
  match m clientIP with
  | none => false
  | some groups => groupName ∈ groups

theorem isInGroup_addProfile (m : GroupCache) (p : ClientProfile) (ip g : GoString) :
    isInGroup (addProfile m p) ip g ↔
      isInGroup m ip g ∨ (p.clientIP = ip ∧ p.groupName = g ∧ g ≠ []) := by
  unfold addProfile
  by_cases hnone : p.groupName = []
  · rw [if_pos hnone]
    refine (or_iff_left ?_).symm
    rintro ⟨-, rfl, hne⟩
    exact hne hnone
  · rw [if_neg hnone]
    unfold isInGroup
    by_cases hip : p.clientIP = ip
    · subst hip
      rw [Function.update_self]
      cases m p.clientIP with
      | none =>
        simp only [Option.getD_none, decide_eq_true_eq, List.mem_insert_iff, List.not_mem_nil]
        grind
      | some groups =>
        simp only [Option.getD_some, decide_eq_true_eq, List.mem_insert_iff]
        grind
    · rw [Function.update_of_ne (Ne.symm hip)]
      simp [hip]

/-- Membership is what the profiles say. -/
theorem isInGroup_groupCache (profiles : List ClientProfile) (ip g : GoString) :
    isInGroup (groupCache profiles) ip g ↔
      ∃ p ∈ profiles, p.clientIP = ip ∧ p.groupName = g ∧ g ≠ [] := by
  have hfold (m : GroupCache) :
      isInGroup (profiles.foldl addProfile m) ip g ↔
        isInGroup m ip g ∨ ∃ p ∈ profiles, p.clientIP = ip ∧ p.groupName = g ∧ g ≠ [] := by
    induction profiles generalizing m with
    | nil => simp
    | cons p profiles ih =>
      rw [List.foldl_cons, ih, isInGroup_addProfile, or_assoc, List.exists_mem_cons_iff]
  rw [groupCache, hfold]
  simp [isInGroup]

end GloryHole.Policy
