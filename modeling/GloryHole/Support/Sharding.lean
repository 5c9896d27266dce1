import Mathlib

/-!
# Lists of entries split by an index of their keys

`split idx n l` puts the entries of `l` into `n` lists, each entry into the one its key has the
index of.  The operations on one key of `l` are operations on one of the lists; the others are
operations on each of them.
-/

namespace GloryHole.Support.Sharding

variable {κ ν : Type*} {idx : κ → Nat} {n : Nat}

def split (idx : κ → Nat) (n : Nat) (l : List (κ × ν)) : List (List (κ × ν)) :=
  (List.range n).map fun i => l.filter fun e => idx e.1 == i

@[simp] theorem length_split (l : List (κ × ν)) : (split idx n l).length = n := by
  simp [split]

theorem split_getElem? {i : Nat} (hi : i < n) (l : List (κ × ν)) :
    (split idx n l)[i]? = some (l.filter fun e => idx e.1 == i) := by
  simp [split, hi]

theorem split_nil : split idx n ([] : List (κ × ν)) = List.replicate n [] := by
  simp [split, List.map_const']

theorem split_filter (p : κ × ν → Bool) (l : List (κ × ν)) :
    split idx n (l.filter p) = (split idx n l).map (List.filter p) := by
  simp only [split, List.map_map]
  apply List.map_congr_left
  intro i _
  simp only [Function.comp_apply, List.filter_filter, Bool.and_comm]

/-- What is done to the entries of one key stays in the list of its index. -/
theorem split_eq_set {key : κ} (hkey : idx key < n) {l l' : List (κ × ν)}
    (h : ∀ i, i ≠ idx key → (l'.filter fun e => idx e.1 == i) = l.filter fun e => idx e.1 == i) :
    split idx n l' =
      (split idx n l).set (idx key) (l'.filter fun e => idx e.1 == idx key) := by
  apply List.ext_getElem?
  intro i
  by_cases hi : i < n
  · by_cases heq : i = idx key
    · subst heq
      rw [split_getElem? hi, List.getElem?_set_self (by simpa using hkey)]
    · rw [split_getElem? hi, List.getElem?_set_ne (Ne.symm heq), split_getElem? hi, h i heq]
  · rw [List.getElem?_eq_none (by simpa using hi), List.getElem?_eq_none (by simpa using hi)]

variable [DecidableEq κ]

/-- Removing a key. -/
theorem split_remove {key : κ} (hkey : idx key < n) (l : List (κ × ν)) :
    split idx n (l.filter fun e => e.1 ≠ key) =
      (split idx n l).set (idx key)
        ((l.filter fun e => idx e.1 == idx key).filter fun e => e.1 ≠ key) := by
  have h := @split_eq_set κ ν idx n key hkey l (l.filter fun e => e.1 ≠ key) (by
    intro i hi
    rw [List.filter_filter]
    apply List.filter_congr
    intro e _
    by_cases he : e.1 = key
    · subst he
      simp [Ne.symm hi]
    · simp [he])
  rw [h]
  congr 1
  simp only [List.filter_filter, Bool.and_comm]

/-- Putting an entry in the place of those of its key. -/
theorem split_put {key : κ} (hkey : idx key < n) (v : ν) (l : List (κ × ν)) :
    split idx n ((key, v) :: l.filter fun e => e.1 ≠ key) =
      (split idx n l).set (idx key)
        ((key, v) :: (l.filter fun e => idx e.1 == idx key).filter fun e => e.1 ≠ key) := by
  have hremove := @split_remove κ ν idx n _ key hkey l
  have h := @split_eq_set κ ν idx n key hkey (l.filter fun e => e.1 ≠ key)
    ((key, v) :: l.filter fun e => e.1 ≠ key) (by
      intro i hi
      rw [List.filter_cons_of_neg (by simpa using Ne.symm hi)])
  rw [h, hremove, List.set_set, List.filter_cons_of_pos (by simp)]
  congr 2
  simp only [List.filter_filter, Bool.and_comm]

omit [DecidableEq κ] in
/-- Counting in the parts is counting in the whole. -/
theorem sum_countP_split (p : κ × ν → Bool) {l : List (κ × ν)} (h : ∀ e ∈ l, idx e.1 < n) :
    ((split idx n l).map (List.countP p)).sum = l.countP p := by
  induction l with
  | nil => simp [split_nil]
  | cons e l ih =>
    rw [List.forall_mem_cons] at h
    have hone (i : Nat) : ((e :: l).filter fun e => idx e.1 == i).countP p =
        (l.filter fun e => idx e.1 == i).countP p +
          if i = idx e.1 then (if p e then 1 else 0) else 0 := by
      by_cases hi : i = idx e.1
      · rw [List.filter_cons_of_pos (by simpa using hi.symm), List.countP_cons, if_pos hi]
      · rw [List.filter_cons_of_neg (by simpa using Ne.symm hi), if_neg hi, Nat.add_zero]
    have hsum : ((List.range n).map fun i =>
        if i = idx e.1 then (if p e then 1 else 0) else 0).sum = if p e then 1 else 0 := by
      have hfinset := @Finset.sum_ite_eq' _ _ _ _ (Finset.range n) (idx e.1)
        fun _ => if p e then 1 else 0
      rw [if_pos (Finset.mem_range.mpr h.1)] at hfinset
      exact hfinset
    have hold := ih h.2
    rw [split, List.map_map] at hold ⊢
    simp only [Function.comp_def, hone, List.sum_map_add] at hold ⊢
    rw [hold, hsum, List.countP_cons]

end GloryHole.Support.Sharding
