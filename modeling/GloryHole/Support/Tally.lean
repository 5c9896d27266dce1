import Mathlib.Algebra.BigOperators.Group.List.Basic
import Mathlib.Algebra.GroupWithZero.Nat
import Mathlib.Data.List.Sort

/-!
# Tables of tallies

A table has one row for a key.  A batch of things is grouped by their keys, and each group becomes
a row that is merged with the one that is there.  A column that both kinds of merging add up counts
the things, however they are cut into batches and in whatever order the groups come.
-/

namespace GloryHole.Support.Tally

variable {α κ μ ν : Type} [DecidableEq κ]

/-! ## Tables -/

def upsert (key : ν → κ) (merge : ν → ν → ν) : List ν → ν → List ν
  | [], row => [row]
  | head :: table, row =>
    if key head = key row then merge head row :: table
    else head :: upsert key merge table row

def upsertAll (key : ν → κ) (merge : ν → ν → ν) (table rows : List ν) : List ν :=
  rows.foldl (upsert key merge) table

def total (key : ν → κ) (column : ν → Nat) (p : κ → Bool) (table : List ν) : Nat :=
  ((table.filter fun row => p (key row)).map column).sum

def valueAt (key : ν → κ) (column : ν → Nat) (k : κ) (table : List ν) : Nat :=
  ((table.find? fun row => decide (key row = k)).map column).getD 0

structure Adds (key : ν → κ) (merge : ν → ν → ν) (column : ν → Nat) : Prop where
  keeps : ∀ v w, key (merge v w) = key v
  adds : ∀ v w, column (merge v w) = column v + column w

section Sums

variable {key : ν → κ} {merge : ν → ν → ν} {column : ν → Nat}

omit [DecidableEq κ] in
theorem total_nil (p : κ → Bool) : total key column p [] = 0 := rfl

omit [DecidableEq κ] in
theorem total_cons (p : κ → Bool) (row : ν) (table : List ν) :
    total key column p (row :: table) =
      (if p (key row) then column row else 0) + total key column p table := by
  unfold total
  rw [List.filter_cons]
  split
  · rw [List.map_cons, List.sum_cons]
  · rw [Nat.zero_add]

theorem total_upsert (hadds : Adds key merge column) (p : κ → Bool) (table : List ν) (row : ν) :
    total key column p (upsert key merge table row) =
      total key column p table + (if p (key row) then column row else 0) := by
  induction table with
  | nil =>
    rw [upsert, total_cons]
    exact Nat.add_comm _ _
  | cons head table ih =>
    rw [upsert]
    split
    case isTrue hk =>
      rw [total_cons, total_cons, ← hk, hadds.keeps, hadds.adds]
      split
      · omega
      · omega
    case isFalse =>
      rw [total_cons, total_cons, ih]
      omega

theorem total_upsertAll (hadds : Adds key merge column) (p : κ → Bool) (table rows : List ν) :
    total key column p (upsertAll key merge table rows) =
      total key column p table + total key column p rows := by
  induction rows generalizing table with
  | nil => rfl
  | cons row rows ih =>
    change total key column p (upsertAll key merge (upsert key merge table row) rows) = _
    rw [ih, total_upsert hadds, total_cons, Nat.add_assoc]

omit [DecidableEq κ] in
theorem total_perm (p : κ → Bool) {rows rows' : List ν} (hperm : rows.Perm rows') :
    total key column p rows = total key column p rows' :=
  ((hperm.filter _).map _).sum_eq

omit [DecidableEq κ] in
theorem total_map {f : μ → ν} (p : κ → Bool) (us : List μ) :
    total key column p (us.map f) = total (fun u => key (f u)) (fun u => column (f u)) p us := by
  unfold total
  rw [List.filter_map, List.map_map]
  rfl

theorem valueAt_cons (k : κ) (row : ν) (table : List ν) :
    valueAt key column k (row :: table) =
      if key row = k then column row else valueAt key column k table := by
  unfold valueAt
  rw [List.find?_cons]
  by_cases hk : key row = k
  · simp [hk]
  · simp [hk]

theorem valueAt_upsert (hadds : Adds key merge column) (k : κ) (table : List ν) (row : ν) :
    valueAt key column k (upsert key merge table row) =
      valueAt key column k table + (if key row = k then column row else 0) := by
  induction table with
  | nil =>
    rw [upsert, valueAt_cons]
    exact (Nat.zero_add _).symm
  | cons head table ih =>
    rw [upsert]
    split
    case isTrue hrow =>
      rw [valueAt_cons, valueAt_cons, hadds.keeps, hadds.adds, ← hrow]
      split
      · rfl
      · rfl
    case isFalse hrow =>
      rw [valueAt_cons, valueAt_cons, ih]
      by_cases hk : key head = k
      · have hother : key row ≠ k := fun h => hrow (hk.trans h.symm)
        rw [if_pos hk, if_pos hk, if_neg hother, Nat.add_zero]
      · rw [if_neg hk, if_neg hk]

theorem valueAt_upsertAll (hadds : Adds key merge column) (k : κ) (table rows : List ν) :
    valueAt key column k (upsertAll key merge table rows) =
      valueAt key column k table + total key column (fun x => decide (x = k)) rows := by
  induction rows generalizing table with
  | nil => rfl
  | cons row rows ih =>
    change valueAt key column k (upsertAll key merge (upsert key merge table row) rows) = _
    rw [ih, valueAt_upsert hadds, total_cons, Nat.add_assoc]
    simp

end Sums

/-! ## Batches -/

/-- How a batch is grouped by keys and its groups are merged into a table. -/
structure Aggregation (α κ μ ν : Type) where
  one : α → μ
  groupKey : μ → κ
  mergeGroup : μ → μ → μ
  row : μ → ν
  key : ν → κ
  mergeRow : ν → ν → ν
  groupKey_merge : ∀ u v, groupKey (mergeGroup u v) = groupKey u
  key_row : ∀ u, key (row u) = groupKey u
  key_merge : ∀ v w, key (mergeRow v w) = key v

namespace Aggregation

variable (agg : Aggregation α κ μ ν)

def groups (xs : List α) : List μ := upsertAll agg.groupKey agg.mergeGroup [] (xs.map agg.one)

def rows (rank : κ → Nat) (xs : List α) : List ν :=
  ((agg.groups xs).insertionSort fun u v => rank (agg.groupKey u) ≤ rank (agg.groupKey v)).map
    agg.row

def post (rank : κ → Nat) (table : List ν) (xs : List α) : List ν :=
  upsertAll agg.key agg.mergeRow table (agg.rows rank xs)

def keyOf (x : α) : κ := agg.groupKey (agg.one x)

structure Counts (column : ν → Nat) (q : α → Bool) : Prop where
  one : ∀ x, column (agg.row (agg.one x)) = if q x then 1 else 0
  group : ∀ u v, column (agg.row (agg.mergeGroup u v)) =
    column (agg.row u) + column (agg.row v)
  row : ∀ v w, column (agg.mergeRow v w) = column v + column w

variable {agg} {column : ν → Nat} {q : α → Bool}

/-- A sum over the groups of a list is one over the list. -/
theorem total_groups (hcounts : agg.Counts column q) (p : κ → Bool) (xs : List α) :
    total agg.groupKey (fun u => column (agg.row u)) p (agg.groups xs) =
      xs.countP fun x => p (agg.keyOf x) && q x := by
  have hadds : Adds agg.groupKey agg.mergeGroup fun u => column (agg.row u) :=
    ⟨agg.groupKey_merge, hcounts.group⟩
  unfold groups
  rw [total_upsertAll hadds, total_nil, Nat.zero_add]
  induction xs with
  | nil => rfl
  | cons x xs ih =>
    rw [List.map_cons, total_cons, List.countP_cons, ← ih, hcounts.one, Nat.add_comm]
    unfold keyOf
    by_cases hp : p (agg.groupKey (agg.one x))
    · simp [hp]
    · simp [hp]

theorem total_rows (hcounts : agg.Counts column q) (p : κ → Bool) (rank : κ → Nat)
    (xs : List α) :
    total agg.key column p (agg.rows rank xs) = xs.countP fun x => p (agg.keyOf x) && q x := by
  unfold rows
  rw [total_map, total_perm p (List.perm_insertionSort _ _), ← total_groups hcounts]
  simp only [agg.key_row]

theorem total_post (hcounts : agg.Counts column q) (p : κ → Bool) (rank : κ → Nat)
    (table : List ν) (xs : List α) :
    total agg.key column p (agg.post rank table xs) =
      total agg.key column p table + xs.countP fun x => p (agg.keyOf x) && q x := by
  unfold post
  rw [total_upsertAll ⟨agg.key_merge, hcounts.row⟩, total_rows hcounts]

theorem valueAt_post (hcounts : agg.Counts column q) (k : κ) (rank : κ → Nat)
    (table : List ν) (xs : List α) :
    valueAt agg.key column k (agg.post rank table xs) =
      valueAt agg.key column k table +
        xs.countP fun x => decide (agg.keyOf x = k) && q x := by
  unfold post
  rw [valueAt_upsertAll ⟨agg.key_merge, hcounts.row⟩, total_rows hcounts]

end Aggregation

end GloryHole.Support.Tally
