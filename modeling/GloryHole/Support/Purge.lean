import Mathlib.Data.List.Nodup
import Mathlib.Data.List.Sort
import Mathlib.Tactic.Common

/-!
# Deleting rows in batches

A batch deletes at most a number of the rows that meet a condition, the first ones of a scan whose
order is not known: a rank of the positions stands for it.  Batches follow each other until one is
not full.  What is left in the end is the same for every order; what one batch leaves is not, unless
it takes all.
-/

namespace GloryHole.Support.Purge

variable {ν : Type}

/-! ## One batch -/

def scanned (order : Nat → Nat) (p : ν → Bool) (rows : List ν) : List Nat :=
  ((rows.zipIdx.filter fun x => p x.1).map Prod.snd).insertionSort fun i j => order i ≤ order j

def picked (order : Nat → Nat) (p : ν → Bool) (limit : Nat) (rows : List ν) : List Nat :=
  (scanned order p rows).take limit

def leave (gone : List Nat) (rows : List ν) : List ν :=
  (rows.zipIdx.filter fun x => decide (x.2 ∉ gone)).map Prod.fst

def deleteLimit (order : Nat → Nat) (p : ν → Bool) (limit : Nat) (rows : List ν) : List ν :=
  leave (picked order p limit rows) rows

section Positions

variable {order : Nat → Nat} {p : ν → Bool} {rows : List ν}

theorem scanned_perm : (scanned order p rows).Perm
    ((rows.zipIdx.filter fun x => p x.1).map Prod.snd) :=
  List.perm_insertionSort _ _

theorem mem_scanned {i : Nat} :
    i ∈ scanned order p rows ↔ ∃ x, rows[i]? = some x ∧ p x = true := by
  rw [scanned_perm.mem_iff]
  simp only [List.mem_map, List.mem_filter, Prod.exists, List.mk_mem_zipIdx_iff_getElem?]
  constructor
  · rintro ⟨x, j, ⟨hrow, hp⟩, rfl⟩
    exact ⟨x, hrow, hp⟩
  · rintro ⟨x, hrow, hp⟩
    exact ⟨x, i, ⟨hrow, hp⟩, rfl⟩

theorem nodup_scanned : (scanned order p rows).Nodup := by
  rw [scanned_perm.nodup_iff]
  apply List.Nodup.sublist (List.Sublist.map Prod.snd List.filter_sublist)
  rw [List.zipIdx_map_snd]
  exact List.nodup_range'

theorem countP_zipIdx (q : ν → Bool) : (rows.zipIdx.countP fun x => q x.1) = rows.countP q := by
  have hmap := List.countP_map (p := q) (f := Prod.fst) (l := rows.zipIdx)
  rw [List.zipIdx_map_fst] at hmap
  exact hmap.symm

theorem length_scanned : (scanned order p rows).length = rows.countP p := by
  rw [scanned_perm.length_eq, List.length_map, ← List.countP_eq_length_filter, countP_zipIdx]

theorem countP_leave (q : ν → Bool) (gone : List Nat) :
    (leave gone rows).countP q = rows.zipIdx.countP fun x => q x.1 && decide (x.2 ∉ gone) := by
  unfold leave
  rw [List.countP_map, List.countP_filter]
  rfl

/-- The rows of a list of positions are as many as the positions. -/
theorem countP_mem_eq_length {rows : List ν} {gone : List Nat} (hnodup : gone.Nodup)
    (hgone : ∀ i ∈ gone, i < rows.length) :
    (rows.zipIdx.countP fun x => decide (x.2 ∈ gone)) = gone.length := by
  have hmap := List.countP_map (p := fun i => decide (i ∈ gone)) (f := Prod.snd) (l := rows.zipIdx)
  rw [List.zipIdx_map_snd] at hmap
  have hperm : ((List.range' 0 rows.length).filter fun i => decide (i ∈ gone)).Perm gone := by
    rw [List.perm_ext_iff_of_nodup (List.filter_sublist.nodup List.nodup_range') hnodup]
    intro i
    simp only [List.mem_filter, List.mem_range'_1, decide_eq_true_eq]
    refine ⟨fun h => h.2, fun h => ⟨?_, h⟩⟩
    have hlt := hgone i h
    omega
  refine hmap.symm.trans ?_
  rw [List.countP_eq_length_filter, hperm.length_eq]

end Positions

/-- What is left is what meets `q` exactly if the positions are those of the other rows. -/
theorem leave_eq_filter_iff {gone : List Nat} {q : ν → Bool} {rows : List ν} :
    leave gone rows = rows.filter q ↔ ∀ i x, rows[i]? = some x → (i ∈ gone ↔ q x = false) := by
  constructor
  · intro hleave i x hrow
    have hmem : (x, i) ∈ rows.zipIdx := List.mk_mem_zipIdx_iff_getElem?.mpr hrow
    constructor
    · intro hgone
      by_contra hq
      -- A row that meets `q` and is gone would make the count smaller.
      have hcount : (leave gone rows).countP q = rows.countP q := by
        rw [hleave, List.countP_filter]
        simp
      have hsplit := List.countP_eq_countP_filter_add rows.zipIdx (fun x => q x.1)
        fun x => decide (x.2 ∉ gone)
      simp only [List.countP_filter] at hsplit
      rw [countP_leave, ← countP_zipIdx q, hsplit, Nat.left_eq_add, List.countP_eq_zero] at hcount
      apply hcount (x, i) hmem
      simp only [Bool.not_eq_false] at hq
      simp [hq, hgone]
    · intro hq
      by_contra hgone
      have hkept : x ∈ leave gone rows :=
        List.mem_map.mpr ⟨(x, i), List.mem_filter.mpr ⟨hmem, by simpa using hgone⟩, rfl⟩
      rw [hleave, List.mem_filter, hq] at hkept
      exact Bool.noConfusion hkept.2
  · intro h
    have hfilter : rows.filter q = (rows.zipIdx.filter fun x => q x.1).map Prod.fst := by
      have hmap := List.filter_map (p := q) (f := Prod.fst) (l := rows.zipIdx)
      rw [List.zipIdx_map_fst] at hmap
      exact hmap
    unfold leave
    rw [hfilter]
    congr 1
    apply List.filter_congr
    rintro ⟨x, i⟩ hmem
    have hiff := h i x (List.mk_mem_zipIdx_iff_getElem?.mp hmem)
    by_cases hgone : i ∈ gone
    · simp [hgone, hiff.mp hgone]
    · have hq : q x = true := by
        by_contra hfalse
        exact hgone (hiff.mpr (by simpa using hfalse))
      simp [hgone, hq]

section Batch

variable {order : Nat → Nat} {p : ν → Bool} {limit : Nat} {rows : List ν}

theorem mem_picked {i : Nat} (h : i ∈ picked order p limit rows) :
    ∃ x, rows[i]? = some x ∧ p x = true :=
  mem_scanned.mp (List.mem_of_mem_take h)

theorem meets_of_mem_picked {i : Nat} {x : ν} (h : i ∈ picked order p limit rows)
    (hrow : rows[i]? = some x) : p x = true := by
  obtain ⟨y, hy, hp⟩ := mem_picked h
  rwa [Option.some.inj (hy.symm.trans hrow)] at hp

theorem nodup_picked : (picked order p limit rows).Nodup :=
  (List.take_sublist _ _).nodup nodup_scanned

variable (order p limit rows)

theorem length_picked : (picked order p limit rows).length = min limit (rows.countP p) := by
  unfold picked
  rw [List.length_take, length_scanned]

/-- A batch keeps what does not meet the condition. -/
theorem filter_deleteLimit :
    (deleteLimit order p limit rows).filter (fun x => !p x) = rows.filter fun x => !p x := by
  have hfilter : rows.filter (fun x => !p x) =
      (rows.zipIdx.filter fun x => !p x.1).map Prod.fst := by
    have hmap := List.filter_map (p := fun x => !p x) (f := Prod.fst) (l := rows.zipIdx)
    rw [List.zipIdx_map_fst] at hmap
    exact hmap
  unfold deleteLimit leave
  rw [hfilter, List.filter_map, List.filter_filter]
  congr 1
  apply List.filter_congr
  rintro ⟨x, i⟩ hmem
  by_cases hpicked : i ∈ picked order p limit rows
  · simp [meets_of_mem_picked hpicked (List.mk_mem_zipIdx_iff_getElem?.mp hmem)]
  · simp [hpicked]

/-- A batch deletes as many rows as it may. -/
theorem countP_deleteLimit :
    (deleteLimit order p limit rows).countP p + min limit (rows.countP p) = rows.countP p := by
  have hsplit := List.countP_eq_countP_filter_add rows.zipIdx (fun x => p x.1)
    fun x => decide (x.2 ∉ picked order p limit rows)
  simp only [List.countP_filter] at hsplit
  have hlength : rows.zipIdx.countP
      (fun x => p x.1 && !decide (x.2 ∉ picked order p limit rows)) =
      (picked order p limit rows).length := by
    have hpositions : ∀ i ∈ picked order p limit rows, i < rows.length := by
      intro i hpicked
      obtain ⟨y, hy, -⟩ := mem_picked hpicked
      exact (List.getElem?_eq_some_iff.mp hy).1
    rw [← countP_mem_eq_length nodup_picked hpositions]
    apply List.countP_congr
    rintro ⟨x, i⟩ hmem
    by_cases hpicked : i ∈ picked order p limit rows
    · simp [hpicked, meets_of_mem_picked hpicked (List.mk_mem_zipIdx_iff_getElem?.mp hmem)]
    · simp [hpicked]
  rw [hlength, length_picked, countP_zipIdx] at hsplit
  unfold deleteLimit
  rw [countP_leave]
  exact hsplit.symm

theorem length_deleteLimit :
    (deleteLimit order p limit rows).length + min limit (rows.countP p) = rows.length := by
  have hcount := countP_deleteLimit order p limit rows
  have hkept := congrArg List.length (filter_deleteLimit order p limit rows)
  rw [← List.countP_eq_length_filter, ← List.countP_eq_length_filter] at hkept
  have hlength (xs : List ν) : xs.length = xs.countP p + xs.countP fun x => !p x := by
    rw [List.length_eq_countP_add_countP p]
    simp
  rw [hlength rows, hlength (deleteLimit order p limit rows)]
  omega

variable {limit rows p}

theorem filter_not_eq_self (h : rows.countP p = 0) : (rows.filter fun x => !p x) = rows := by
  rw [List.filter_eq_self]
  intro x hx
  simpa using List.countP_eq_zero.mp h x hx

/-- A batch that takes all leaves what does not meet the condition. -/
theorem deleteLimit_of_le (h : rows.countP p ≤ limit) :
    deleteLimit order p limit rows = rows.filter fun x => !p x := by
  have hcount := countP_deleteLimit order p limit rows
  rw [← filter_deleteLimit order p limit rows]
  exact (filter_not_eq_self (by omega)).symm

end Batch

/-- The row that a scan meets first is deleted. -/
theorem first_mem_picked {p : ν → Bool} {limit : Nat} (hlimit : 0 < limit) {rows : List ν}
    {j : Nat} (hj : j ∈ scanned (fun i => if i = j then 0 else 1) p rows) :
    j ∈ picked (fun i => if i = j then 0 else 1) p limit rows := by
  unfold picked
  have hsorted := List.pairwise_insertionSort
    (fun i k => (if i = j then 0 else 1) ≤ if k = j then 0 else 1)
    ((rows.zipIdx.filter fun x => p x.1).map Prod.snd)
  change (scanned (fun i => if i = j then 0 else 1) p rows).Pairwise _ at hsorted
  cases hscan : scanned (fun i => if i = j then 0 else 1) p rows with
  | nil =>
    rw [hscan] at hj
    cases hj
  | cons i rest =>
    rw [hscan] at hj hsorted
    have hhead : i = j := by
      by_contra hne
      have hrest : j ∈ rest := by
        rcases List.mem_cons.mp hj with hij | hrest
        · exact absurd hij.symm hne
        · exact hrest
      have hle := (List.pairwise_cons.mp hsorted).1 j hrest
      simp [hne] at hle
    rw [hhead, List.take_cons hlimit]
    exact List.mem_cons_self

/-- For every order one batch leaves what meets `q`: the condition is that of the other rows, and
the batch takes all of them. -/
theorem deleteLimit_eq_filter_iff {p q : ν → Bool} {limit : Nat} (hlimit : 0 < limit)
    {rows : List ν} :
    (∀ order, deleteLimit order p limit rows = rows.filter q) ↔
      (∀ x ∈ rows, p x = true ↔ q x = false) ∧ rows.countP p ≤ limit := by
  constructor
  · intro h
    have hpicked (order : Nat → Nat) := leave_eq_filter_iff.mp (h order)
    have hle : rows.countP p ≤ limit := by
      by_contra hgt
      -- A row that one order leaves behind is the first one of another order.
      obtain ⟨j, hj, hleft⟩ : ∃ j ∈ scanned id p rows, j ∉ picked id p limit rows := by
        by_contra hall
        push Not at hall
        have hsub := (List.subperm_of_subset nodup_scanned hall).length_le
        rw [length_picked, length_scanned] at hsub
        omega
      obtain ⟨x, hrow, hp⟩ := mem_scanned.mp hj
      have hfirst := first_mem_picked hlimit (mem_scanned.mpr ⟨x, hrow, hp⟩)
      have hkeep := mt (hpicked id j x hrow).mpr hleft
      exact hkeep ((hpicked _ j x hrow).mp hfirst)
    have hall := h id
    rw [deleteLimit_of_le id hle] at hall
    refine ⟨fun x hx => ?_, hle⟩
    have hmem : x ∈ rows.filter (fun x => !p x) ↔ x ∈ rows.filter q := by rw [hall]
    simp only [List.mem_filter, hx, true_and] at hmem
    cases hp : p x <;> cases hq : q x <;> simp_all
  · rintro ⟨hiff, hle⟩ order
    rw [deleteLimit_of_le order hle]
    apply List.filter_congr
    intro x hx
    have := hiff x hx
    cases hp : p x <;> cases hq : q x <;> simp_all

/-! ## Batch after batch -/

inductive Purged (ν : Type) where
  | failed (rows : List ν)
  | finished (rows : List ν) (deleted : Nat)

/-- Delete until a batch is not full; the batch `i` may fail. -/
def purge {limit : Nat} (hlimit : 0 < limit) (p : ν → Bool) (fails : Nat → Bool)
    (order : Nat → Nat → Nat) (i total : Nat) (rows : List ν) : Purged ν :=
  if fails i then .failed rows
  else
    let rest := deleteLimit (order i) p limit rows
    if rows.length - rest.length < limit then
      .finished rest (total + (rows.length - rest.length))
    else purge hlimit p fails order (i + 1) (total + (rows.length - rest.length)) rest
termination_by rows.length
decreasing_by
  have hlt : rest.length < rows.length := by omega
  exact hlt

section Loop

variable {limit : Nat} {hlimit : 0 < limit} {p : ν → Bool} {fails : Nat → Bool}
    {order : Nat → Nat → Nat} {i total : Nat} {rows : List ν}

theorem purge_of_fails (h : fails i = true) :
    purge hlimit p fails order i total rows = .failed rows := by
  rw [purge, if_pos h]

theorem purge_of_lt (h : fails i = false) (hlt : rows.countP p < limit) :
    purge hlimit p fails order i total rows =
      .finished (rows.filter fun x => !p x) (total + rows.countP p) := by
  have hlength := length_deleteLimit (order i) p limit rows
  have hdeleted : rows.length - (deleteLimit (order i) p limit rows).length = rows.countP p := by
    omega
  rw [purge, if_neg (by simp [h])]
  dsimp only
  rw [hdeleted, if_pos hlt, deleteLimit_of_le (order i) (by omega)]

theorem purge_of_le (h : fails i = false) (hle : limit ≤ rows.countP p) :
    purge hlimit p fails order i total rows =
      purge hlimit p fails order (i + 1) (total + limit)
        (deleteLimit (order i) p limit rows) := by
  have hlength := length_deleteLimit (order i) p limit rows
  have hdeleted : rows.length - (deleteLimit (order i) p limit rows).length = limit := by omega
  rw [purge, if_neg (by simp [h])]
  dsimp only
  rw [hdeleted, if_neg (by omega)]

/-- A full batch takes one off the number of full batches. -/
theorem countP_div_deleteLimit (hlimit : 0 < limit) (scan : Nat → Nat) {n : Nat}
    (hn : rows.countP p / limit = n + 1) :
    limit ≤ rows.countP p ∧ (deleteLimit scan p limit rows).countP p + limit = rows.countP p ∧
      (deleteLimit scan p limit rows).countP p / limit = n := by
  have hle : limit ≤ rows.countP p := by
    by_contra hlt
    rw [Nat.div_eq_of_lt (by omega)] at hn
    omega
  have hcount := countP_deleteLimit scan p limit rows
  have hrest : (deleteLimit scan p limit rows).countP p + limit = rows.countP p := by omega
  refine ⟨hle, hrest, ?_⟩
  rw [← hrest, Nat.add_div_right _ hlimit] at hn
  exact Nat.succ.inj hn

/-- If no batch fails, all rows that meet the condition are deleted. -/
theorem purge_eq_finished (h : ∀ k ≤ rows.countP p / limit, fails (i + k) = false) :
    purge hlimit p fails order i total rows =
      .finished (rows.filter fun x => !p x) (total + rows.countP p) := by
  have hfirst : fails i = false := h 0 (Nat.zero_le _)
  induction hn : rows.countP p / limit generalizing i total rows with
  | zero => exact purge_of_lt hfirst ((Nat.div_eq_zero_iff_lt hlimit).mp hn)
  | succ n ih =>
    obtain ⟨hle, hrest, hdiv⟩ := countP_div_deleteLimit hlimit (order i) hn
    have hnext : ∀ k ≤ n, fails (i + 1 + k) = false := fun k hk => by
      have hlater := h (k + 1) (by omega)
      rwa [Nat.add_comm k 1, ← Nat.add_assoc] at hlater
    rw [purge_of_le hfirst hle, ih (by rwa [hdiv]) (hnext 0 (Nat.zero_le _)) hdiv,
      filter_deleteLimit]
    congr 1
    omega

theorem purge_eq_failed (h : ∃ k ≤ rows.countP p / limit, fails (i + k) = true) :
    ∃ rest, purge hlimit p fails order i total rows = .failed rest := by
  induction hn : rows.countP p / limit generalizing i total rows with
  | zero =>
    obtain ⟨k, hk, hfails⟩ := h
    have hzero : k = 0 := by omega
    rw [hzero] at hfails
    exact ⟨_, purge_of_fails hfails⟩
  | succ n ih =>
    by_cases hfirst : fails i = true
    · exact ⟨_, purge_of_fails hfirst⟩
    · obtain ⟨hle, -, hdiv⟩ := countP_div_deleteLimit hlimit (order i) hn
      rw [purge_of_le (by simpa using hfirst) hle]
      apply ih _ hdiv
      obtain ⟨k, hk, hfails⟩ := h
      cases k with
      | zero => exact absurd hfails hfirst
      | succ k =>
        refine ⟨k, by omega, ?_⟩
        rwa [Nat.add_assoc, Nat.add_comm 1 k]

end Loop

end GloryHole.Support.Purge
