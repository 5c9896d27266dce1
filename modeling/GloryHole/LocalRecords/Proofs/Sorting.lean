import GloryHole.LocalRecords.Manager
import GloryHole.Support.Rotations

/-!
# The order of MX and SRV records

`LookupMX` and `LookupSRV` exchange the element in a place with every later one it is worse than.
The result is sorted, but not stably: an element that is exchanged jumps over those of its own key
before the first smaller one.  Every pass that finds a smaller element rotates the elements of one
key that stand before it, so they end in their old order just if these rotations cancel.
-/

namespace GloryHole.LocalRecords

open Go Support.Rotations

/-! ## The two loops -/

section Loops

variable {α β : Type} {worse : α → α → Bool}

theorem swapPass_cons (worse : α → α → Bool) (x y : α) (ys : List α) :
    swapPass worse x (y :: ys) =
      if worse x y then ((swapPass worse y ys).1, x :: (swapPass worse y ys).2)
      else ((swapPass worse x ys).1, y :: (swapPass worse x ys).2) := rfl

theorem swapPass_perm (worse : α → α → Bool) (x : α) (ys : List α) :
    ((swapPass worse x ys).1 :: (swapPass worse x ys).2).Perm (x :: ys) := by
  induction ys generalizing x with
  | nil => exact List.Perm.refl _
  | cons y ys ih =>
    rw [swapPass_cons]
    split
    · exact (List.Perm.swap _ _ _).trans ((ih y).cons x)
    · exact (List.Perm.swap _ _ _).trans (((ih x).cons y).trans (List.Perm.swap _ _ _))

theorem length_swapPass_le (worse : α → α → Bool) {x : α} {ys : List α} {n : Nat}
    (hn : (x :: ys).length ≤ n + 1) : (swapPass worse x ys).2.length ≤ n := by
  have heq := (swapPass_perm worse x ys).length_eq
  simp only [List.length_cons] at heq hn
  omega

theorem swapSort_perm (worse : α → α → Bool) (n : Nat) (l : List α) :
    (swapSort worse n l).Perm l := by
  induction n generalizing l with
  | zero => exact List.Perm.refl l
  | succ n ih =>
    cases l with
    | nil => exact List.Perm.refl _
    | cons x xs => exact ((ih _).cons _).trans (swapPass_perm worse x xs)

/-- The pass goes over a list in two parts. -/
theorem swapPass_append (worse : α → α → Bool) (x : α) (ys zs : List α) :
    swapPass worse x (ys ++ zs) =
      ((swapPass worse (swapPass worse x ys).1 zs).1,
        (swapPass worse x ys).2 ++ (swapPass worse (swapPass worse x ys).1 zs).2) := by
  induction ys generalizing x with
  | nil => rfl
  | cons y ys ih =>
    rw [List.cons_append, swapPass_cons, swapPass_cons, ih, ih]
    split <;> rfl

/-- Sorting does not look at more than `worse` does. -/
theorem swapPass_alike {R : α → β → Prop} {worse' : β → β → Bool}
    (hworse : ∀ x x' y y', R x x' → R y y' → worse x y = worse' x' y') {x : α} {x' : β}
    {ys : List α} {ys' : List β} (hx : R x x') (h : List.Forall₂ R ys ys') :
    R (swapPass worse x ys).1 (swapPass worse' x' ys').1 ∧
      List.Forall₂ R (swapPass worse x ys).2 (swapPass worse' x' ys').2 := by
  induction h generalizing x x' with
  | nil => exact ⟨hx, List.Forall₂.nil⟩
  | @cons y y' ys ys' hy _ ih =>
    rw [swapPass_cons, swapPass_cons, hworse x x' y y' hx hy]
    split
    · exact ⟨(ih hy).1, List.Forall₂.cons hx (ih hy).2⟩
    · exact ⟨(ih hx).1, List.Forall₂.cons hy (ih hx).2⟩

theorem swapSort_alike {R : α → β → Prop} {worse' : β → β → Bool}
    (hworse : ∀ x x' y y', R x x' → R y y' → worse x y = worse' x' y') (n : Nat)
    {xs : List α} {xs' : List β} (h : List.Forall₂ R xs xs') :
    List.Forall₂ R (swapSort worse n xs) (swapSort worse' n xs') := by
  induction n generalizing xs xs' with
  | zero =>
    cases h with
    | nil => exact List.Forall₂.nil
    | cons hx hxs => exact List.Forall₂.cons hx hxs
  | succ n ih =>
    cases h with
    | nil => exact List.Forall₂.nil
    | cons hx hxs =>
      obtain ⟨hfirst, hrest⟩ := swapPass_alike hworse hx hxs
      exact List.Forall₂.cons hfirst (ih hrest)

end Loops

/-! ## The result is sorted -/

section Keys

variable {α : Type} {key : α → Nat} {worse : α → α → Bool} {n p : Nat} {x : α} {l : List α}

theorem swapPass_le (hworse : ∀ x y, worse x y = true ↔ key y < key x) (x : α) (ys : List α) :
    ∀ y ∈ x :: ys, key (swapPass worse x ys).1 ≤ key y := by
  induction ys generalizing x with
  | nil =>
    intro y hy
    rw [List.mem_singleton.mp hy]
    rfl
  | cons y ys ih =>
    rw [swapPass_cons]
    by_cases hlt : worse x y = true
    · rw [if_pos hlt]
      have hrest := ih y
      rw [List.forall_mem_cons]
      exact ⟨(hrest y List.mem_cons_self).trans ((hworse x y).mp hlt).le, hrest⟩
    · rw [if_neg hlt]
      have hrest := List.forall_mem_cons.mp (ih x)
      have hle : key x ≤ key y := not_lt.mp (mt (hworse x y).mpr hlt)
      rw [List.forall_mem_cons, List.forall_mem_cons]
      exact ⟨hrest.1, hrest.1.trans hle, hrest.2⟩

theorem swapSort_sorted (hworse : ∀ x y, worse x y = true ↔ key y < key x)
    (hn : l.length ≤ n) : (swapSort worse n l).Pairwise fun x y => key x ≤ key y := by
  induction n generalizing l with
  | zero =>
    rw [List.length_eq_zero_iff.mp (Nat.le_zero.mp hn)]
    exact List.Pairwise.nil
  | succ n ih =>
    cases l with
    | nil => exact List.Pairwise.nil
    | cons x xs =>
      have hperm := swapPass_perm worse x xs
      refine List.Pairwise.cons ?_ (ih (length_swapPass_le worse hn))
      intro y hy
      apply swapPass_le hworse x xs
      exact hperm.subset (List.mem_cons_of_mem _ ((swapSort_perm worse n _).subset hy))

/-! ## What a pass does to the elements of one key -/

def keyed (key : α → Nat) (p : Nat) (l : List α) : List α := l.filter fun x => key x = p

/-- For every element with a key below `p`, how many elements with the key `p` stand before it, if
there are `k` before the list. -/
def ranks (key : α → Nat) (p : Nat) : Nat → List α → List Nat
  | _, [] => []
  | k, x :: xs =>
    if key x < p then k :: ranks key p k xs
    else if key x = p then ranks key p (k + 1) xs
    else ranks key p k xs

theorem ranks_of_lt (h : key x < p) (k : Nat) (l : List α) :
    ranks key p k (x :: l) = k :: ranks key p k l := by
  rw [ranks, if_pos h]

theorem ranks_of_eq (h : key x = p) (k : Nat) (l : List α) :
    ranks key p k (x :: l) = ranks key p (k + 1) l := by
  rw [ranks, if_neg (by omega), if_pos h]

theorem ranks_of_gt (h : p < key x) (k : Nat) (l : List α) :
    ranks key p k (x :: l) = ranks key p k l := by
  rw [ranks, if_neg (by omega), if_neg (by omega)]

theorem keyed_of_ne (h : key x ≠ p) (l : List α) : keyed key p (x :: l) = keyed key p l :=
  List.filter_cons_of_neg (by simpa using h)

theorem keyed_of_eq (h : key x = p) (l : List α) : keyed key p (x :: l) = x :: keyed key p l :=
  List.filter_cons_of_pos (by simpa using h)

theorem ranks_append {u : List α} (hu : ∀ y ∈ u, p ≤ key y) (k : Nat) (l : List α) :
    ranks key p k (u ++ l) = ranks key p (k + (keyed key p u).length) l := by
  induction u generalizing k with
  | nil => rfl
  | cons y u ih =>
    rw [List.forall_mem_cons] at hu
    rw [List.cons_append]
    rcases hu.1.eq_or_lt with heq | hlt
    · rw [ranks_of_eq heq.symm, ih hu.2, keyed_of_eq heq.symm, List.length_cons, Nat.add_right_comm,
        Nat.add_assoc]
    · rw [ranks_of_gt hlt, ih hu.2, keyed_of_ne hlt.ne']

theorem ranks_eq_nil_iff {k : Nat} : ranks key p k l = [] ↔ ∀ x ∈ l, p ≤ key x := by
  induction l generalizing k with
  | nil => simp [ranks]
  | cons x l ih =>
    rw [List.forall_mem_cons]
    rcases lt_trichotomy (key x) p with hlt | heq | hgt
    · rw [ranks_of_lt hlt]
      simp [hlt]
    · rw [ranks_of_eq heq, ih]
      simp [heq]
    · rw [ranks_of_gt hgt, ih]
      simp [hgt.le]

/-- The ranks increase, up to the number of elements of the key. -/
theorem ranks_sorted (k : Nat) (l : List α) :
    (ranks key p k l).Pairwise (· ≤ ·) ∧
      ∀ b ∈ ranks key p k l, k ≤ b ∧ b ≤ k + (keyed key p l).length := by
  induction l generalizing k with
  | nil => simp [ranks]
  | cons x l ih =>
    rcases lt_trichotomy (key x) p with hlt | heq | hgt
    · rw [ranks_of_lt hlt, keyed_of_ne hlt.ne, List.pairwise_cons, List.forall_mem_cons]
      exact ⟨⟨fun b hb => ((ih k).2 b hb).1, (ih k).1⟩, by omega, (ih k).2⟩
    · rw [ranks_of_eq heq, keyed_of_eq heq, List.length_cons]
      refine ⟨(ih (k + 1)).1, ?_⟩
      intro b hb
      have hbounds := (ih (k + 1)).2 b hb
      omega
    · rw [ranks_of_gt hgt, keyed_of_ne hgt.ne']
      exact ih k

/-- An element below the key moves only to places of such elements. -/
theorem swapPass_of_lt (hworse : ∀ x y, worse x y = true ↔ key y < key x) (hx : key x < p)
    (ys : List α) :
    keyed key p (swapPass worse x ys).2 = keyed key p ys ∧
      ∀ k, ranks key p k (swapPass worse x ys).2 = ranks key p k ys := by
  induction ys generalizing x with
  | nil => exact ⟨rfl, fun _ => rfl⟩
  | cons y ys ih =>
    rw [swapPass_cons]
    by_cases hlt : worse x y = true
    · have hy : key y < p := ((hworse x y).mp hlt).trans hx
      rw [if_pos hlt, keyed_of_ne hx.ne, keyed_of_ne hy.ne]
      refine ⟨(ih hy).1, ?_⟩
      intro k
      rw [ranks_of_lt hx, ranks_of_lt hy, (ih hy).2]
    · rw [if_neg hlt]
      obtain ⟨hkeyed, hranks⟩ := ih hx
      refine ⟨?_, ?_⟩
      · rcases eq_or_ne (key y) p with heq | hne
        · rw [keyed_of_eq heq, keyed_of_eq heq, hkeyed]
        · rw [keyed_of_ne hne, keyed_of_ne hne, hkeyed]
      · intro k
        simp only [ranks, hranks]

theorem swapPass_of_forall {ys : List α} (h : ∀ y ∈ ys, ¬ worse x y = true) :
    swapPass worse x ys = (x, ys) := by
  induction ys with
  | nil => rfl
  | cons y ys ih =>
    rw [List.forall_mem_cons] at h
    rw [swapPass_cons, if_neg h.1, ih h.2]

/-- An element of the key is exchanged with the first one below it. -/
theorem swapPass_of_eq (hworse : ∀ x y, worse x y = true ↔ key y < key x) (hx : key x = p)
    {ys : List α} (hlow : ∃ y ∈ ys, key y < p) :
    ∃ b, ranks key p 0 (x :: ys) = b :: ranks key p 0 (swapPass worse x ys).2 ∧
      keyed key p (swapPass worse x ys).2 = rotateFront b (keyed key p (x :: ys)) := by
  obtain ⟨y, hfind⟩ : ∃ y, ys.find? (fun y => key y < p) = some y := by
    rw [← Option.isSome_iff_exists, List.find?_isSome]
    simpa using hlow
  obtain ⟨hy, u, v, rfl, hu⟩ := List.find?_eq_some_iff_append.mp hfind
  have hy : key y < p := by simpa using hy
  have hu : ∀ y ∈ u, p ≤ key y := by simpa using hu
  have hpass : (swapPass worse x (u ++ y :: v)).2 = u ++ x :: (swapPass worse y v).2 := by
    have hskip : swapPass worse x u = (x, u) := by
      apply swapPass_of_forall
      intro y hmem
      rw [hworse, hx]
      exact not_lt.mpr (hu y hmem)
    rw [swapPass_append, hskip, swapPass_cons, if_pos ((hworse x y).mpr (hx ▸ hy))]
  obtain ⟨hkeyed, hranks⟩ := swapPass_of_lt hworse hy v
  refine ⟨(keyed key p u).length + 1, ?_, ?_⟩
  · rw [hpass, ranks_of_eq hx, ranks_append hu, ranks_of_lt hy, ranks_append hu, ranks_of_eq hx,
      hranks, Nat.zero_add, Nat.zero_add, Nat.add_comm 1]
  · rw [hpass, keyed_of_eq hx, rotateFront_succ_cons]
    simp only [keyed, List.filter_append] at hkeyed ⊢
    rw [List.take_left, List.drop_left]
    have hyne : key y ≠ p := hy.ne
    simp [hx, hyne, hkeyed]

/-- A pass that finds an element below the key rotates the elements of the key before the first
one, and the rank of that one is gone. -/
theorem swapPass_rotates (hworse : ∀ x y, worse x y = true ↔ key y < key x) (x : α)
    (ys : List α) (hlow : ∃ y ∈ x :: ys, key y < p) :
    ∃ b, ranks key p 0 (x :: ys) = b :: ranks key p 0 (swapPass worse x ys).2 ∧
      keyed key p (swapPass worse x ys).2 = rotateFront b (keyed key p (x :: ys)) := by
  induction ys generalizing x with
  | nil =>
    have hx : key x < p := by simpa using hlow
    exact ⟨0, ranks_of_lt hx 0 [], by rw [rotateFront_zero, keyed_of_ne hx.ne]; rfl⟩
  | cons y ys ih =>
    rcases lt_trichotomy (key x) p with hlt | heq | hgt
    · obtain ⟨hkeyed, hranks⟩ := swapPass_of_lt hworse hlt (y :: ys)
      exact ⟨0, by rw [ranks_of_lt hlt, hranks],
        by rw [rotateFront_zero, keyed_of_ne hlt.ne, hkeyed]⟩
    · apply swapPass_of_eq hworse heq
      obtain ⟨y', hy', hlt⟩ := hlow
      rcases List.mem_cons.mp hy' with rfl | hy'
      · omega
      · exact ⟨y', hy', hlt⟩
    · rw [swapPass_cons, ranks_of_gt hgt, keyed_of_ne hgt.ne']
      obtain ⟨y', hy', hlt'⟩ := hlow
      have hmem : y' ∈ y :: ys := by
        rcases List.mem_cons.mp hy' with rfl | hy'
        · omega
        · exact hy'
      by_cases hlt : worse x y = true
      · rw [if_pos hlt, ranks_of_gt hgt, keyed_of_ne hgt.ne']
        exact ih y ⟨y', hmem, hlt'⟩
      · -- the larger element stays in the hand, and `y` is above the key as well
        have hy : p < key y := hgt.trans_le (not_lt.mp (mt (hworse x y).mpr hlt))
        rw [if_neg hlt, ranks_of_gt hy, keyed_of_ne hy.ne', ranks_of_gt hy, keyed_of_ne hy.ne',
          ← ranks_of_gt hgt 0 ys, ← keyed_of_ne hgt.ne' ys]
        refine ih x ⟨y', ?_, hlt'⟩
        rcases List.mem_cons.mp hmem with rfl | hmem
        · omega
        · exact List.mem_cons_of_mem _ hmem

/-- A pass without an element below the key keeps the order of the key. -/
theorem keyed_swapPass (hworse : ∀ x y, worse x y = true ↔ key y < key x) (x : α) (ys : List α)
    (hhigh : ∀ y ∈ x :: ys, p ≤ key y) :
    keyed key p ((swapPass worse x ys).1 :: (swapPass worse x ys).2) = keyed key p (x :: ys) := by
  have hskip {y z : α} (hy : key y ≠ p) (l : List α) :
      keyed key p (z :: y :: l) = keyed key p (z :: l) := by
    simp [keyed, List.filter_cons, hy]
  induction ys generalizing x with
  | nil => rfl
  | cons y ys ih =>
    rw [List.forall_mem_cons] at hhigh
    obtain ⟨hx, hys⟩ := hhigh
    rcases hx.eq_or_lt with heq | hgt
    · rw [swapPass_of_forall]
      intro y hy
      rw [hworse, ← heq]
      exact not_lt.mpr (hys y hy)
    · rw [swapPass_cons, keyed_of_ne hgt.ne']
      by_cases hlt : worse x y = true
      · rw [if_pos hlt, hskip hgt.ne']
        exact ih y hys
      · have hy : p < key y := hgt.trans_le (not_lt.mp (mt (hworse x y).mpr hlt))
        rw [if_neg hlt, hskip hy.ne', keyed_of_ne hy.ne', ← keyed_of_ne hgt.ne' ys]
        exact ih x (List.forall_mem_cons.mpr ⟨hx, (List.forall_mem_cons.mp hys).2⟩)

/-- The elements of one key in the sorted list. -/
theorem keyed_swapSort (hworse : ∀ x y, worse x y = true ↔ key y < key x) (hn : l.length ≤ n) :
    keyed key p (swapSort worse n l) = rotateFronts (ranks key p 0 l) (keyed key p l) := by
  induction n generalizing l with
  | zero =>
    rw [List.length_eq_zero_iff.mp (Nat.le_zero.mp hn)]
    rfl
  | succ n ih =>
    cases l with
    | nil => rfl
    | cons x xs =>
      have hperm := swapPass_perm worse x xs
      show keyed key p ((swapPass worse x xs).1 :: swapSort worse n (swapPass worse x xs).2) = _
      have hrest := ih (length_swapPass_le worse hn)
      by_cases hlow : ∃ y ∈ x :: xs, key y < p
      · obtain ⟨b, hranks, hkeyed⟩ := swapPass_rotates hworse x xs hlow
        obtain ⟨y, hy, hlt⟩ := hlow
        have hz := (swapPass_le hworse x xs y hy).trans_lt hlt
        rw [keyed_of_ne hz.ne, hrest, hranks, hkeyed]
        rfl
      · simp only [not_exists, not_and, not_lt] at hlow
        have hnone : ranks key p 0 (swapPass worse x xs).2 = [] :=
          ranks_eq_nil_iff.mpr fun y hy => hlow y (hperm.subset (List.mem_cons_of_mem _ hy))
        rw [hnone] at hrest
        have hpass := keyed_swapPass hworse x xs hlow
        rw [ranks_eq_nil_iff.mpr hlow]
        show _ = keyed key p (x :: xs)
        rw [← hpass]
        simp only [keyed, List.filter_cons] at hrest ⊢
        rw [hrest]
        rfl

/-- The elements of the key end in their order exactly if the rotations cancel. -/
theorem keyed_swapSort_eq_iff (hworse : ∀ x y, worse x y = true ↔ key y < key x)
    (hn : l.length ≤ n) (hl : l.Nodup) :
    keyed key p (swapSort worse n l) = keyed key p l ↔
      ∀ k, 0 < k → k ∣ (ranks key p 0 l).count k := by
  obtain ⟨hsorted, hbounds⟩ := @ranks_sorted α key p 0 l
  rw [keyed_swapSort hworse hn]
  apply rotateFronts_eq_self_iff hsorted (hl.filter _)
  intro k hk
  have hle := (hbounds k hk).2
  rwa [Nat.zero_add] at hle

end Keys

/-! ## `LookupMX` -/

section Lookups

variable (lower : Nat → Nat) (m : Manager) (name : GoString)

/-- What `LookupMX` does to the collected records, each with its place among them.  The source
sorts pointers, so that records of equal content are told apart. -/
def Manager.placedMX : List (LocalRecord × Nat) :=
  let result := (m.collect lower .mx name).zipIdx
  swapSort (fun x y => x.1.priority > y.1.priority) result.length result

/-- The answer is a permutation of the collected records, sorted by priority, and records of equal
priority keep their order. -/
structure MXOrdered : Prop where
  records : (m.placedMX lower name).map Prod.fst = m.lookupMX lower name
  permutation : (m.placedMX lower name).Perm (m.collect lower .mx name).zipIdx
  sorted : (m.placedMX lower name).Pairwise fun x y => x.1.priority ≤ y.1.priority
  stable : (m.placedMX lower name).Pairwise fun x y => x.1.priority = y.1.priority → x.2 < y.2

theorem map_placedMX : (m.placedMX lower name).map Prod.fst = m.lookupMX lower name := by
  have hplaced : List.Forall₂ (fun (e : LocalRecord × Nat) r => e.1 = r)
      (m.collect lower .mx name).zipIdx (m.collect lower .mx name) := by
    rw [← List.forall₂_map_left_iff (R := Eq), List.zipIdx_map_fst, List.forall₂_eq_eq_eq]
  have hworse (x : LocalRecord × Nat) (x' : LocalRecord) (y : LocalRecord × Nat)
      (y' : LocalRecord) (hx : x.1 = x') (hy : y.1 = y') :
      decide (x.1.priority > y.1.priority) = decide (x'.priority > y'.priority) := by
    rw [hx, hy]
  have hsorted := swapSort_alike hworse (m.collect lower .mx name).length hplaced
  rw [← List.forall₂_map_left_iff (R := Eq), List.forall₂_eq_eq_eq] at hsorted
  rw [Manager.placedMX, List.length_zipIdx, hsorted, Manager.lookupMX]

theorem ranks_map {α β : Type} (f : α → β) (key : β → Nat) (p k : Nat) (l : List α) :
    ranks key p k (l.map f) = ranks (fun x => key (f x)) p k l := by
  induction l generalizing k with
  | nil => rfl
  | cons x l ih => simp only [List.map_cons, ranks, ih]

theorem pairwise_zipIdx {α : Type} (l : List α) : l.zipIdx.Pairwise fun x y => x.2 < y.2 := by
  apply List.pairwise_map.mp
  rw [List.zipIdx_map_snd]
  exact List.pairwise_lt_range'

/-- Elements of equal keys are in the order of their places just if those of every key are as they
were. -/
theorem pairwise_places_iff {α : Type} {key : α × Nat → Nat} {l : List α}
    {placed : List (α × Nat)} (hperm : placed.Perm l.zipIdx) :
    (placed.Pairwise fun x y => key x = key y → x.2 < y.2) ↔
      ∀ p, keyed key p placed = keyed key p l.zipIdx := by
  constructor
  · intro h p
    have hpairwise : (keyed key p placed).Pairwise fun x y => x.2 < y.2 := by
      rw [keyed, List.pairwise_filter]
      apply h.imp
      intro x y hxy hx hy
      rw [decide_eq_true_eq] at hx hy
      exact hxy (hx.trans hy.symm)
    exact (hperm.filter _).eq_of_pairwise (fun x y _ _ hxy hyx => absurd hxy (by omega)) hpairwise
      ((pairwise_zipIdx l).sublist List.filter_sublist)
  · intro h
    rw [List.pairwise_iff_forall_sublist]
    intro x y hsublist hkey
    have hpairwise : (keyed key (key x) placed).Pairwise fun x y => x.2 < y.2 := by
      rw [h]
      exact (pairwise_zipIdx l).sublist List.filter_sublist
    rw [keyed, List.pairwise_filter, List.pairwise_iff_forall_sublist] at hpairwise
    exact hpairwise hsublist (by simp) (by simp [hkey])

/-- The answer is ordered, equal priorities included, exactly if for every priority and every `k`
the records of smaller priority that have `k` records of the priority before them are a multiple of
`k` in number. -/
theorem lookupMX_ordered_iff :
    MXOrdered lower m name ↔ ∀ priority k, 0 < k →
      k ∣ (ranks (fun r => r.priority.toNat) priority 0 (m.collect lower .mx name)).count k := by
  obtain ⟨l, hl⟩ : ∃ l, m.collect lower .mx name = l := ⟨_, rfl⟩
  have hworse (x y : LocalRecord × Nat) :
      decide (x.1.priority > y.1.priority) = true ↔ y.1.priority.toNat < x.1.priority.toNat := by
    rw [decide_eq_true_eq, gt_iff_lt, UInt16.lt_iff_toNat_lt]
  have hperm : (m.placedMX lower name).Perm l.zipIdx := hl ▸ swapSort_perm _ _ _
  have hnodup : l.zipIdx.Nodup := (pairwise_zipIdx l).imp fun hlt heq => by simp [heq] at hlt
  have hstable : (m.placedMX lower name).Pairwise
      (fun x y => x.1.priority = y.1.priority → x.2 < y.2) ↔
      ∀ priority k, 0 < k → k ∣ (ranks (fun r => r.priority.toNat) priority 0 l).count k := by
    simp only [← UInt16.toNat_inj]
    rw [pairwise_places_iff hperm]
    apply forall_congr'
    intro p
    rw [Manager.placedMX, hl, keyed_swapSort_eq_iff hworse le_rfl hnodup,
      ← ranks_map Prod.fst fun r : LocalRecord => r.priority.toNat, List.zipIdx_map_fst]
  rw [hl, ← hstable]
  refine ⟨MXOrdered.stable, fun h => ⟨map_placedMX lower m name, hl ▸ hperm, ?_, h⟩⟩
  exact (swapSort_sorted hworse le_rfl).imp fun hle => UInt16.le_iff_toNat_le.mpr hle

def threeMX : Manager :=
  let mx (target : GoString) (priority : UInt16) : LocalRecord :=
    { domain := lit "home.", type := .mx, target := target, priority := priority }
  ⟨[(lit "home.", [mx (lit "a.") 10, mx (lit "b.") 10, mx (lit "c.") 5])], []⟩

theorem lookupMX_not_stable :
    (threeMX.lookupMX id (lit "home.")).map (·.target) = [lit "c.", lit "b.", lit "a."] ∧
      ¬ MXOrdered id threeMX (lit "home.") := by
  refine ⟨by decide +kernel, ?_⟩
  intro h
  have hstable := h.stable
  revert hstable
  decide +kernel

/-! ## `LookupSRV` -/

theorem lookupSRV_ordered :
    (m.lookupSRV lower name).Perm (m.collect lower .srv name) ∧
      (m.lookupSRV lower name).Pairwise fun x y =>
        x.priority < y.priority ∨ x.priority = y.priority ∧ y.weight ≤ x.weight := by
  have hworse (x y : LocalRecord) :
      (x.priority > y.priority || (x.priority == y.priority && x.weight < y.weight)) = true ↔
        y.priority.toNat * 65536 + (65535 - y.weight.toNat) <
          x.priority.toNat * 65536 + (65535 - x.weight.toNat) := by
    have hx := x.weight.toNat_lt
    have hy := y.weight.toNat_lt
    simp only [Bool.or_eq_true, Bool.and_eq_true, decide_eq_true_eq, beq_iff_eq, gt_iff_lt,
      UInt16.lt_iff_toNat_lt, ← UInt16.toNat_inj]
    omega
  refine ⟨swapSort_perm _ _ _, (swapSort_sorted hworse le_rfl).imp ?_⟩
  intro x y hle
  have hx := x.weight.toNat_lt
  have hy := y.weight.toNat_lt
  simp only [UInt16.lt_iff_toNat_lt, UInt16.le_iff_toNat_le, ← UInt16.toNat_inj]
  omega

end Lookups

end GloryHole.LocalRecords
