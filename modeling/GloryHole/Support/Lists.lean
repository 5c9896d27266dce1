import Mathlib

/-!
# Lists element by element

A partial function on every element of a list, and choices for every element, as relations
between lists; the sum of a list when one element grows; the least element of a list, the only one
with a property; the keys of an association list; the parts around a separator; counts of two
predicates.
-/

namespace GloryHole.Support.Lists

theorem mapM_eq_some_iff {α β : Type} {f : α → Option β} {xs : List α} {ys : List β} :
    xs.mapM f = some ys ↔ List.Forall₂ (fun x y => f x = some y) xs ys := by
  induction xs generalizing ys with
  | nil => cases ys <;> simp
  | cons x xs ih =>
    cases hx : f x with
    | none => cases ys <;> simp [List.mapM_cons, hx]
    | some y =>
      cases hxs : xs.mapM f with
      | none =>
        have hnone (ys : List β) : ¬ List.Forall₂ (fun x y => f x = some y) xs ys := by
          rw [← ih, hxs]
          simp
        cases ys <;> simp [List.mapM_cons, hx, hxs, hnone]
      | some zs =>
        cases ys with
        | nil => simp [List.mapM_cons, hx, hxs]
        | cons y' ys => simp [List.mapM_cons, hx, hxs, ← ih]

theorem exists_of_mapM_eq_some {α β : Type} {f : α → Option β} {xs : List α} {ys : List β}
    (h : xs.mapM f = some ys) {x : α} (hx : x ∈ xs) : ∃ y, f x = some y := by
  have hall := mapM_eq_some_iff.mp h
  induction hall with
  | nil => cases hx
  | cons hxy htail ih =>
    rcases List.mem_cons.mp hx with rfl | hx
    · exact ⟨_, hxy⟩
    · exact ih (mapM_eq_some_iff.mpr htail) hx

theorem forall_of_mapM_eq_some {α β : Type} {f : α → Option β} {P : β → Prop} {xs : List α}
    {ys : List β} (h : xs.mapM f = some ys) (hP : ∀ x y, f x = some y → P y) : ∀ y ∈ ys, P y := by
  have hall := mapM_eq_some_iff.mp h
  clear h
  induction hall with
  | nil => simp
  | cons hxy _ ih =>
    rw [List.forall_mem_cons]
    exact ⟨hP _ _ hxy, ih⟩

theorem sum_set_add {M : Type} [AddCommMonoid M] {l : List M} {i : Nat} {x : M}
    (h : l[i]? = some x) (d : M) : (l.set i (x + d)).sum = l.sum + d := by
  induction l generalizing i with
  | nil => cases h
  | cons y l ih =>
    cases i with
    | zero =>
      obtain rfl : y = x := by simpa using h
      rw [List.set_cons_zero, List.sum_cons, List.sum_cons, add_right_comm]
    | succ i =>
      rw [List.set_cons_succ, List.sum_cons, List.sum_cons, ih (by simpa using h), add_assoc]

/-! ## Least elements -/

/-- The first of the least elements. -/
theorem foldl_least {α β : Type*} [LinearOrder β] (f : α → β) (rest : List α) (first : α) :
    let best := rest.foldl (fun best c => if f c < f best then c else best) first
    best ∈ first :: rest ∧ ∀ c ∈ first :: rest, f best ≤ f c := by
  induction rest generalizing first with
  | nil => simp
  | cons c rest ih =>
    rw [List.foldl_cons]
    by_cases hlt : f c < f first
    · rw [if_pos hlt]
      obtain ⟨hmem, hleast⟩ := ih c
      refine ⟨List.mem_cons_of_mem _ hmem, ?_⟩
      intro c' hc'
      rcases List.mem_cons.mp hc' with rfl | hc'
      · exact (hleast c List.mem_cons_self).trans hlt.le
      · exact hleast c' hc'
    · rw [if_neg hlt]
      obtain ⟨hmem, hleast⟩ := ih first
      refine ⟨?_, ?_⟩
      · rcases List.mem_cons.mp hmem with heq | hmem
        · rw [heq]
          exact List.mem_cons_self
        · exact List.mem_cons_of_mem _ (List.mem_cons_of_mem _ hmem)
      · intro c' hc'
        rcases List.mem_cons.mp hc' with rfl | hc'
        · exact hleast c' List.mem_cons_self
        · rcases List.mem_cons.mp hc' with rfl | hc'
          · exact (hleast first List.mem_cons_self).trans (not_lt.mp hlt)
          · exact hleast c' (List.mem_cons_of_mem _ hc')

theorem find?_eq_some_of_only {α : Type*} {p : α → Bool} {l : List α} {x : α} (hx : x ∈ l)
    (hp : p x = true) (honly : ∀ y ∈ l, p y = true → y = x) : l.find? p = some x := by
  cases hfound : l.find? p with
  | none => exact absurd hp (List.find?_eq_none.mp hfound x hx)
  | some y => rw [honly y (List.mem_of_find?_eq_some hfound) (List.find?_some hfound)]

/-! ## Association lists -/

theorem nodup_remove {κ ν : Type} [DecidableEq κ] {l : List (κ × ν)} (key : κ)
    (h : (l.map Prod.fst).Nodup) : ((l.filter (·.1 ≠ key)).map Prod.fst).Nodup :=
  h.sublist (List.filter_sublist.map _)

theorem nodup_put {κ ν : Type} [DecidableEq κ] {l : List (κ × ν)} (key : κ) (v : ν)
    (h : (l.map Prod.fst).Nodup) :
    (((key, v) :: l.filter (·.1 ≠ key)).map Prod.fst).Nodup := by
  rw [List.map_cons, List.nodup_cons]
  refine ⟨?_, nodup_remove key h⟩
  rw [List.mem_map]
  rintro ⟨e, he, hkey⟩
  have hne := (List.mem_filter.mp he).2
  simp [hkey] at hne

/-- Only whether the key passes matters for looking it up. -/
theorem lookup_filter {κ ν : Type} [BEq κ] [LawfulBEq κ] {p : κ → Bool} {key : κ}
    (hkey : p key = true) (l : List (κ × ν)) :
    (l.filter fun e => p e.1).lookup key = l.lookup key := by
  induction l with
  | nil => rfl
  | cons e l ih =>
    obtain ⟨k, v⟩ := e
    by_cases hk : key = k
    · subst hk
      simp [hkey]
    · have hne : (key == k) = false := by simpa using hk
      rw [List.filter_cons, List.lookup_cons, hne, ← ih]
      split
      · rw [List.lookup_cons, hne]
      · rfl

/-- Removing a key that is there removes one entry. -/
theorem length_remove {κ ν : Type} [DecidableEq κ] [BEq κ] [LawfulBEq κ] {l : List (κ × ν)}
    {key : κ} {v : ν} (h : (l.map Prod.fst).Nodup) (hmem : l.lookup key = some v) :
    (l.filter (·.1 ≠ key)).length + 1 = l.length := by
  induction l with
  | nil => cases hmem
  | cons e l ih =>
    obtain ⟨k, w⟩ := e
    rw [List.map_cons, List.nodup_cons] at h
    by_cases hk : key = k
    · subst hk
      have hall : l.filter (·.1 ≠ key) = l := by
        rw [List.filter_eq_self]
        intro e he
        have hne : e.1 ≠ key := by
          intro heq
          apply h.1
          rw [← heq]
          exact List.mem_map.mpr ⟨e, he, rfl⟩
        simpa using hne
      rw [List.filter_cons_of_neg (by simp), hall, List.length_cons]
    · have hne : (key == k) = false := by simpa using hk
      rw [List.lookup_cons, hne] at hmem
      rw [List.filter_cons_of_pos (by simpa using Ne.symm hk), List.length_cons,
        List.length_cons, ih h.2 hmem]

/-! ## Separators -/

section Separators

variable {α : Type*} {c : α} {s s' t t' : List α}

/-- What stands before and after the first separator. -/
theorem append_cons_inj_left (hs : c ∉ s) (hs' : c ∉ s') (h : s ++ c :: t = s' ++ c :: t') :
    s = s' ∧ t = t' := by
  induction s generalizing s' with
  | nil =>
    cases s' with
    | nil => exact ⟨rfl, (List.cons.inj h).2⟩
    | cons b s' => exact absurd (List.cons.inj h).1 fun hb => hs' (hb ▸ List.mem_cons_self)
  | cons a s ih =>
    cases s' with
    | nil => exact absurd (List.cons.inj h).1 fun hb => hs (hb ▸ List.mem_cons_self)
    | cons b s' =>
      obtain ⟨rfl, hrest⟩ := List.cons.inj h
      obtain ⟨rfl, rfl⟩ := ih (fun hm => hs (List.mem_cons_of_mem _ hm))
        (fun hm => hs' (List.mem_cons_of_mem _ hm)) hrest
      exact ⟨rfl, rfl⟩

/-- What stands before and after the last separator. -/
theorem append_cons_inj_right (ht : c ∉ t) (ht' : c ∉ t') (h : s ++ c :: t = s' ++ c :: t') :
    s = s' ∧ t = t' := by
  have hrev := congrArg List.reverse h
  simp only [List.reverse_append, List.reverse_cons, List.append_assoc, List.singleton_append]
    at hrev
  obtain ⟨hafter, hbefore⟩ :=
    append_cons_inj_left (mt List.mem_reverse.mp ht) (mt List.mem_reverse.mp ht') hrev
  exact ⟨List.reverse_injective hbefore, List.reverse_injective hafter⟩

end Separators

/-! ## Counts -/

/-- Two counts agree if as many things meet only the one as meet only the other. -/
theorem countP_eq_iff {α : Type} (p q : α → Bool) (xs : List α) :
    xs.countP p = xs.countP q ↔
      xs.countP (fun x => q x && !p x) = xs.countP (fun x => p x && !q x) := by
  have hp := List.countP_eq_countP_filter_add xs p q
  have hq := List.countP_eq_countP_filter_add xs q p
  simp only [List.countP_filter] at hp hq
  have hboth : xs.countP (fun x => p x && q x) = xs.countP (fun x => q x && p x) := by
    simp only [Bool.and_comm]
  omega

/-! ## Positions of one list read in another -/

/-- From `k` on, `p` holds at the positions where `z` has an element with `q`. -/
def Marks {β : Type} (p : Nat → Bool) (k : Nat) (z : List β) (q : β → Bool) : Prop :=
  ∀ i, p (k + i) = true ↔ ∃ b, z[i]? = some b ∧ q b = true

section Positions

variable {α β : Type} {g : β → α} {p : Nat → Bool} {q : β → Bool} {k : Nat} {z : List β}

theorem Marks.head {b : β} (h : Marks p k (b :: z) q) : p k = q b := by
  rw [Bool.eq_iff_iff]
  simpa using h 0

theorem Marks.tail {b : β} (h : Marks p k (b :: z) q) : Marks p (k + 1) z q := by
  intro i
  rw [Nat.add_assoc, Nat.add_comm 1 i]
  exact h (i + 1)

theorem Marks.filter_eq_nil (h : Marks p k z q) (hz : ∀ b ∈ z, q b = false) (l : List α) :
    (l.zipIdx k).filter (fun e => p e.2) = [] := by
  rw [List.filter_eq_nil_iff]
  intro e he hpe
  obtain ⟨i, hi⟩ := Nat.exists_eq_add_of_le (List.le_snd_of_mem_zipIdx he)
  rw [hi, h] at hpe
  obtain ⟨b, hb, hqb⟩ := hpe
  rw [hz b (List.mem_of_getElem? hb)] at hqb
  cases hqb

/-- The elements of `l` at the marked positions are at most as many as the marks. -/
theorem Marks.length_le (h : Marks p k z q) (l : List α) :
    ((l.zipIdx k).filter fun e => p e.2).length ≤ (z.filter q).length := by
  induction z generalizing l k with
  | nil =>
    rw [h.filter_eq_nil (by simp)]
    exact Nat.zero_le _
  | cons b z ih =>
    cases l with
    | nil => exact Nat.zero_le _
    | cons a l =>
      rw [List.zipIdx_cons, List.filter_cons, List.filter_cons, h.head]
      have hrest := ih h.tail l
      cases q b with
      | true => exact Nat.succ_le_succ hrest
      | false => exact hrest

/-- The elements of `l` at the marked positions are the images of the marked elements just if
each of them is at its position. -/
theorem Marks.map_eq_iff (h : Marks p k z q) (l : List α) :
    ((l.zipIdx k).filter fun e => p e.2).map (·.1) = (z.filter q).map g ↔
      ∀ (i : Nat) (b : β), z[i]? = some b → q b = true → l[i]? = some (g b) := by
  induction z generalizing l k with
  | nil =>
    rw [h.filter_eq_nil (by simp)]
    simp
  | cons b z ih =>
    have hsplit : (∀ (i : Nat) (c : β), (b :: z)[i]? = some c → q c = true → l[i]? = some (g c)) ↔
        (q b = true → l[0]? = some (g b)) ∧
          ∀ (i : Nat) (c : β), z[i]? = some c → q c = true → l.tail[i]? = some (g c) := by
      simp only [List.getElem?_tail]
      constructor
      · intro hall
        exact ⟨hall 0 b rfl, fun i => hall (i + 1)⟩
      · rintro ⟨hzero, hsucc⟩ i c hc hqc
        cases i with
        | zero =>
          cases hc
          exact hzero hqc
        | succ i => exact hsucc i c hc hqc
    rw [hsplit, List.filter_cons]
    cases l with
    | nil =>
      have hrest := ih h.tail []
      cases hb : q b with
      | true => simp
      | false => simpa [hb] using hrest
    | cons a l =>
      rw [List.zipIdx_cons, List.filter_cons, h.head]
      have hrest := ih h.tail l
      cases hb : q b with
      | true => simp [← hrest]
      | false => simpa using hrest

end Positions

end GloryHole.Support.Lists
