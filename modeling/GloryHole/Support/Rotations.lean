import Mathlib

/-!
# Rotating the front of a list

`rotateFront k` puts the head of a list behind the `k - 1` elements that follow.  A sequence of
such moves, each over at least as many elements as the one before, brings a list without repetition
back to itself exactly if every number `k` occurs in it a multiple of `k` times.
-/

namespace GloryHole.Support.Rotations

variable {α : Type*} {k m n : Nat} {ks : List Nat} {l : List α}

def rotateFront (k : Nat) (l : List α) : List α := (l.take k).rotate 1 ++ l.drop k

def rotateFronts (ks : List Nat) (l : List α) : List α := ks.foldl (fun l k => rotateFront k l) l

theorem rotateFront_zero (l : List α) : rotateFront 0 l = l := by
  simp [rotateFront]

theorem rotateFront_succ_cons (k : Nat) (x : α) (l : List α) :
    rotateFront (k + 1) (x :: l) = l.take k ++ x :: l.drop k := by
  simp [rotateFront]

theorem rotateFront_perm (k : Nat) (l : List α) : (rotateFront k l).Perm l := by
  have hfront := (List.rotate_perm (l.take k) 1).append_right (l.drop k)
  rwa [List.take_append_drop] at hfront

theorem rotateFronts_perm (ks : List Nat) (l : List α) : (rotateFronts ks l).Perm l := by
  induction ks generalizing l with
  | nil => exact List.Perm.refl l
  | cons k ks ih => exact (ih (rotateFront k l)).trans (rotateFront_perm k l)

/-- What stands behind the moved elements stays. -/
theorem drop_rotateFront (hk : k ≤ m) (l : List α) : (rotateFront k l).drop m = l.drop m := by
  obtain ⟨d, rfl⟩ := Nat.exists_eq_add_of_le hk
  rcases Nat.le_total k l.length with hle | hle
  · have hlength : ((l.take k).rotate 1).length = k := by simp [hle]
    rw [rotateFront, ← List.drop_drop, List.drop_append_of_le_length hlength.ge,
      List.drop_of_length_le hlength.le, List.nil_append, List.drop_drop]
  · rw [List.drop_of_length_le (by rw [(rotateFront_perm k l).length_eq]; omega),
      List.drop_of_length_le (by omega)]

theorem drop_rotateFronts (hks : ∀ k ∈ ks, k ≤ m) (l : List α) :
    (rotateFronts ks l).drop m = l.drop m := by
  induction ks generalizing l with
  | nil => rfl
  | cons k ks ih =>
    rw [List.forall_mem_cons] at hks
    exact (ih hks.2 (rotateFront k l)).trans (drop_rotateFront hks.1 l)

theorem rotateFronts_append (ks ks' : List Nat) (l : List α) :
    rotateFronts (ks ++ ks') l = rotateFronts ks' (rotateFronts ks l) :=
  List.foldl_append

/-- Moves over the same elements are one rotation of them. -/
theorem rotateFronts_replicate (hk : k ≤ l.length) (n : Nat) :
    rotateFronts (List.replicate n k) l = (l.take k).rotate n ++ l.drop k := by
  induction n with
  | zero => simp [rotateFronts]
  | succ n ih =>
    have hlength : ((l.take k).rotate n).length = k := by simp [hk]
    have hone (l' : List α) : rotateFronts [k] l' = rotateFront k l' := rfl
    rw [List.replicate_succ', rotateFronts_append, ih, hone, rotateFront,
      List.take_append_of_le_length hlength.ge, List.take_of_length_le hlength.le,
      List.drop_append_of_le_length hlength.ge, List.drop_of_length_le hlength.le,
      List.nil_append, List.rotate_rotate]

/-- A rotation that leaves the last element in its place is a full turn. -/
theorem dvd_of_rotate_getElem? {f : List α} (hf : f.Nodup) (hlength : f.length = m + 1)
    (h : (f.rotate n)[m]? = f[m]?) : m + 1 ∣ n := by
  have hlt : (m + n) % f.length < f.length := Nat.mod_lt _ (by omega)
  rw [List.getElem?_rotate (by omega), List.getElem?_eq_getElem hlt,
    List.getElem?_eq_getElem (by omega), Option.some_inj, hf.getElem_inj_iff, hlength] at h
  have hsum : (m + 1) * ((m + n) / (m + 1)) + m = m + n := by
    have hdiv := Nat.div_add_mod (m + n) (m + 1)
    rwa [h] at hdiv
  exact ⟨(m + n) / (m + 1), by omega⟩

/-- An increasing list up to `m + 1` ends in the numbers `m + 1`. -/
theorem eq_filter_append_replicate (hsorted : ks.Pairwise (· ≤ ·)) (hks : ∀ k ∈ ks, k ≤ m + 1) :
    ks = ks.filter (· ≤ m) ++ List.replicate (ks.count (m + 1)) (m + 1) := by
  induction ks with
  | nil => rfl
  | cons k ks ih =>
    rw [List.pairwise_cons] at hsorted
    rw [List.forall_mem_cons] at hks
    by_cases hk : k ≤ m
    · rw [List.filter_cons_of_pos (by simpa using hk), List.count_cons_of_ne (by omega),
        List.cons_append, ← ih hsorted.2 hks.2]
    · obtain rfl : k = m + 1 := by omega
      have hall : ∀ k' ∈ ks, k' = m + 1 := by
        intro k' hk'
        have hle := hsorted.1 k' hk'
        have hle' := hks.2 k' hk'
        omega
      have hnone : ks.filter (· ≤ m) = [] := by
        rw [List.filter_eq_nil_iff]
        intro k' hk'
        simp [hall k' hk']
      rw [List.filter_cons_of_neg (by simp), hnone, List.nil_append, List.count_cons_self,
        List.replicate_succ, List.count_eq_length.mpr fun k' hk' => (hall k' hk').symm,
        ← List.eq_replicate_of_mem hall]

/-- The moves over `m + 1` elements come last, and alone they do not restore the list. -/
theorem rotateFronts_eq_self_iff_of_le (hsorted : ks.Pairwise (· ≤ ·)) (hl : l.Nodup)
    (hks : ∀ k ∈ ks, k ≤ m + 1) (hm : m + 1 ≤ l.length) :
    rotateFronts ks l = l ↔
      rotateFronts (ks.filter (· ≤ m)) l = l ∧ m + 1 ∣ ks.count (m + 1) := by
  obtain ⟨f, hf⟩ : ∃ f, rotateFronts (ks.filter (· ≤ m)) l = f := ⟨_, rfl⟩
  obtain ⟨n, hn⟩ : ∃ n, ks.count (m + 1) = n := ⟨_, rfl⟩
  have hperm : f.Perm l := hf ▸ rotateFronts_perm _ l
  have hlength : m + 1 ≤ f.length := hperm.length_eq ▸ hm
  have hall : rotateFronts ks l = (f.take (m + 1)).rotate n ++ f.drop (m + 1) := by
    rw [eq_filter_append_replicate hsorted hks, rotateFronts_append, hf, hn,
      rotateFronts_replicate hlength]
  have hlast : f[m]? = l[m]? := by
    have hdrop : f.drop m = l.drop m := by
      rw [← hf]
      exact drop_rotateFronts (by simp) l
    have hhead := congrArg (·[0]?) hdrop
    simpa using hhead
  have hturn : m + 1 ∣ n → rotateFronts ks l = f := by
    intro hdvd
    have hmod : n % (f.take (m + 1)).length = 0 := by
      rw [List.length_take_of_le hlength]
      exact Nat.mod_eq_zero_of_dvd hdvd
    rw [hall, ← List.rotate_mod, hmod, List.rotate_zero, List.take_append_drop]
  rw [hf, hn]
  constructor
  · intro h
    have hdvd : m + 1 ∣ n := by
      apply dvd_of_rotate_getElem? ((hperm.nodup_iff.mpr hl).sublist (List.take_sublist _ f))
        (List.length_take_of_le hlength)
      have hleft : (rotateFronts ks l)[m]? = ((f.take (m + 1)).rotate n)[m]? := by
        rw [hall]
        exact List.getElem?_append_left (by simp [hlength])
      rw [← hleft, h, List.getElem?_take_of_lt (Nat.lt_succ_self m), hlast]
    exact ⟨(hturn hdvd).symm.trans h, hdvd⟩
  · rintro ⟨hfl, hdvd⟩
    exact (hturn hdvd).trans hfl

theorem forall_dvd_count_iff (hks : ∀ k ∈ ks, k ≤ m + 1) :
    (∀ k, 0 < k → k ∣ ks.count k) ↔
      (∀ k, 0 < k → k ∣ (ks.filter (· ≤ m)).count k) ∧ m + 1 ∣ ks.count (m + 1) := by
  have hsmall {k : Nat} (hk : k ≤ m) : (ks.filter (· ≤ m)).count k = ks.count k :=
    List.count_filter (by simpa using hk)
  have hlarge {k : Nat} (hk : m < k) : (ks.filter (· ≤ m)).count k = 0 := by
    rw [List.count_eq_zero, List.mem_filter]
    rintro ⟨-, hle⟩
    rw [decide_eq_true_eq] at hle
    omega
  constructor
  · intro h
    refine ⟨?_, h (m + 1) (Nat.succ_pos m)⟩
    intro k hk
    rcases Nat.lt_or_ge m k with hlt | hle
    · rw [hlarge hlt]
      exact Nat.dvd_zero k
    · rw [hsmall hle]
      exact h k hk
  · rintro ⟨h, hlast⟩ k hk
    rcases Nat.lt_trichotomy k (m + 1) with hlt | rfl | hgt
    · rw [← hsmall (Nat.le_of_lt_succ hlt)]
      exact h k hk
    · exact hlast
    · rw [List.count_eq_zero.mpr fun hmem => absurd (hks k hmem) (Nat.not_le_of_gt hgt)]
      exact Nat.dvd_zero k

/-- Moves over more and more elements bring the list back exactly if each length is used a multiple
of that many times. -/
theorem rotateFronts_eq_self_iff (hsorted : ks.Pairwise (· ≤ ·)) (hl : l.Nodup)
    (hks : ∀ k ∈ ks, k ≤ l.length) :
    rotateFronts ks l = l ↔ ∀ k, 0 < k → k ∣ ks.count k := by
  suffices h : ∀ m ≤ l.length, ∀ ks : List Nat, ks.Pairwise (· ≤ ·) → (∀ k ∈ ks, k ≤ m) →
      (rotateFronts ks l = l ↔ ∀ k, 0 < k → k ∣ ks.count k) from h _ le_rfl ks hsorted hks
  intro m hm
  induction m with
  | zero =>
    intro ks _ hks
    have hself : rotateFronts ks l = l := drop_rotateFronts hks l
    refine ⟨fun _ k hk => ?_, fun _ => hself⟩
    rw [List.count_eq_zero.mpr fun hmem => absurd (hks k hmem) (Nat.not_le_of_gt hk)]
    exact Nat.dvd_zero k
  | succ m ih =>
    intro ks hsorted hks
    rw [rotateFronts_eq_self_iff_of_le hsorted hl hks hm, forall_dvd_count_iff hks,
      ih (Nat.le_of_succ_le hm) _ (hsorted.sublist List.filter_sublist) (by simp)]

end GloryHole.Support.Rotations
