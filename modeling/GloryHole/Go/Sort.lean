import GloryHole.Go.Strings

/-!
# Go's `sort` package

`sort.Strings` and the binary search `sort.Search`.  Byte strings are compared
lexicographically, as Go compares strings.
-/

namespace GloryHole.Go

def sortStrings (keys : List GoString) : List GoString := keys.insertionSort (· ≤ ·)

theorem sortStrings_perm (keys : List GoString) : (sortStrings keys).Perm keys :=
  List.perm_insertionSort _ keys

theorem sortStrings_pairwise (keys : List GoString) :
    (sortStrings keys).Pairwise (· ≤ ·) :=
  List.pairwise_insertionSort _ keys

theorem nodup_of_strictly_sorted {xs : List GoString} (hxs : xs.Pairwise (· < ·)) :
    xs.Nodup := by
  refine hxs.imp ?_
  rintro a b hlt rfl
  exact List.lt_irrefl _ hlt

/-- A list sorted strictly has its elements in one order only. -/
theorem eq_of_strictly_sorted {xs ys : List GoString} (hxs : xs.Pairwise (· < ·))
    (hys : ys.Pairwise (· < ·)) (hmem : ∀ d, d ∈ xs ↔ d ∈ ys) : xs = ys := by
  have hperm : xs.Perm ys :=
    (List.perm_ext_iff_of_nodup (nodup_of_strictly_sorted hxs)
      (nodup_of_strictly_sorted hys)).mpr hmem
  exact hperm.eq_of_pairwise (fun a b _ _ hab hba => absurd hba (List.lt_asymm hab)) hxs hys

/-- Sorting distinct strings sorts them strictly. -/
theorem sortStrings_strict {keys : List GoString} (hnodup : keys.Nodup) :
    (sortStrings keys).Pairwise (· < ·) := by
  have hne : (sortStrings keys).Pairwise (· ≠ ·) :=
    (sortStrings_perm keys).nodup_iff.mpr hnodup
  refine ((sortStrings_pairwise keys).and hne).imp ?_
  rintro a b ⟨hle, hne⟩
  exact Std.lt_of_le_of_ne hle hne

/-- The loop of `sort.Search` on the half-open interval from `i` to `j`. -/
def searchLoop (f : Nat → Bool) : Nat → Nat → Nat → Nat
  | 0, i, _ => i
  | fuel + 1, i, j =>
    if i < j then
      let h := (i + j) / 2
      if !f h then searchLoop f fuel (h + 1) j else searchLoop f fuel i h
    else i

/-- `sort.Search`: the interval shrinks in every round, so `n` rounds are enough. -/
def search (n : Nat) (f : Nat → Bool) : Nat := searchLoop f n 0 n

/-- The invariant of the loop: `f` is false below the interval and true above it. -/
theorem searchLoop_spec {f : Nat → Bool} {n : Nat}
    (hmono : ∀ a b, a ≤ b → b < n → f a = true → f b = true) :
    ∀ fuel i j, i ≤ j → j ≤ n → j - i ≤ fuel → (∀ k < i, f k = false) →
      (∀ k, j ≤ k → k < n → f k = true) →
      searchLoop f fuel i j ≤ n ∧ (∀ k < searchLoop f fuel i j, f k = false) ∧
        ∀ k, searchLoop f fuel i j ≤ k → k < n → f k = true := by
  intro fuel
  induction fuel with
  | zero =>
    intro i j hij hjn hfuel hlow hhigh
    have heq : i = j := by omega
    subst heq
    exact ⟨hjn, hlow, hhigh⟩
  | succ fuel ih =>
    intro i j hij hjn hfuel hlow hhigh
    unfold searchLoop
    by_cases hlt : i < j
    · have hmid : i ≤ (i + j) / 2 ∧ (i + j) / 2 < j := by omega
      rw [if_pos hlt]
      simp only
      cases hf : f ((i + j) / 2) with
      | false =>
        simp only [Bool.not_false, if_true]
        refine ih _ _ (by omega) hjn (by omega) ?_ hhigh
        intro k hk
        by_contra hne
        have htrue : f k = true := by simpa using hne
        have := hmono k ((i + j) / 2) (by omega) (by omega) htrue
        simp [hf] at this
      | true =>
        simp only [Bool.not_true, Bool.false_eq_true, if_false]
        refine ih _ _ hmid.1 (by omega) (by omega) hlow ?_
        intro k hk hkn
        exact hmono _ k hk hkn hf
    · rw [if_neg hlt]
      have heq : i = j := by omega
      subst heq
      exact ⟨hjn, hlow, hhigh⟩

/-- For a monotone predicate `sort.Search` returns its first true index. -/
theorem search_spec {f : Nat → Bool} {n : Nat}
    (hmono : ∀ a b, a ≤ b → b < n → f a = true → f b = true) :
    search n f ≤ n ∧ (∀ k < search n f, f k = false) ∧
      ∀ k, search n f ≤ k → k < n → f k = true :=
  searchLoop_spec hmono n 0 n (Nat.zero_le _) (Nat.le_refl _) (by omega)
    (fun _ hk => absurd hk (Nat.not_lt_zero _)) (fun _ h1 h2 => absurd h2 (by omega))

end GloryHole.Go
